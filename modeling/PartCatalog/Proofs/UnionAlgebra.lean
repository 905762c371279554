/-
# The algebra of unions -- associative, and symmetric but for what the right side wins

Agreement on shared names is symmetric and transitive, so three sets agree in one grouping
exactly when they do in the other, and a union of three does not depend on how it is
grouped (`union_associative`).  Not even not-a-number gets in the way: as a default it agrees
with nothing, and that in both groupings.  Whether two sets agree does not depend on which
comes first, and only literals, the order of lists and the spelling of equal defaults tell
the two unions apart (`union_symmetric`).  There it matters that the sets are well formed:
their choices are in the one order they have, and none of their defaults is not-a-number.
-/
import PartCatalog.Proofs.WellFormed

set_option autoImplicit false

namespace PartCatalog

open Outcome

/-! ## Agreement on shared names -/

namespace NameMap

variable {α : Type} {r : α → α → Prop} {a b c : NameMap α}

/-- Whether two maps relate what they have under each name they share. -/
def Agree (r : α → α → Prop) (m n : NameMap α) : Prop :=
  ∀ name x y, m.get? name = some x → n.get? name = some y → r x y

theorem Agree.symm (symmetric : ∀ x y, r x y → r y x) (agree : Agree r a b) : Agree r b a :=
  fun name x y found found' => symmetric y x (agree name y x found' found)

theorem forall_some_iff {x y : α} :
    (∀ x' y', some x = some x' → some y = some y' → r x' y') ↔ r x y :=
  ⟨fun all => all x y rfl rfl, fun related _ _ here there => by cases here; cases there; exact related⟩

/-- Three maps agree in one grouping exactly when they do in the other. -/
theorem agree_overlay_assoc (symmetric : ∀ x y, r x y → r y x)
    (transitive : ∀ x y z, r x y → r y z → r x z) :
    Agree r a b ∧ Agree r (a.overlay b) c ↔ Agree r b c ∧ Agree r a (b.overlay c) := by
  unfold Agree
  simp only [get?_overlay]
  rw [← forall_and, ← forall_and]
  refine forall_congr' fun name => ?_
  cases a.get? name with
  | none => cases b.get? name <;> cases c.get? name <;> simp
  | some x =>
      cases b.get? name with
      | none => cases c.get? name <;> simp
      | some y =>
          cases c.get? name with
          | none => simp
          | some z =>
              -- The middle map relates the outer ones, whichever two were compared first.
              simp only [Option.some_or, forall_some_iff]
              constructor
              · rintro ⟨xy, yz⟩
                exact ⟨yz, transitive x y z xy yz⟩
              · rintro ⟨yz, xz⟩
                exact ⟨transitive x z y xz (symmetric y z yz), yz⟩

theorem overlay_comm_of_agree (agree : Agree (· = ·) a b) : a.overlay b = b.overlay a := by
  refine ext_get? fun name => ?_
  rw [get?_overlay, get?_overlay]
  cases found : a.get? name with
  | none => simp
  | some x =>
      cases found' : b.get? name with
      | none => rfl
      | some y => rw [Option.some_or, Option.some_or, agree name x y found found']

end NameMap

/-! ## Sameness of values -/

namespace Value

theorem same_symm {v w : Value} (same : v.same w = true) : w.same v = true := by
  cases v <;> cases w <;> simp_all [Value.same, Binary64.numEq]

theorem same_trans {u v w : Value} (uv : u.same v = true) (vw : v.same w = true) :
    u.same w = true := by
  cases u <;> cases v <;> cases w <;> simp_all [Value.same, Binary64.numEq]

/-- A value that some type admits is the same as itself. -/
theorem same_self {type : ParameterType} {v : Value} (admitted : type.Admits v) :
    v.same v = true := by
  cases v with
  | absent => rfl
  | bool b => simp [Value.same]
  | number x => simp [Value.same, Binary64.numEq, admitted.2.1]
  | text s => simp [Value.same]

end Value

namespace ParameterSet

variable {a b c left right : ParameterSet}

/-! ## Whether sets agree -/

theorem agrees_iff : left.Agrees right ↔
    NameMap.Agree (· = ·) left.types right.types ∧
      NameMap.Agree (fun v w => Value.same v w = true) left.defaults right.defaults ∧
      NameMap.Agree (· = ·) left.description right.description :=
  ⟨fun agrees => ⟨agrees.types, agrees.defaults, agrees.description⟩,
    fun ⟨types, defaults, description⟩ => ⟨types, defaults, description⟩⟩

theorem Agrees.symm (agrees : left.Agrees right) : right.Agrees left := by
  obtain ⟨types, defaults, description⟩ := agrees_iff.1 agrees
  exact agrees_iff.2 ⟨types.symm fun _ _ => Eq.symm, defaults.symm fun _ _ => Value.same_symm,
    description.symm fun _ _ => Eq.symm⟩

theorem agrees_assoc :
    a.Agrees b ∧ (a.joined b).Agrees c ↔ b.Agrees c ∧ a.Agrees (b.joined c) := by
  have types := NameMap.agree_overlay_assoc (r := (· = ·)) (a := a.types) (b := b.types)
    (c := c.types) (fun _ _ => Eq.symm) fun _ _ _ => Eq.trans
  have defaults := NameMap.agree_overlay_assoc (r := fun v w => Value.same v w = true)
    (a := a.defaults) (b := b.defaults) (c := c.defaults) (fun _ _ => Value.same_symm)
    fun _ _ _ => Value.same_trans
  have description := NameMap.agree_overlay_assoc (r := (· = ·)) (a := a.description)
    (b := b.description) (c := c.description) (fun _ _ => Eq.symm) fun _ _ _ => Eq.trans
  simp only [agrees_iff, joined]
  grind

/-- A well-formed set agrees with itself, as none of its defaults is not-a-number. -/
theorem agrees_self (well : a.WellFormed) : a.Agrees a where
  types := fun name ours theirs found found' => Option.some.inj (found.symm.trans found')
  defaults := fun name ours theirs found found' => by
    obtain rfl : ours = theirs := Option.some.inj (found.symm.trans found')
    obtain ⟨type, -, admitted⟩ := well.defaultsFit name ours found
    exact Value.same_self admitted
  description := fun name ours theirs found found' => Option.some.inj (found.symm.trans found')

/-! ## Narrowing choices -/

theorem sort_filter_sort (p : String → Bool) (cs : List String) :
    ChoiceOrder.sort ((ChoiceOrder.sort cs).filter p) = ChoiceOrder.sort (cs.filter p) :=
  ChoiceOrder.sort_eq_of_perm ((ChoiceOrder.sort_perm cs).filter p)

/-- The order of what narrows does not matter. -/
theorem narrowed_sort (ours? : Option (List String)) (theirs : List String) :
    narrowed ours? (ChoiceOrder.sort theirs) = narrowed ours? theirs := by
  cases ours? with
  | none => exact ChoiceOrder.sort_sort theirs
  | some ours => simp only [narrowed, ChoiceOrder.mem_sort]

/-- Narrowing twice is narrowing by what is left after narrowing. -/
theorem narrowed_narrowed (ours? : Option (List String)) (theirs others : List String) :
    narrowed (some (narrowed ours? theirs)) others = narrowed ours? (narrowed (some theirs) others) := by
  have inner : narrowed ours? (narrowed (some theirs) others) =
      narrowed ours? (theirs.filter (· ∈ others)) := narrowed_sort _ _
  rw [inner]
  cases ours? with
  | none => exact sort_filter_sort _ _
  | some ours =>
      have outer : narrowed (some (narrowed (some ours) theirs)) others =
          ChoiceOrder.sort ((ours.filter (· ∈ theirs)).filter (· ∈ others)) := sort_filter_sort _ _
      rw [outer, List.filter_filter]
      simp only [narrowed, List.mem_filter, decide_eq_true_eq, Bool.decide_and, Bool.and_comm]

theorem narrowed_comm {ours theirs : List String} (nodup : ours.Nodup) (nodup' : theirs.Nodup) :
    narrowed (some ours) theirs = narrowed (some theirs) ours := by
  refine ChoiceOrder.sort_eq_of_perm ((List.perm_ext_iff_of_nodup (nodup.filter _)
    (nodup'.filter _)).2 fun c => ?_)
  simp only [List.mem_filter, decide_eq_true_eq, and_comm]

theorem mergeChoices_assoc (x y z : NameMap (List String)) :
    mergeChoices (mergeChoices x y) z = mergeChoices x (mergeChoices y z) := by
  refine NameMap.ext_get? fun name => ?_
  simp only [get?_mergeChoices]
  cases z.get? name with
  | none => simp only [Option.map_none, Option.none_or]
  | some others =>
      cases y.get? name with
      | none =>
          have sorted : narrowed none others = ChoiceOrder.sort others := rfl
          simp only [Option.map_some, Option.map_none, Option.none_or, Option.some_or, sorted,
            narrowed_sort]
      | some theirs => simp only [Option.map_some, Option.some_or, narrowed_narrowed]

theorem mergeChoices_comm (wellLeft : left.WellFormed) (wellRight : right.WellFormed) :
    mergeChoices left.choices right.choices = mergeChoices right.choices left.choices := by
  refine NameMap.ext_get? fun name => ?_
  simp only [get?_mergeChoices]
  cases inLeft : left.choices.get? name with
  | none =>
      cases inRight : right.choices.get? name with
      | none => rfl
      | some theirs => exact congrArg some (wellRight.choices name theirs inRight).sorted
  | some ours =>
      have oursOf := wellLeft.choices name ours inLeft
      cases inRight : right.choices.get? name with
      | none => exact congrArg some oursOf.sorted.symm
      | some theirs =>
          have theirsOf := wellRight.choices name theirs inRight
          exact congrArg some (narrowed_comm oursOf.nodup theirsOf.nodup)

theorem mergeChoices_self (well : a.WellFormed) : mergeChoices a.choices a.choices = a.choices := by
  refine NameMap.ext_get? fun name => ?_
  rw [get?_mergeChoices]
  cases found : a.choices.get? name with
  | none => rfl
  | some choices =>
      have all : choices.filter (· ∈ choices) = choices := List.filter_eq_self.2 fun c member => by
        simpa using member
      have kept : narrowed (some choices) choices = choices := by
        rw [narrowed, all]
        exact (well.choices name choices found).sorted
      rw [Option.map_some, Option.some_or, kept]

/-! ## Unions of three sets -/

theorem joined_assoc (a b c : ParameterSet) : (a.joined b).joined c = a.joined (b.joined c) := by
  simp only [joined, NameMap.overlay_assoc, List.append_assoc, mergeChoices_assoc, NameSet.union_assoc]

/-- **Unions are associative.**  Uniting the first two sets and then the third gives a set
exactly when uniting the first with the union of the others does, and the same one. -/
theorem union_associative (a b c united : ParameterSet) :
    (a.union b >>= fun ab => ab.union c) = .ok united ↔
      (b.union c >>= fun bc => a.union bc) = .ok united := by
  simp only [bind_eq_ok, union_eq_ok]
  constructor
  · rintro ⟨_, ⟨ab, rfl⟩, abc, rfl⟩
    obtain ⟨bc, abc'⟩ := agrees_assoc.1 ⟨ab, abc⟩
    exact ⟨_, ⟨bc, rfl⟩, abc', joined_assoc a b c⟩
  · rintro ⟨_, ⟨bc, rfl⟩, abc, rfl⟩
    obtain ⟨ab, abc'⟩ := agrees_assoc.2 ⟨bc, abc⟩
    exact ⟨_, ⟨ab, rfl⟩, abc', (joined_assoc a b c).symm⟩

/-! ## Unions of two sets -/

/-- Defaults that agree are the same whichever side wins. -/
theorem same_defaults_joined (wellLeft : left.WellFormed) (wellRight : right.WellFormed)
    (agrees : left.Agrees right) :
    (left.joined right).defaults.same Value.same (right.joined left).defaults = true := by
  have self : ∀ {params : ParameterSet} {name v}, params.WellFormed →
      params.defaults.get? name = some v → v.same v = true := by
    intro params name v well found
    obtain ⟨type, -, admitted⟩ := well.defaultsFit name v found
    exact Value.same_self admitted
  refine NameMap.same_of_get? (fun name => ?_) fun name v w found found' => ?_
  · simp only [joined, NameMap.mem_keys_overlay]
    exact or_comm
  · simp only [joined, NameMap.get?_overlay] at found found'
    cases inLeft : left.defaults.get? name <;> cases inRight : right.defaults.get? name <;>
      simp only [inLeft, inRight, Option.none_or, Option.some_or, Option.some.injEq, reduceCtorEq]
        at found found'
    · subst found found'
      exact self wellRight inRight
    · subst found found'
      exact self wellLeft inLeft
    · subst found found'
      exact Value.same_symm (agrees.defaults name _ _ inLeft inRight)

/-- **Unions are symmetric in what is not sided.**  Two sets have a union in one order
exactly when they do in the other.  The two unions have the same types, descriptions,
choices and parameters, and defaults of the same values.  A set has a union with itself,
which differs from it only in the free list and the tables, all doubled, and in having no
common combinations. -/
theorem union_symmetric (reachLeft : Reachable left) (reachRight : Reachable right) :
    ((∃ united, left.union right = .ok united) ↔ ∃ united, right.union left = .ok united) ∧
    (∀ ours theirs, left.union right = .ok ours → right.union left = .ok theirs →
      ours.types = theirs.types ∧ ours.description = theirs.description ∧
        ours.choices = theirs.choices ∧ ours.parameters = theirs.parameters ∧
        ours.defaults.same Value.same theirs.defaults = true) ∧
    ∃ double, left.union left = .ok double ∧ double.literal = left.literal ∧
      double.types = left.types ∧ double.defaults = left.defaults ∧
      double.description = left.description ∧ double.choices = left.choices ∧
      double.parameters = left.parameters := by
  have wellLeft := reachLeft.wellFormed
  have wellRight := reachRight.wellFormed
  simp only [union_eq_ok, exists_and_left, exists_eq, and_true]
  refine ⟨⟨Agrees.symm, Agrees.symm⟩, ?_, left.joined left, ⟨agrees_self wellLeft, rfl⟩, ?_⟩
  · rintro _ _ ⟨agrees, rfl⟩ ⟨-, rfl⟩
    exact ⟨NameMap.overlay_comm_of_agree agrees.types,
      NameMap.overlay_comm_of_agree agrees.description, mergeChoices_comm wellLeft wellRight,
      NameSet.union_comm _ _, same_defaults_joined wellLeft wellRight agrees⟩
  · exact ⟨NameMap.overlay_self _, NameMap.overlay_self _, NameMap.overlay_self _,
      NameMap.overlay_self _, mergeChoices_self wellLeft, NameSet.union_self _⟩

/-- The screw and its base have the same choices in both orders, in which their lists of
free parameters differ. -/
theorem union_symmetric_screw_base :
    ∃ united reversed, Example.screw.union Example.base = .ok united ∧
      Example.base.union Example.screw = .ok reversed ∧ united.choices = reversed.choices ∧
      united.defaults.same Value.same reversed.defaults = true ∧ united.free ≠ reversed.free ∧
      ∃ double, Example.screw.union Example.screw = .ok double ∧
        double.choices = Example.screw.choices := by
  obtain ⟨success, unsided, double, joined, -, -, -, -, choices, -⟩ :=
    union_symmetric (.read Example.read_screw) (.read Example.read_base)
  obtain ⟨reversed, joined'⟩ := success.1 ⟨_, Example.union_screw_base⟩
  obtain ⟨-, -, sameChoices, -, sameDefaults⟩ :=
    unsided _ _ Example.union_screw_base joined'
  refine ⟨_, reversed, Example.union_screw_base, joined', sameChoices, sameDefaults, ?_, double, joined, choices⟩
  rw [(union_eq_ok.1 Example.union_screw_base).2, (union_eq_ok.1 joined').2]
  decide +kernel

end ParameterSet

end PartCatalog
