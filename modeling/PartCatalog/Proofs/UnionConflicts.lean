/-
# Conflicts of a union -- which sets cannot be united, and what is reported

Merging two maps goes through the names of the right one in ascending order, and an entry
that was laid over the left map never stands under a later name.  So a merge fails exactly
where the maps clash at all, and its error is about the smallest name at which they do
(`mergeAgreeing_eq_error`).  A union merges types, then defaults, then descriptions, and the
first merge that fails decides (`Refused`, `union_eq_error`).  In well-formed sets every
parameter has a type and every free one a default, so the clashes of those maps are
conflicts about parameters and about free parameters.  What a union that is not refused
holds is said field by field (`Unites`); `union_decided` has both halves.
-/
import PartCatalog.Proofs.UnionAlgebra

set_option autoImplicit false

namespace PartCatalog

open Outcome

/-- Whether a conflict stands at the smallest name that has one. -/
structure IsSmallest {α : Type} (conflict : String → α → α → Prop) (name : String)
    (ours theirs : α) : Prop where
  here : conflict name ours theirs
  smallest : ∀ other x y, conflict other x y → name ≤ other

/-! ## Where a merge fails -/

namespace NameMap

variable {α ε : Type} {samePayload : α → α → Bool} {conflict : String → α → α → ε}
  {left right merged : NameMap α} {e : ε}

/-- Whether two maps have payloads under a name that are not the same. -/
structure Clash (samePayload : α → α → Bool) (left right : NameMap α) (name : String)
    (ours theirs : α) : Prop where
  inLeft : left.get? name = some ours
  inRight : right.get? name = some theirs
  differ : samePayload ours theirs = false

/-- Whether a map has a payload under the name of an entry that is not the same. -/
def Refuses (samePayload : α → α → Bool) (left : NameMap α) (entry : String × α) : Prop :=
  ∃ ours, left.get? entry.1 = some ours ∧ samePayload ours entry.2 = false

theorem mergeEntry_eq_error {entry : String × α} :
    mergeEntry samePayload conflict left entry = .error e ↔
      ∃ ours, left.get? entry.1 = some ours ∧ samePayload ours entry.2 = false ∧
        e = conflict entry.1 ours entry.2 := by
  unfold mergeEntry
  cases found : left.get? entry.1 with
  | none => simp
  | some ours =>
      simp only [Option.some.injEq, exists_eq_left']
      cases same : samePayload ours entry.2 with
      | true => simp
      | false => simp [eq_comm]

/-- A step goes on exactly if the left map does not refuse its entry. -/
theorem exists_mergeEntry_iff {entry : String × α} :
    (∃ next, mergeEntry samePayload conflict left entry = .ok next) ↔ ¬ Refuses samePayload left entry := by
  simp only [mergeEntry_eq_ok, exists_and_left, exists_eq, and_true, Refuses, not_exists, not_and,
    Bool.not_eq_false]

/-- What one step lays over the left map is not seen under any other name. -/
theorem refuses_insert_iff {entry other : String × α} (different : entry.1 ≠ other.1) :
    Refuses samePayload (left.insert entry.1 entry.2) other ↔ Refuses samePayload left other := by
  unfold Refuses
  rw [get?_insert, if_neg different]

/-- A merge of entries of different names fails at the first one that the left map refuses. -/
theorem foldlM_mergeEntry_eq_error {es : List (String × α)} (names : (es.map (·.1)).Nodup) :
    es.foldlM (mergeEntry samePayload conflict) left = .error e ↔
      ∃ entry ours, IsFirst (Refuses samePayload left) es entry ∧ left.get? entry.1 = some ours ∧
        e = conflict entry.1 ours entry.2 := by
  -- On the entries, for every left map: what is laid over it changes no answer about later names.
  induction es generalizing left with
  | nil => simp [IsFirst, pure_eq]
  | cons entry es ih =>
      obtain ⟨fresh, names⟩ := List.nodup_cons.1 names
      simp only [List.foldlM_cons, bind_eq_error, isFirst_cons_iff]
      by_cases refused : Refuses samePayload left entry
      · have stops : ∀ next, mergeEntry samePayload conflict left entry ≠ .ok next := fun next goes =>
          exists_mergeEntry_iff.1 ⟨next, goes⟩ refused
        simp only [mergeEntry_eq_error, stops, false_and, exists_false, or_false, refused, and_true,
          not_true_eq_false]
        obtain ⟨ours, found, differ⟩ := refused
        constructor
        · rintro ⟨ours', found', -, rfl⟩
          exact ⟨entry, ours', rfl, found', rfl⟩
        · rintro ⟨_, ours', rfl, found', rfl⟩
          obtain rfl : ours = ours' := Option.some.inj (found.symm.trans found')
          exact ⟨ours, found, differ, rfl⟩
      · obtain ⟨next, goes⟩ : ∃ next, mergeEntry samePayload conflict left entry = .ok next :=
          exists_mergeEntry_iff.2 refused
        obtain rfl := (mergeEntry_eq_ok.1 goes).2
        have different : ∀ other ∈ es, entry.1 ≠ other.1 := by
          intro other member same
          exact fresh (List.mem_map.2 ⟨other, member, same.symm⟩)
        have unseen : ∀ other, IsFirst (Refuses samePayload (left.insert entry.1 entry.2)) es other ↔
            IsFirst (Refuses samePayload left) es other := fun other =>
          isFirst_congr fun x member => refuses_insert_iff (different x member)
        simp only [goes, reduceCtorEq, false_or, Except.ok.injEq, exists_eq_left', ih names, unseen, refused,
          and_false, not_false_eq_true, true_and]
        refine exists_congr fun other => exists_congr fun ours => and_congr_right fun first => ?_
        rw [get?_insert, if_neg (different other first.mem)]

/-- **A merge reports the smallest name at which the maps clash.** -/
theorem mergeAgreeing_eq_error :
    left.mergeAgreeing samePayload conflict right = .error e ↔
      ∃ name ours theirs, IsSmallest (Clash samePayload left right) name ours theirs ∧
        e = conflict name ours theirs := by
  have asymm : ∀ a b : String × α, a.1 < b.1 → ¬ b.1 < a.1 := fun _ _ below above =>
    String.lt_irrefl _ (String.lt_trans below above)
  rw [mergeAgreeing_eq, foldlM_mergeEntry_eq_error right.nodup_keys]
  simp only [isFirst_iff_of_pairwise asymm right.ascending, String.not_lt]
  constructor
  · rintro ⟨⟨name, theirs⟩, ours, ⟨member, ⟨ours', found', differ⟩, smallest⟩, found, rfl⟩
    obtain rfl : ours' = ours := Option.some.inj (found'.symm.trans found)
    refine ⟨name, ours', theirs, ⟨⟨found, mem_entries_iff.1 member, differ⟩, ?_⟩, rfl⟩
    intro other x y clash
    exact smallest (other, y) (mem_entries_iff.2 clash.inRight) ⟨x, clash.inLeft, clash.differ⟩
  · rintro ⟨name, ours, theirs, ⟨clash, smallest⟩, rfl⟩
    refine ⟨(name, theirs), ours, ⟨mem_entries_iff.2 clash.inRight, ⟨ours, clash.inLeft, clash.differ⟩, ?_⟩,
      clash.inLeft, rfl⟩
    rintro ⟨other, y⟩ member ⟨x, found, differ⟩
    exact smallest other x y ⟨found, mem_entries_iff.1 member, differ⟩

theorem forall_not_clash_iff :
    (∀ name ours theirs, ¬ Clash samePayload left right name ours theirs) ↔
      ∀ name ours theirs, left.get? name = some ours → right.get? name = some theirs →
        samePayload ours theirs = true := by
  constructor
  · intro apart name ours theirs found found'
    cases same : samePayload ours theirs with
    | true => rfl
    | false => exact absurd ⟨found, found', same⟩ (apart name ours theirs)
  · rintro agree name ours theirs ⟨found, found', differ⟩
    have same := agree name ours theirs found found'
    rw [differ] at same
    cases same

/-- A merge succeeds exactly where the maps do not clash. -/
theorem mergeAgreeing_succeeds_iff :
    (∃ merged, left.mergeAgreeing samePayload conflict right = .ok merged) ↔
      ∀ name ours theirs, ¬ Clash samePayload left right name ours theirs := by
  rw [forall_not_clash_iff]
  simp only [mergeAgreeing_eq_ok, exists_and_left, exists_eq, and_true]

end NameMap

namespace ParameterSet

open NameMap (Clash)

variable {left right united : ParameterSet} {e : DeclarationError}

/-! ## Conflicts -/

/-- Whether two sets have a parameter with different types. -/
structure TypeConflict (left right : ParameterSet) (name : String) (ours theirs : ParameterType) :
    Prop where
  known : name ∈ NameMap.keys left.parameters ∧ name ∈ NameMap.keys right.parameters
  inLeft : left.typeOf? name = some ours
  inRight : right.typeOf? name = some theirs
  differ : ours ≠ theirs

/-- Whether a parameter is free in two sets with defaults that are not the same. -/
structure DefaultConflict (left right : ParameterSet) (name : String) (ours theirs : Value) : Prop where
  free : name ∈ left.free ∧ name ∈ right.free
  inLeft : left.defaults.get? name = some ours
  inRight : right.defaults.get? name = some theirs
  differ : ours.same theirs = false

/-- Whether two sets describe a parameter differently. -/
structure DescriptionConflict (left right : ParameterSet) (name ours theirs : String) : Prop where
  inLeft : left.description.get? name = some ours
  inRight : right.description.get? name = some theirs
  differ : ours ≠ theirs

/-- The error that a union of two sets is refused with: types come before defaults and these
before descriptions, and of conflicts of one kind the one at the smallest name counts. -/
inductive Refused (left right : ParameterSet) : DeclarationError → Prop where
  | types {name : String} {ours theirs : ParameterType}
      (first : IsSmallest (left.TypeConflict right) name ours theirs) :
      Refused left right (.incompatibleTypes name ours theirs)
  | defaults {name : String} {ours theirs : Value}
      (sameTypes : ∀ name ours theirs, ¬ left.TypeConflict right name ours theirs)
      (first : IsSmallest (left.DefaultConflict right) name ours theirs) :
      Refused left right (.incompatibleDefaults name ours theirs)
  | descriptions {name ours theirs : String}
      (sameTypes : ∀ name ours theirs, ¬ left.TypeConflict right name ours theirs)
      (sameDefaults : ∀ name ours theirs, ¬ left.DefaultConflict right name ours theirs)
      (first : IsSmallest (left.DescriptionConflict right) name ours theirs) :
      Refused left right (.incompatibleDescriptions name ours theirs)

/-- In well-formed sets the typed names are the parameters. -/
theorem clash_types_eq (wellLeft : left.WellFormed) (wellRight : right.WellFormed) :
    Clash (· == ·) left.types right.types = left.TypeConflict right := by
  funext name ours theirs
  refine propext ⟨fun ⟨found, found', differ⟩ => ?_, fun conflict => ?_⟩
  · refine ⟨⟨?_, ?_⟩, found, found', by simpa using differ⟩
    · rw [← wellLeft.types]
      exact NameMap.mem_keys_of_get? found
    · rw [← wellRight.types]
      exact NameMap.mem_keys_of_get? found'
  · exact ⟨conflict.inLeft, conflict.inRight, by simpa using conflict.differ⟩

/-- In well-formed sets the names with a default are the free ones. -/
theorem clash_defaults_eq (wellLeft : left.WellFormed) (wellRight : right.WellFormed) :
    Clash Value.same left.defaults right.defaults = left.DefaultConflict right := by
  funext name ours theirs
  refine propext ⟨fun ⟨found, found', differ⟩ => ?_, fun conflict => ?_⟩
  · have inLeft := (wellLeft.defaults name).1 (NameMap.mem_keys_of_get? found)
    have inRight := (wellRight.defaults name).1 (NameMap.mem_keys_of_get? found')
    exact ⟨⟨inLeft, inRight⟩, found, found', differ⟩
  · exact ⟨conflict.inLeft, conflict.inRight, conflict.differ⟩

theorem clash_descriptions_eq :
    Clash (· == ·) left.description right.description = left.DescriptionConflict right := by
  funext name ours theirs
  refine propext ⟨fun clash => ?_, fun conflict => ?_⟩
  · exact ⟨clash.inLeft, clash.inRight, by simpa using clash.differ⟩
  · exact ⟨conflict.inLeft, conflict.inRight, by simpa using conflict.differ⟩

/-! ## Refused unions -/

/-- A union fails where one of its three merges does, after those before it have succeeded. -/
theorem union_eq_error (wellLeft : left.WellFormed) (wellRight : right.WellFormed) :
    left.union right = .error e ↔ Refused left right e := by
  have merged : left.union right = .error e ↔
      (∃ name ours theirs, IsSmallest (left.TypeConflict right) name ours theirs ∧
        e = .incompatibleTypes name ours theirs) ∨
      (∀ name ours theirs, ¬ left.TypeConflict right name ours theirs) ∧
        ((∃ name ours theirs, IsSmallest (left.DefaultConflict right) name ours theirs ∧
          e = .incompatibleDefaults name ours theirs) ∨
        (∀ name ours theirs, ¬ left.DefaultConflict right name ours theirs) ∧
          ∃ name ours theirs, IsSmallest (left.DescriptionConflict right) name ours theirs ∧
            e = .incompatibleDescriptions name ours theirs) := by
    simp only [union, bind_eq_error, NameMap.mergeAgreeing_eq_error, pure_eq, reduceCtorEq, and_false,
      exists_false, or_false, exists_and_right, NameMap.mergeAgreeing_succeeds_iff,
      clash_types_eq wellLeft wellRight, clash_defaults_eq wellLeft wellRight, clash_descriptions_eq]
  rw [merged]
  constructor
  · rintro (⟨name, ours, theirs, first, rfl⟩ | ⟨sameTypes, ⟨name, ours, theirs, first, rfl⟩ |
      ⟨sameDefaults, name, ours, theirs, first, rfl⟩⟩)
    · exact .types first
    · exact .defaults sameTypes first
    · exact .descriptions sameTypes sameDefaults first
  · rintro (first | ⟨sameTypes, first⟩ | ⟨sameTypes, sameDefaults, first⟩)
    · exact .inl ⟨_, _, _, first, rfl⟩
    · exact .inr ⟨sameTypes, .inl ⟨_, _, _, first, rfl⟩⟩
    · exact .inr ⟨sameTypes, .inr ⟨sameDefaults, _, _, _, first, rfl⟩⟩

/-- Sets without a conflict have a union. -/
theorem exists_union_iff (wellLeft : left.WellFormed) (wellRight : right.WellFormed) :
    (∃ united, left.union right = .ok united) ↔
      (∀ name ours theirs, ¬ left.TypeConflict right name ours theirs) ∧
      (∀ name ours theirs, ¬ left.DefaultConflict right name ours theirs) ∧
      ∀ name ours theirs, ¬ left.DescriptionConflict right name ours theirs := by
  simp only [union_eq_ok, exists_and_left, exists_eq, and_true, ← clash_types_eq wellLeft wellRight,
    ← clash_defaults_eq wellLeft wellRight, ← clash_descriptions_eq, NameMap.forall_not_clash_iff, agrees_iff,
    NameMap.Agree, beq_iff_eq]

/-! ## Successful unions -/

/-- What the union of two sets holds.  Literals of the right set win, lists follow each other,
an index keeps of its choices those that both sets offer, if both offer any, in the one order
they have. -/
structure Unites (left right united : ParameterSet) : Prop where
  literal : ∀ name, united.literal.get? name = (right.literal.get? name).or (left.literal.get? name)
  free : united.free = left.free ++ right.free
  tables : united.tables = left.tables ++ right.tables
  tables2d : united.tables2d = left.tables2d ++ right.tables2d
  bothChoices : ∀ name ours theirs, left.choices.get? name = some ours →
    right.choices.get? name = some theirs →
      ∃ both, united.choices.get? name = some (ChoiceOrder.sort both) ∧ both.Nodup ∧
        ∀ c, c ∈ both ↔ c ∈ ours ∧ c ∈ theirs
  leftChoices : ∀ name, right.choices.get? name = none →
    united.choices.get? name = left.choices.get? name
  rightChoices : ∀ name, left.choices.get? name = none →
    united.choices.get? name = right.choices.get? name
  common : united.common = none

theorem unites_joined (wellLeft : left.WellFormed) (wellRight : right.WellFormed) :
    left.Unites right (left.joined right) where
  literal := NameMap.get?_overlay left.literal right.literal
  free := rfl
  tables := rfl
  tables2d := rfl
  bothChoices := by
    intro name ours theirs inLeft inRight
    have merged : (left.joined right).choices.get? name = some (narrowed (some ours) theirs) := by
      simp only [joined, get?_mergeChoices, inLeft, inRight, Option.map_some, Option.some_or]
    refine ⟨ours.filter (· ∈ theirs), merged, (wellLeft.choices name ours inLeft).nodup.filter _, ?_⟩
    intro c
    simp only [List.mem_filter, decide_eq_true_eq]
  leftChoices := by
    intro name absent
    simp only [joined, get?_mergeChoices, absent, Option.map_none, Option.none_or]
  rightChoices := by
    intro name absent
    simp only [joined, get?_mergeChoices, absent, Option.or_none]
    cases inRight : right.choices.get? name with
    | none => rfl
    | some theirs =>
        -- Sorting what is sorted already changes nothing.
        exact congrArg some (wellRight.choices name theirs inRight).sorted
  common := rfl

/-- **When two sets have a union, and why not.**  They have none exactly if a parameter of both
has different types, or a parameter free in both has different defaults, or both describe a
parameter differently.  The error is then about the first of these kinds that there is, and
about the smallest name in conflict; a union that there is holds what both sides have. -/
theorem union_decided (reachLeft : Reachable left) (reachRight : Reachable right) :
    ((∃ e, left.union right = .error e) ↔
      (∃ name ours theirs, left.TypeConflict right name ours theirs) ∨
      (∃ name ours theirs, left.DefaultConflict right name ours theirs) ∨
      ∃ name ours theirs, left.DescriptionConflict right name ours theirs) ∧
    (∀ e, left.union right = .error e ↔ Refused left right e) ∧
    ∀ united, left.union right = .ok united → left.Unites right united := by
  have wellLeft := reachLeft.wellFormed
  have wellRight := reachRight.wellFormed
  refine ⟨?_, fun e => union_eq_error wellLeft wellRight, ?_⟩
  · rw [← not_iff_not, ← exists_eq_ok_iff, exists_union_iff wellLeft wellRight]
    simp only [not_or, not_exists]
  · intro united joined
    rw [(union_eq_ok.1 joined).2]
    exact unites_joined wellLeft wellRight

namespace Example

/-- A base that has a screw's size, collar and diameter for something else. -/
def rivalNode : Node := mapping [
  ("literal", mapping [("d", .str "1")]),
  ("free", texts ["size", "collar"]),
  ("types", mapping [("size", .str "String"), ("d", .str "Length (in)"), ("collar", .str "Number")])]

def rival : ParameterSet := result (ofNode rivalNode)

theorem read_rival : ofNode rivalNode = .ok rival := eq_ok_result (by decide)

end Example

/-- Of three types and a default in conflict, the type of the smallest name is reported; the
screw's own base has its union. -/
theorem union_decided_rival :
    Example.screw.union Example.rival = .error (.incompatibleTypes "collar" .bool .number) ∧
      Refused Example.screw Example.rival (.incompatibleTypes "collar" .bool .number) ∧
      Example.screw.DefaultConflict Example.rival "collar" (.bool false) (.number (Binary64.ofInt 1)) ∧
      Example.screw.Unites Example.base Example.united := by
  have refused : Example.screw.union Example.rival = .error (.incompatibleTypes "collar" .bool .number) :=
    error?_eq_some.1 (by decide +kernel)
  have why := (union_decided (.read Example.read_screw) (.read Example.read_rival)).2.1
  have united := (union_decided (.read Example.read_screw) (.read Example.read_base)).2.2
  refine ⟨refused, (why _).1 refused, ?_, united _ Example.union_screw_base⟩
  exact ⟨by decide +kernel, by decide +kernel, by decide +kernel, by decide +kernel⟩

end ParameterSet

end PartCatalog
