/-
# Laws of unions -- what a union of two parameter sets is made of

Types, defaults and descriptions are merged only where both sets agree, and a merge
that succeeds is the overlay of the two maps (`mergeAgreeing_eq_ok`).  Choices that both
sets have are narrowed to the shared ones, the others stay (`get?_mergeChoices`).
`union_eq_ok` puts this together: it names every field of a union.
-/
import PartCatalog.ParameterSet.Union
import PartCatalog.Proofs.ChoiceLaws
import PartCatalog.Proofs.Outcome

set_option autoImplicit false

namespace PartCatalog

open Outcome

/-! ## Merging what agrees -/

namespace NameMap

variable {α ε : Type} {samePayload : α → α → Bool} {conflict : String → α → α → ε}

/-- Lay one entry over a map that has nothing else under its name. -/
def mergeEntry (samePayload : α → α → Bool) (conflict : String → α → α → ε)
    (merged : NameMap α) (entry : String × α) : Except ε (NameMap α) :=
  match merged.get? entry.1 with
  | some ours =>
    if samePayload ours entry.2 then .ok (merged.insert entry.1 entry.2)
    else .error (conflict entry.1 ours entry.2)
  | none => .ok (merged.insert entry.1 entry.2)

theorem mergeAgreeing_eq (left right : NameMap α) :
    left.mergeAgreeing samePayload conflict right =
      right.entries.foldlM (mergeEntry samePayload conflict) left := rfl

theorem mergeEntry_eq_ok {left merged : NameMap α} {entry : String × α} :
    mergeEntry samePayload conflict left entry = .ok merged ↔
      (∀ ours, left.get? entry.1 = some ours → samePayload ours entry.2 = true) ∧
        merged = left.insert entry.1 entry.2 := by
  unfold mergeEntry
  split
  · next ours found =>
    split
    · next same =>
      simp only [found, Option.some.injEq, forall_eq', same, true_and, Except.ok.injEq]
      exact eq_comm
    · next differs => simp [found, differs]
  · next absent =>
    simp only [absent, reduceCtorEq, false_implies, implies_true, true_and, Except.ok.injEq]
    exact eq_comm

/-- Entries of different names do not see each other, so each is compared with the map
that the merge began with. -/
theorem foldlM_mergeEntry_eq_ok {es : List (String × α)} {left merged : NameMap α}
    (names : (es.map (·.1)).Nodup) :
    es.foldlM (mergeEntry samePayload conflict) left = .ok merged ↔
      (∀ e ∈ es, ∀ ours, left.get? e.1 = some ours → samePayload ours e.2 = true) ∧
        merged = left.insertAll es := by
  induction es generalizing left with
  | nil =>
      simp only [List.foldlM_nil, pure_eq, Except.ok.injEq, List.not_mem_nil, false_implies,
        implies_true, true_and]
      exact eq_comm
  | cons e es ih =>
      obtain ⟨fresh, names⟩ := List.nodup_cons.1 names
      have untouched : ∀ f ∈ es, (left.insert e.1 e.2).get? f.1 = left.get? f.1 := by
        intro f member
        rw [get?_insert, if_neg]
        intro same
        exact fresh (List.mem_map.2 ⟨f, member, same.symm⟩)
      simp only [List.foldlM_cons, bind_eq_ok, mergeEntry_eq_ok]
      constructor
      · rintro ⟨_, ⟨agrees, rfl⟩, run⟩
        obtain ⟨agree, result⟩ := (ih names).1 run
        refine ⟨fun f member => ?_, result⟩
        rcases List.mem_cons.1 member with rfl | member
        · exact agrees
        · exact untouched f member ▸ agree f member
      · rintro ⟨agree, result⟩
        refine ⟨_, ⟨agree e List.mem_cons_self, rfl⟩, (ih names).2 ⟨fun f member => ?_, result⟩⟩
        exact untouched f member ▸ agree f (List.mem_cons_of_mem _ member)

/-- A merge succeeds exactly where the maps agree on the names they share. -/
theorem mergeAgreeing_eq_ok {left right merged : NameMap α} :
    left.mergeAgreeing samePayload conflict right = .ok merged ↔
      (∀ name ours theirs, left.get? name = some ours → right.get? name = some theirs →
        samePayload ours theirs = true) ∧ merged = left.overlay right := by
  rw [mergeAgreeing_eq, foldlM_mergeEntry_eq_ok right.nodup_keys]
  refine and_congr_left fun _ => ⟨fun agree name ours theirs found found' => ?_, fun agree e member ours found => ?_⟩
  · exact agree (name, theirs) (mem_entries_iff.2 found') ours found
  · exact agree e.1 ours e.2 found (mem_entries_iff.1 member)

end NameMap

namespace ParameterSet

/-! ## Narrowing choices -/

/-- What a union makes of the choices of one index. -/
def narrowed (ours? : Option (List String)) (theirs : List String) : List String :=
  ChoiceOrder.sort <| match ours? with
    | some ours => ours.filter (· ∈ theirs)
    | none => theirs

theorem mem_narrowed {ours? : Option (List String)} {theirs : List String} {c : String} :
    c ∈ narrowed ours? theirs ↔ c ∈ theirs ∧ ∀ ours, ours? = some ours → c ∈ ours := by
  unfold narrowed
  rw [ChoiceOrder.mem_sort]
  cases ours? with
  | none => simp
  | some ours => simp [and_comm]

theorem nodup_narrowed {ours? : Option (List String)} {theirs : List String}
    (nodup : theirs.Nodup) (nodup' : ∀ ours, ours? = some ours → ours.Nodup) :
    (narrowed ours? theirs).Nodup := by
  unfold narrowed
  rw [(ChoiceOrder.sort_perm _).nodup_iff]
  cases ours? with
  | none => exact nodup
  | some ours => exact (nodup' ours rfl).filter _

theorem foldl_narrowed {es : List (String × List String)} {left : NameMap (List String)}
    {name : String} (names : (es.map (·.1)).Nodup) :
    (es.foldl (fun choices e => choices.insert e.1 (narrowed (choices.get? e.1) e.2)) left).get? name =
      ((NameMap.lastEntry name es).map (narrowed (left.get? name))).or (left.get? name) := by
  induction es generalizing left with
  | nil => rfl
  | cons e es ih =>
      obtain ⟨fresh, names⟩ := List.nodup_cons.1 names
      rw [List.foldl_cons, ih names, NameMap.get?_insert, NameMap.lastEntry]
      by_cases hit : e.1 = name
      · subst hit
        simp [NameMap.lastEntry_eq_none_iff.2 fresh]
      · simp [hit]

/-- Choices of the right set narrow those of the left one; the others stay. -/
theorem get?_mergeChoices (left right : NameMap (List String)) (name : String) :
    (mergeChoices left right).get? name =
      ((right.get? name).map (narrowed (left.get? name))).or (left.get? name) := by
  have folded : mergeChoices left right =
      right.entries.foldl (fun choices e => choices.insert e.1 (narrowed (choices.get? e.1) e.2)) left := rfl
  rw [folded, foldl_narrowed right.nodup_keys, NameMap.lastEntry_entries]

/-! ## The fields of a union -/

/-- Whether two sets agree on every type, default and description they share. -/
structure Agrees (left right : ParameterSet) : Prop where
  types : ∀ name ours theirs, left.types.get? name = some ours → right.types.get? name = some theirs →
    ours = theirs
  defaults : ∀ name ours theirs, left.defaults.get? name = some ours →
    right.defaults.get? name = some theirs → ours.same theirs = true
  description : ∀ name ours theirs, left.description.get? name = some ours →
    right.description.get? name = some theirs → ours = theirs

/-- Both sets side by side, the right one over the left where they share a name. -/
def joined (left right : ParameterSet) : ParameterSet where
  literal := left.literal.overlay right.literal
  free := left.free ++ right.free
  tables := left.tables ++ right.tables
  tables2d := left.tables2d ++ right.tables2d
  types := left.types.overlay right.types
  description := left.description.overlay right.description
  defaults := left.defaults.overlay right.defaults
  choices := mergeChoices left.choices right.choices
  common := none
  parameters := left.parameters.union right.parameters

/-- Sets that agree have their two sides for a union, and others have none. -/
theorem union_eq_ok {left right united : ParameterSet} :
    left.union right = .ok united ↔ left.Agrees right ∧ united = left.joined right := by
  simp only [union, bind_eq_ok, NameMap.mergeAgreeing_eq_ok, pure_eq, Except.ok.injEq, beq_iff_eq]
  constructor
  · rintro ⟨types, ⟨agreeTypes, rfl⟩, defaults, ⟨agreeDefaults, rfl⟩, description,
      ⟨agreeDescription, rfl⟩, rfl⟩
    exact ⟨⟨agreeTypes, agreeDefaults, agreeDescription⟩, rfl⟩
  · rintro ⟨⟨agreeTypes, agreeDefaults, agreeDescription⟩, rfl⟩
    exact ⟨_, ⟨agreeTypes, rfl⟩, _, ⟨agreeDefaults, rfl⟩, _, ⟨agreeDescription, rfl⟩, rfl⟩

end ParameterSet

end PartCatalog
