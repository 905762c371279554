/-
# Class positions -- where each class of some collections stands

`Collection.positioned` lists every class with its position, once each
(`nodup_positions`) and in the order of the classes (`map_snd_positioned`); an entry is in
it exactly when the class is found at the position (`mem_positioned_iff`).  What is looked
for from front to back is found in the first collection that has it
(`collection_of_find?`).  Changing the class at one position changes one entry of the list
(`positioned_modifyAt`).
-/
import Mathlib.Data.List.Nodup
import PartCatalog.Repository.Basic

set_option autoImplicit false

/-! ## Lists -/

namespace List

variable {α β : Type}

/-- What a search finds first is what it finds in the first element that has it. -/
theorem findSome?_eq_bind_find? (f : α → Option β) (xs : List α) :
    xs.findSome? f = (xs.find? fun x => (f x).isSome).bind f := by
  induction xs with
  | nil => rfl
  | cons x xs ih =>
      rw [findSome?_cons, find?_cons]
      cases found : f x with
      | none => exact ih
      | some y => exact found.symm

theorem map_of_fixed {f : α → α} {xs : List α} (fixed : ∀ x ∈ xs, f x = x) : xs.map f = xs :=
  (map_congr_left fixed).trans (map_id xs)

/-- An element that is changed in its place keeps the place. -/
theorem zipIdx_modify (f : α → α) (xs : List α) (n start : Nat) :
    (xs.modify n f).zipIdx start =
      (xs.zipIdx start).map fun e => (if e.2 = start + n then f e.1 else e.1, e.2) := by
  induction xs generalizing n start with
  | nil => simp
  | cons x xs ih =>
      cases n with
      | zero =>
          -- Every later place is past the one that is changed.
          have later : ∀ e ∈ xs.zipIdx (start + 1), ¬ e.2 = start := by
            intro e member same
            have below := le_snd_of_mem_zipIdx member
            omega
          have kept : (xs.zipIdx (start + 1)).map (fun e => (if e.2 = start then f e.1 else e.1, e.2)) =
              xs.zipIdx (start + 1) := by
            apply map_of_fixed
            intro e member
            simp [later e member]
          simp [zipIdx_cons, kept]
      | succ n =>
          have shifted : start + 1 + n = start + (n + 1) := by omega
          simp [zipIdx_cons, ih n (start + 1), shifted]

/-- What does not see a change does not see it in a list. -/
theorem map_modify_of_blind {f : α → α} {g : α → β} (blind : ∀ x, g (f x) = g x)
    (xs : List α) (n : Nat) : (xs.modify n f).map g = xs.map g := by
  apply ext_getElem?
  intro i
  rw [getElem?_map, getElem?_map, getElem?_modify]
  cases xs[i]? with
  | none => rfl
  | some x => by_cases here : n = i <;> simp [here, blind]

end List

namespace PartCatalog.Collection

variable {collections : List Collection} {position : ClassPosition} {c : PartClass}

/-! ## The list of positions -/

theorem mem_positioned_iff :
    (position, c) ∈ positioned collections ↔ classAt? collections position = some c := by
  obtain ⟨i, j⟩ := position
  simp only [positioned, classAt?, List.mem_flatMap, List.mem_map, Prod.exists, Prod.mk.injEq,
    ClassPosition.mk.injEq, List.mem_zipIdx_iff_getElem?, Option.bind_eq_some_iff]
  constructor
  · rintro ⟨coll, i', isCollection, k, j', isClass, ⟨rfl, rfl⟩, rfl⟩
    exact ⟨coll, isCollection, isClass⟩
  · rintro ⟨coll, isCollection, isClass⟩
    exact ⟨coll, i, isCollection, c, j, isClass, ⟨rfl, rfl⟩, rfl⟩

/-- The classes of one collection, each with its position. -/
theorem map_snd_places (coll : Collection) (i : Nat) :
    (coll.classes.zipIdx.map fun (k, j) => ((⟨i, j⟩ : ClassPosition), k)).map (·.2) = coll.classes := by
  rw [List.map_map]
  exact List.zipIdx_map_fst 0 coll.classes

theorem map_snd_positioned (collections : List Collection) :
    (positioned collections).map (·.2) = allClasses collections := by
  rw [positioned, allClasses, List.map_flatMap]
  simp only [map_snd_places]
  conv_rhs => rw [← List.zipIdx_map_fst 0 collections, List.flatMap_map]

theorem allClasses_mapClasses (f : PartClass → PartClass) (collections : List Collection) :
    allClasses (collections.map (mapClasses f)) = (allClasses collections).map f := by
  simp only [allClasses, mapClasses, List.flatMap_map, List.map_flatMap]

theorem mem_allClasses_iff :
    c ∈ allClasses collections ↔ ∃ position, classAt? collections position = some c := by
  rw [← map_snd_positioned, List.mem_map]
  constructor
  · rintro ⟨⟨position, k⟩, member, rfl⟩
    exact ⟨position, mem_positioned_iff.1 member⟩
  · rintro ⟨position, found⟩
    exact ⟨(position, c), mem_positioned_iff.2 found, rfl⟩

/-- No position is listed twice. -/
theorem nodup_positions (collections : List Collection) :
    ((positioned collections).map (·.1)).Nodup := by
  have places : ∀ {α : Type} (xs : List α), xs.zipIdx.Pairwise fun a b => a.2 ≠ b.2 := by
    intro α xs
    apply List.pairwise_map.1
    rw [List.zipIdx_map_snd]
    exact List.nodup_range'
  apply List.pairwise_map.2
  rw [positioned, List.pairwise_flatMap]
  constructor
  · rintro ⟨coll, i⟩ -
    apply List.pairwise_map.2
    refine (places coll.classes).imp fun {a b} different same => ?_
    exact different (congrArg ClassPosition.index same)
  · refine (places collections).imp fun {a b} different x inLeft y inRight same => ?_
    obtain ⟨e, -, rfl⟩ := List.mem_map.1 inLeft
    obtain ⟨f, -, rfl⟩ := List.mem_map.1 inRight
    exact different (congrArg ClassPosition.collection same)

/-! ## Searching -/

/-- The collection in which a class is found first is the first that has one to be found. -/
theorem collection_of_find? (p : PartClass → Bool) (collections : List Collection) :
    ((positioned collections).find? (p ·.2)).bind (fun e => collections[e.1.collection]?) =
      collections.find? (·.classes.any p) := by
  have has : ∀ e : Collection × Nat,
      ((e.1.classes.zipIdx.map fun (k, j) => ((⟨e.2, j⟩ : ClassPosition), k)).find? (p ·.2)).isSome =
        e.1.classes.any p := by
    intro e
    conv_rhs => rw [← map_snd_places e.1 e.2, List.any_map]
    rw [Bool.eq_iff_iff, List.find?_isSome, List.any_eq_true]
    rfl
  have first : collections.find? (·.classes.any p) =
      (collections.zipIdx.find? fun e => e.1.classes.any p).map Prod.fst := by
    conv_lhs => rw [← List.zipIdx_map_fst 0 collections, List.find?_map]
    rfl
  rw [positioned, List.find?_flatMap, List.findSome?_eq_bind_find?, Option.bind_assoc, first]
  simp only [has]
  cases isFirst : collections.zipIdx.find? fun e => e.1.classes.any p with
  | none => rfl
  | some e =>
      have isThere : collections[e.2]? = some e.1 :=
        List.mem_zipIdx_iff_getElem?.1 (List.mem_of_find?_eq_some isFirst)
      have hasOne := List.find?_some isFirst
      obtain ⟨entry, found⟩ := Option.isSome_iff_exists.1 ((has e).trans hasOne)
      obtain ⟨place, -, rfl⟩ := List.mem_map.1 (List.mem_of_find?_eq_some found)
      rw [Option.bind_some, found]
      exact isThere

/-- The class that is found first is the first to be found in that collection. -/
theorem find?_allClasses (p : PartClass → Bool) (collections : List Collection) :
    (allClasses collections).find? p =
      (collections.find? (·.classes.any p)).bind (·.classes.find? p) := by
  have has : ∀ c : Collection, (c.classes.find? p).isSome = c.classes.any p := by
    intro c
    rw [Bool.eq_iff_iff, List.find?_isSome, List.any_eq_true]
  rw [allClasses, List.find?_flatMap, List.findSome?_eq_bind_find?]
  simp only [has]

/-- Found in the list of positions is found in the list of classes. -/
theorem class_of_find? (p : PartClass → Bool) (collections : List Collection) :
    ((positioned collections).find? (p ·.2)).map (·.2) = (allClasses collections).find? p := by
  rw [← map_snd_positioned, List.find?_map]
  rfl

/-! ## Changing a class -/

/-- A change at one position is a change of one entry. -/
theorem positioned_modifyAt (f : PartClass → PartClass) (collections : List Collection)
    (position : ClassPosition) :
    positioned (modifyAt collections position f) =
      (positioned collections).map fun e => (e.1, if e.1 = position then f e.2 else e.2) := by
  obtain ⟨i, j⟩ := position
  rw [positioned, modifyAt, List.zipIdx_modify, List.flatMap_map, positioned, List.map_flatMap]
  apply List.flatMap_congr
  rintro ⟨coll, i'⟩ -
  by_cases here : i' = i
  · subst here
    simp [List.zipIdx_modify]
  · simp [here]

end PartCatalog.Collection
