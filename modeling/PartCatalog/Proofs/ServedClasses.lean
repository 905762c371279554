/-
# Served classes -- the base that a class id leads to

A catalogue is `Indexed` if no id is listed twice by its bases and each id is entered with
the position of the base that lists it.  Adding a base succeeds exactly when its ids are new
and all different, and keeps the catalogue indexed; so adding bases one after the other
gives the one indexed catalogue of them, if there is one (`Indexed.insertAll_eq_ok`).  For
its users that means that the look-up of an id is the inverse of the lists of the bases
(`WellServed`, `wellServed_iff_indexed`), and loading succeeds exactly when every directory
can be read and the bases found there make up such a catalogue (`load_eq_ok_iff`).
-/
import Mathlib.Data.List.Nodup
import PartCatalog.BaseCatalog
import PartCatalog.Proofs.NameMapLaws
import PartCatalog.Proofs.Outcome

set_option autoImplicit false

namespace PartCatalog.BaseCatalog

open Outcome

/-- The class ids that bases list, in order. -/
def listedIds (bases : List Base) : List String := bases.flatMap (·.classIds)

@[simp] theorem listedIds_append (bases more : List Base) :
    listedIds (bases ++ more) = listedIds bases ++ listedIds more :=
  List.flatMap_append

@[simp] theorem listedIds_singleton (base : Base) : listedIds [base] = base.classIds :=
  List.flatMap_singleton _ _

theorem mem_listedIds {bases : List Base} {id : String} :
    id ∈ listedIds bases ↔ ∃ base ∈ bases, id ∈ base.classIds :=
  List.mem_flatMap

/-! ## Adding a base -/

/-- The entries of a base at a position. -/
def idEntries (position : Nat) (ids : List String) : List (String × Nat) :=
  ids.map fun id => (id, position)

/-- Ids can be entered if they are all different and none has an entry. -/
theorem assignIds_eq_ok {position : Nat} {byClass byClass' : NameMap Nat} {ids : List String} :
    assignIds position byClass ids = .ok byClass' ↔
      (ids.Nodup ∧ ∀ id ∈ ids, id ∉ byClass.keys) ∧ byClass' = byClass.insertAll (idEntries position ids) := by
  induction ids generalizing byClass with
  | nil => simp [assignIds, idEntries, NameMap.insertAll, eq_comm]
  | cons id ids ih =>
      have entered : byClass.insertAll (idEntries position (id :: ids)) =
          (byClass.insert id position).insertAll (idEntries position ids) := rfl
      rw [assignIds, entered, List.nodup_cons, List.forall_mem_cons]
      split
      · next known =>
        have isKey := NameMap.contains_iff.1 known
        simp [isKey]
      · next unknown =>
        have isNew := mt NameMap.contains_iff.2 unknown
        -- None of the later ids is this one or has an entry already.
        have later : (∀ other ∈ ids, other ∉ (byClass.insert id position).keys) ↔
            id ∉ ids ∧ ∀ other ∈ ids, other ∉ byClass.keys := by
          simp only [NameMap.mem_keys_insert, not_or]
          constructor
          · intro apart
            exact ⟨fun member => (apart id member).1 rfl, fun other member => (apart other member).2⟩
          · rintro ⟨absent, apart⟩ other member
            exact ⟨fun same => absent (same ▸ member), apart other member⟩
        rw [ih, later]
        tauto

/-- The catalogue with one more base, its ids entered for it. -/
def withBase (catalog : BaseCatalog) (base : Base) : BaseCatalog :=
  ⟨catalog.bases ++ [base],
    catalog.byClass.insertAll (idEntries catalog.bases.length base.classIds)⟩

/-- A base can be added if its ids are all different and none has an entry. -/
theorem insert_eq_ok {catalog catalog' : BaseCatalog} {base : Base} :
    catalog.insert base = .ok catalog' ↔
      (base.classIds.Nodup ∧ ∀ id ∈ base.classIds, id ∉ catalog.byClass.keys) ∧
        catalog' = catalog.withBase base := by
  unfold insert
  cases entered : assignIds catalog.bases.length catalog.byClass base.classIds with
  | ok byClass =>
      obtain ⟨fresh, rfl⟩ := assignIds_eq_ok.1 entered
      constructor
      · intro run
        cases run
        exact ⟨fresh, rfl⟩
      · rintro ⟨-, rfl⟩
        rfl
  | error id =>
      have refused : ¬ (base.classIds.Nodup ∧ ∀ id ∈ base.classIds, id ∉ catalog.byClass.keys) := by
        intro fresh
        rw [assignIds_eq_ok.2 ⟨fresh, rfl⟩] at entered
        cases entered
      simp only [refused, false_and, iff_false]
      intro run
      cases run

theorem get?_byClass_withBase (catalog : BaseCatalog) (base : Base) (id : String) :
    (catalog.withBase base).byClass.get? id =
      if id ∈ base.classIds then some catalog.bases.length else catalog.byClass.get? id := by
  have last : NameMap.lastEntry id (idEntries catalog.bases.length base.classIds) =
      if id ∈ base.classIds then some catalog.bases.length else none := by
    generalize base.classIds = ids
    induction ids with
    | nil => rfl
    | cons other ids ih =>
        rw [idEntries, List.map_cons, NameMap.lastEntry]
        change (NameMap.lastEntry id (idEntries _ ids)).or _ = _
        rw [ih]
        by_cases inRest : id ∈ ids <;> simp [inRest, eq_comm]
  rw [withBase, NameMap.get?_insertAll, last]
  split <;> simp

/-! ## Indexed catalogues -/

/-- Whether no id is listed twice, and each has the position of the base that lists it. -/
structure Indexed (catalog : BaseCatalog) : Prop where
  nodup : (listedIds catalog.bases).Nodup
  get?_byClass : ∀ id position, catalog.byClass.get? id = some position ↔
    ∃ base, catalog.bases[position]? = some base ∧ id ∈ base.classIds

theorem indexed_empty : empty.Indexed where
  nodup := .nil
  get?_byClass := by simp [empty]

section Indexed

variable {catalog catalog' : BaseCatalog} {base : Base}

theorem Indexed.mem_keys_iff (indexed : catalog.Indexed) {id : String} :
    id ∈ catalog.byClass.keys ↔ id ∈ listedIds catalog.bases := by
  rw [NameMap.mem_keys_iff, mem_listedIds]
  simp only [indexed.get?_byClass, List.mem_iff_getElem?]
  constructor
  · rintro ⟨position, base, isBase, listed⟩
    exact ⟨base, ⟨position, isBase⟩, listed⟩
  · rintro ⟨base, ⟨position, isBase⟩, listed⟩
    exact ⟨position, base, isBase, listed⟩

/-- The bases determine an indexed catalogue. -/
theorem Indexed.eq_of_bases (indexed : catalog.Indexed) (indexed' : catalog'.Indexed)
    (same : catalog.bases = catalog'.bases) : catalog = catalog' := by
  have sameIndex : catalog.byClass = catalog'.byClass := by
    refine NameMap.ext_get? fun id => Option.ext fun position => ?_
    rw [indexed.get?_byClass, indexed'.get?_byClass, same]
  cases catalog
  cases catalog'
  simp only at same sameIndex
  rw [same, sameIndex]

/-- The ids of a base are new just where the ids of all bases are still different. -/
theorem Indexed.fresh_iff (indexed : catalog.Indexed) :
    (base.classIds.Nodup ∧ ∀ id ∈ base.classIds, id ∉ catalog.byClass.keys) ↔
      (listedIds (catalog.bases ++ [base])).Nodup := by
  rw [listedIds_append, listedIds_singleton, List.nodup_append']
  simp only [indexed.nodup, true_and, indexed.mem_keys_iff, List.disjoint_right]

theorem Indexed.withBase (indexed : catalog.Indexed)
    (nodup : (listedIds (catalog.bases ++ [base])).Nodup) : (catalog.withBase base).Indexed where
  nodup := nodup
  get?_byClass := by
    intro id position
    have isNew := (indexed.fresh_iff.2 nodup).2 id
    rw [get?_byClass_withBase]
    -- The new base stands behind all others, so no other position changes.
    have placed : ∀ other, (catalog.withBase base).bases[position]? = some other ↔
        catalog.bases[position]? = some other ∨ position = catalog.bases.length ∧ base = other := by
      intro other
      simp only [BaseCatalog.withBase, List.getElem?_append, List.getElem?_singleton]
      grind
    simp only [placed, or_and_right, exists_or, ← indexed.get?_byClass]
    split
    · next listed =>
      have absent := NameMap.get?_eq_none_iff.2 (isNew listed)
      simp [absent, listed, eq_comm]
    · next unlisted => simp [unlisted]

/-- **Adding bases gives the indexed catalogue of all of them**, and fails if there is none. -/
theorem Indexed.insertAll_eq_ok (indexed : catalog.Indexed) {bases : List Base} :
    catalog.insertAll bases = .ok catalog' ↔
      catalog'.bases = catalog.bases ++ bases ∧ catalog'.Indexed := by
  induction bases generalizing catalog with
  | nil =>
      rw [List.append_nil]
      constructor
      · intro run
        cases run
        exact ⟨rfl, indexed⟩
      · rintro ⟨same, indexed'⟩
        exact congrArg Except.ok (indexed.eq_of_bases indexed' same.symm)
  | cons base bases ih =>
      have step : catalog.insertAll (base :: bases) = catalog.insert base >>= (·.insertAll bases) := rfl
      rw [step, bind_eq_ok]
      constructor
      · rintro ⟨mid, added, run⟩
        obtain ⟨fresh, rfl⟩ := insert_eq_ok.1 added
        obtain ⟨all, indexed'⟩ := (ih (indexed.withBase (indexed.fresh_iff.1 fresh))).1 run
        exact ⟨by rw [all, BaseCatalog.withBase, List.append_assoc, List.singleton_append], indexed'⟩
      · rintro ⟨all, indexed'⟩
        have split : catalog'.bases = (catalog.bases ++ [base]) ++ bases := by
          rw [all, List.append_assoc, List.singleton_append]
        have nodup : (listedIds (catalog.bases ++ [base])).Nodup := by
          have every := indexed'.nodup
          rw [split, listedIds_append] at every
          exact every.of_append_left
        exact ⟨_, insert_eq_ok.2 ⟨indexed.fresh_iff.2 nodup, rfl⟩,
          (ih (indexed.withBase nodup)).2 ⟨split, indexed'⟩⟩

end Indexed

/-! ## Loading -/

/-- The bases of all directories, added in order. -/
theorem foldlM_insertAll_eq_ok {read : String → Load.Result (List Base)} {names : List String}
    {catalog catalog' : BaseCatalog} :
    (names.foldlM (fun catalog name => do
        let bases ← read name
        catalog.insertAll bases) catalog) = .ok catalog' ↔
      ∃ batches, List.Forall₂ (fun name bases => read name = .ok bases) names batches ∧
        catalog.insertAll batches.flatten = .ok catalog' := by
  induction names generalizing catalog with
  | nil => simp [insertAll]
  | cons name names ih =>
      simp only [List.foldlM_cons, bind_eq_ok, ih, List.forall₂_cons_left_iff]
      constructor
      · rintro ⟨mid, ⟨bases, isRead, added⟩, batches, areRead, run⟩
        refine ⟨_, ⟨bases, batches, isRead, areRead, rfl⟩, ?_⟩
        rw [List.flatten_cons, insertAll, List.foldlM_append]
        exact bind_eq_ok.2 ⟨mid, added, run⟩
      · rintro ⟨_, ⟨bases, batches, isRead, areRead, rfl⟩, run⟩
        rw [List.flatten_cons, insertAll, List.foldlM_append] at run
        obtain ⟨mid, added, run⟩ := bind_eq_ok.1 run
        exact ⟨mid, ⟨bases, isRead, added⟩, batches, areRead, run⟩

/-- What users of a catalogue can rely on.  No id is listed at two positions or twice by one
base, the look-up of an id finds the base that lists it, and every position that is kept is
one of a base. -/
structure WellServed (catalog : BaseCatalog) : Prop where
  onePosition : ∀ (i j : Nat) (base other : Base) (id : String),
    catalog.bases[i]? = some base → catalog.bases[j]? = some other →
      id ∈ base.classIds → id ∈ other.classIds → i = j
  oneMention : ∀ base ∈ catalog.bases, base.classIds.Nodup
  baseFor? : ∀ id base, catalog.baseFor? id = some base ↔ base ∈ catalog.bases ∧ id ∈ base.classIds
  noBase : ∀ id, catalog.baseFor? id = none ↔ ∀ base ∈ catalog.bases, id ∉ base.classIds
  inRange : ∀ id position, catalog.byClass.get? id = some position → position < catalog.bases.length

theorem nodup_listedIds_iff {bases : List Base} :
    (listedIds bases).Nodup ↔ (∀ base ∈ bases, base.classIds.Nodup) ∧
      ∀ (i j : Nat) (base other : Base) (id : String), bases[i]? = some base → bases[j]? = some other →
        id ∈ base.classIds → id ∈ other.classIds → i = j := by
  rw [listedIds, List.nodup_flatMap]
  refine and_congr_right fun _ => ?_
  rw [List.pairwise_iff_getElem]
  constructor
  · intro apart i j base other id isBase isOther listed listed'
    obtain ⟨inRange, rfl⟩ := List.getElem?_eq_some_iff.1 isBase
    obtain ⟨inRange', rfl⟩ := List.getElem?_eq_some_iff.1 isOther
    rcases Nat.lt_trichotomy i j with before | same | after
    · exact absurd listed' (apart i j inRange inRange' before listed)
    · exact same
    · exact absurd listed (apart j i inRange' inRange after listed')
  · intro onePosition i j inRange inRange' before id listed listed'
    have same := onePosition i j _ _ id (List.getElem?_eq_getElem inRange)
      (List.getElem?_eq_getElem inRange') listed listed'
    omega

theorem Indexed.baseFor?_eq_some_iff {catalog : BaseCatalog} (indexed : catalog.Indexed) {id : String}
    {base : Base} : catalog.baseFor? id = some base ↔ base ∈ catalog.bases ∧ id ∈ base.classIds := by
  have onePosition := (nodup_listedIds_iff.1 indexed.nodup).2
  simp only [BaseCatalog.baseFor?, Option.bind_eq_some_iff, indexed.get?_byClass, List.mem_iff_getElem?]
  constructor
  · rintro ⟨position, ⟨other, isOther, listed⟩, isBase⟩
    obtain rfl : other = base := Option.some.inj (isOther.symm.trans isBase)
    exact ⟨⟨position, isBase⟩, listed⟩
  · rintro ⟨⟨position, isBase⟩, listed⟩
    exact ⟨position, ⟨base, isBase, listed⟩, isBase⟩

theorem Indexed.wellServed {catalog : BaseCatalog} (indexed : catalog.Indexed) : catalog.WellServed where
  onePosition := (nodup_listedIds_iff.1 indexed.nodup).2
  oneMention := (nodup_listedIds_iff.1 indexed.nodup).1
  baseFor? := fun _ _ => indexed.baseFor?_eq_some_iff
  noBase := by
    intro id
    rw [Option.eq_none_iff_forall_ne_some]
    simp only [Ne, indexed.baseFor?_eq_some_iff, not_and]
  inRange := by
    intro id position found
    obtain ⟨base, isBase, -⟩ := (indexed.get?_byClass id position).1 found
    exact (List.getElem?_eq_some_iff.1 isBase).1

theorem wellServed_iff_indexed {catalog : BaseCatalog} : catalog.WellServed ↔ catalog.Indexed := by
  refine ⟨fun served => ⟨nodup_listedIds_iff.2 ⟨served.oneMention, served.onePosition⟩, ?_⟩,
    Indexed.wellServed⟩
  intro id position
  constructor
  · intro found
    have isBase := List.getElem?_eq_getElem (served.inRange id position found)
    refine ⟨_, isBase, ((served.baseFor? id _).1 ?_).2⟩
    rw [BaseCatalog.baseFor?, found]
    exact isBase
  · rintro ⟨base, isBase, listed⟩
    have answered := (served.baseFor? id base).2 ⟨List.mem_of_getElem? isBase, listed⟩
    obtain ⟨position', found, isBase'⟩ := Option.bind_eq_some_iff.1 answered
    rw [found, served.onePosition position' position base base id isBase' isBase listed listed]

/-- **Loading gives a catalogue exactly when it serves the bases of all directories well.** -/
theorem load_eq_ok_iff (tree : FileTree) (root : String) (catalog : BaseCatalog) :
    load tree root = .ok catalog ↔
      ∃ names batches, directories tree root = .ok names ∧
        List.Forall₂ (fun name bases => readDirectory tree root name = .ok bases) names batches ∧
        catalog.bases = batches.flatten ∧ catalog.WellServed := by
  simp only [load, bind_eq_ok, foldlM_insertAll_eq_ok, indexed_empty.insertAll_eq_ok,
    wellServed_iff_indexed]
  simp only [empty, List.nil_append, exists_and_left]

end PartCatalog.BaseCatalog
