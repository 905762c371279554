/-
# Repeated ids -- when the bases of a backend are refused, and what the error names

The ids of all bases are entered one after the other, and entering stops at the first id that
was entered before (`RepeatsFirst`, `insertAll_eq_error_iff`).  So where every directory can be
read, loading fails exactly if some id is listed twice, and only in this way
(`load_fails_for_repeated_iff`).  Two bases that list one id are such a case, be they in one file
or in two; one base that lists an id twice is another, although it takes the id from no other
base (`load_fails_for_repeated_refuted`).
-/
import PartCatalog.Proofs.LoadFailures
import PartCatalog.Proofs.ServedClasses

set_option autoImplicit false

namespace PartCatalog.BaseCatalog

open Outcome

variable {catalog : BaseCatalog} {base : Base} {bases : List Base} {id : String} {e : LoadError}

/-! ## Entering ids -/

/-- One id entered for the base at a position. -/
def assignId (position : Nat) (byClass : NameMap Nat) (id : String) : Except String (NameMap Nat) :=
  if byClass.contains id then .error id else .ok (byClass.insert id position)

theorem assignId_eq_error {position : Nat} {byClass : NameMap Nat} {other : String} :
    assignId position byClass other = .error id ↔ id ∈ byClass.keys ∧ other = id := by
  rw [← NameMap.contains_iff, assignId]
  split
  · next known =>
    constructor
    · intro fails
      cases fails
      exact ⟨known, rfl⟩
    · rintro ⟨-, rfl⟩
      rfl
  · next unknown =>
    constructor
    · intro fails
      cases fails
    · rintro ⟨known, rfl⟩
      exact absurd known unknown

theorem assignIds_eq_foldlM (position : Nat) (byClass : NameMap Nat) (ids : List String) :
    assignIds position byClass ids = ids.foldlM (assignId position) byClass := by
  induction ids generalizing byClass with
  | nil => rfl
  | cons id ids ih =>
      rw [assignIds, List.foldlM_cons, assignId]
      split
      · rfl
      · exact ih _

/-- Entering stops at the first id that has an entry, or stands before in the list. -/
theorem assignIds_eq_error {position : Nat} {byClass : NameMap Nat} {ids : List String} :
    assignIds position byClass ids = .error id ↔
      ∃ taken rest, ids = taken ++ id :: rest ∧ (taken.Nodup ∧ ∀ other ∈ taken, other ∉ byClass.keys) ∧
        (id ∈ taken ∨ id ∈ byClass.keys) := by
  have entered : ∀ taken, id ∈ (byClass.insertAll (idEntries position taken)).keys ↔
      id ∈ taken ∨ id ∈ byClass.keys := by
    intro taken
    simp [NameMap.mem_keys_insertAll, idEntries]
  rw [assignIds_eq_foldlM, foldlM_eq_error]
  simp only [← assignIds_eq_foldlM, assignIds_eq_ok, assignId_eq_error]
  constructor
  · rintro ⟨taken, _, rest, _, rfl, ⟨fresh, rfl⟩, known, rfl⟩
    exact ⟨taken, rest, rfl, fresh, (entered taken).1 known⟩
  · rintro ⟨taken, rest, rfl, fresh, known⟩
    exact ⟨taken, id, rest, _, rfl, ⟨fresh, rfl⟩, (entered taken).2 known, rfl⟩

/-- A base is refused for an id of it, and the error is placed in the base. -/
theorem insert_eq_error :
    catalog.insert base = .error e ↔
      ∃ id, assignIds catalog.bases.length catalog.byClass base.classIds = .error id ∧
        e = ⟨.nonUniqueBase id, [⟨.base, base.filename⟩]⟩ := by
  unfold insert
  cases assignIds catalog.bases.length catalog.byClass base.classIds with
  | ok byClass => simp
  | error id =>
      have placed : Load.within .base base.filename (Load.fail (.nonUniqueBase id) : Load.Result BaseCatalog) =
          .error ⟨.nonUniqueBase id, [⟨.base, base.filename⟩]⟩ := rfl
      simp only [placed, Except.error.injEq, exists_eq_left']
      exact eq_comm

/-! ## Entering bases -/

/-- Whether `id`, at its place in the list of `base`, is the first id of all lists that stands a
second time. -/
def RepeatsFirst (bases : List Base) (base : Base) (id : String) : Prop :=
  ∃ before after taken rest, bases = before ++ base :: after ∧ base.classIds = taken ++ id :: rest ∧
    (listedIds before ++ taken).Nodup ∧ id ∈ listedIds before ++ taken

/-- In an indexed catalogue the ids that have an entry are those that are listed. -/
theorem Indexed.assignIds_eq_error_iff (indexed : catalog.Indexed) {position : Nat} {ids : List String} :
    assignIds position catalog.byClass ids = .error id ↔
      ∃ taken rest, ids = taken ++ id :: rest ∧ (listedIds catalog.bases ++ taken).Nodup ∧
        id ∈ listedIds catalog.bases ++ taken := by
  simp only [assignIds_eq_error, indexed.mem_keys_iff, List.nodup_append', indexed.nodup, true_and,
    List.disjoint_right, List.mem_append, or_comm]

/-- Bases whose ids are all different can be added to others, if they are no ids of those. -/
theorem Indexed.exists_insertAll (indexed : catalog.Indexed)
    (nodup : (listedIds (catalog.bases ++ bases)).Nodup) :
    ∃ catalog', catalog.insertAll bases = .ok catalog' := by
  induction bases generalizing catalog with
  | nil => exact ⟨catalog, rfl⟩
  | cons base bases ih =>
      rw [← List.singleton_append, ← List.append_assoc] at nodup
      have one : (listedIds (catalog.bases ++ [base])).Nodup := by
        rw [listedIds_append] at nodup
        exact nodup.of_append_left
      obtain ⟨catalog', run⟩ := ih (indexed.withBase one) nodup
      exact ⟨catalog', bind_eq_ok.2 ⟨_, insert_eq_ok.2 ⟨indexed.fresh_iff.2 one, rfl⟩, run⟩⟩

/-- Bases can be added if no id is listed twice. -/
theorem exists_insertAll_iff :
    (∃ catalog, empty.insertAll bases = .ok catalog) ↔ (listedIds bases).Nodup := by
  constructor
  · rintro ⟨catalog, run⟩
    obtain ⟨same, indexed⟩ := indexed_empty.insertAll_eq_ok.1 run
    have nodup := indexed.nodup
    rwa [same] at nodup
  · exact indexed_empty.exists_insertAll

/-- **Bases are refused for the first id that repeats**, and for nothing else. -/
theorem insertAll_eq_error_iff :
    empty.insertAll bases = .error e ↔
      ∃ base id, RepeatsFirst bases base id ∧ e = ⟨.nonUniqueBase id, [⟨.base, base.filename⟩]⟩ := by
  rw [insertAll, foldlM_eq_error]
  constructor
  · rintro ⟨before, base, after, catalog, rfl, led, refused⟩
    obtain ⟨same, indexed⟩ := indexed_empty.insertAll_eq_ok.1 led
    obtain ⟨id, repeated, rfl⟩ := insert_eq_error.1 refused
    obtain ⟨taken, rest, split, nodup, listed⟩ := indexed.assignIds_eq_error_iff.1 repeated
    rw [show catalog.bases = before from same] at nodup listed
    exact ⟨base, id, ⟨before, after, taken, rest, rfl, split, nodup, listed⟩, rfl⟩
  · rintro ⟨base, id, ⟨before, after, taken, rest, rfl, split, nodup, listed⟩, rfl⟩
    -- The bases before have ids that are all different, so they make an indexed catalogue.
    obtain ⟨catalog, led⟩ := exists_insertAll_iff.2 nodup.of_append_left
    obtain ⟨same, indexed⟩ := indexed_empty.insertAll_eq_ok.1 led
    have same : catalog.bases = before := same
    rw [← same] at nodup listed
    refine ⟨before, base, after, catalog, rfl, led, insert_eq_error.2 ⟨id, ?_, rfl⟩⟩
    exact indexed.assignIds_eq_error_iff.2 ⟨taken, rest, split, nodup, listed⟩

/-- Whether two bases, at different positions, list one id. -/
def ClaimedByTwo (bases : List Base) : Prop :=
  ∃ (i j : Nat) (base other : Base) (id : String), bases[i]? = some base ∧ bases[j]? = some other ∧
    id ∈ base.classIds ∧ id ∈ other.classIds ∧ i ≠ j

/-- An id is listed twice by two bases or by one. -/
theorem not_nodup_listedIds_iff :
    ¬ (listedIds bases).Nodup ↔ ClaimedByTwo bases ∨ ∃ base ∈ bases, ¬ base.classIds.Nodup := by
  rw [nodup_listedIds_iff, not_and_or, or_comm]
  simp only [not_forall, exists_prop, ClaimedByTwo, Ne]

/-! ## Loading -/

section Loading

variable {tree : FileTree} {root : String} {names : List String} {batches : List (List Base)}

/-- Where every directory can be read, loading is entering the bases of all. -/
theorem load_eq_insertAll (listed : directories tree root = .ok names)
    (areRead : List.Forall₂ (fun name bases => readDirectory tree root name = .ok bases) names batches) :
    load tree root = empty.insertAll batches.flatten := by
  have run : load tree root = names.foldlM (addDirectory tree root) empty := by
    rw [load_eq, listed]
    rfl
  rw [run]
  clear run listed
  generalize empty = catalog
  induction areRead generalizing catalog with
  | nil => rfl
  | @cons name bases names batches isRead _ ih =>
      have added : addDirectory tree root catalog name = catalog.insertAll bases := by
        rw [addDirectory, isRead]
        rfl
      rw [List.foldlM_cons, List.flatten_cons, insertAll, List.foldlM_append, added]
      exact congrArg (catalog.insertAll bases >>= ·) (funext ih)

/-- Whether loading fails for a class id that is served already. -/
def FailsForRepeated (tree : FileTree) (root : String) : Prop :=
  ∃ e id, load tree root = .error e ∧ e.fault = .nonUniqueBase id

/-- **Loading bases that can be read.**  It fails exactly for the first id that is listed a
second time, and the error names that id and the base that lists it again.  There is such an id
exactly if two bases list one id or one base lists an id twice; so failing means that two bases
claim an id, unless all that is listed twice is listed twice by one base. -/
theorem load_fails_for_repeated_iff (listed : directories tree root = .ok names)
    (areRead : List.Forall₂ (fun name bases => readDirectory tree root name = .ok bases) names batches) :
    (∀ e, load tree root = .error e ↔ ∃ base id, RepeatsFirst batches.flatten base id ∧
        e = ⟨.nonUniqueBase id, [⟨.base, base.filename⟩]⟩) ∧
      (FailsForRepeated tree root ↔
        ClaimedByTwo batches.flatten ∨ ∃ base ∈ batches.flatten, ¬ base.classIds.Nodup) ∧
      ((FailsForRepeated tree root ↔ ClaimedByTwo batches.flatten) ↔
        ClaimedByTwo batches.flatten ∨ ∀ base ∈ batches.flatten, base.classIds.Nodup) := by
  have same := load_eq_insertAll listed areRead
  have errors : ∀ e, load tree root = .error e ↔ ∃ base id, RepeatsFirst batches.flatten base id ∧
      e = ⟨.nonUniqueBase id, [⟨.base, base.filename⟩]⟩ := fun e => by
    rw [same, insertAll_eq_error_iff]
  have fails : FailsForRepeated tree root ↔
      ClaimedByTwo batches.flatten ∨ ∃ base ∈ batches.flatten, ¬ base.classIds.Nodup := by
    rw [← not_nodup_listedIds_iff, ← exists_insertAll_iff, exists_eq_ok_iff, not_not, ← same]
    constructor
    · rintro ⟨e, id, failed, -⟩
      exact ⟨e, failed⟩
    · rintro ⟨e, failed⟩
      obtain ⟨base, id, -, rfl⟩ := (errors e).1 failed
      exact ⟨_, id, failed, rfl⟩
  refine ⟨errors, fails, ?_⟩
  have inOne : (∀ base ∈ batches.flatten, base.classIds.Nodup) ↔
      ¬ ∃ base ∈ batches.flatten, ¬ base.classIds.Nodup := by simp
  rw [fails, inOne]
  generalize ClaimedByTwo batches.flatten = byTwo
  generalize (∃ base ∈ batches.flatten, ¬ base.classIds.Nodup) = byOne
  tauto

end Loading

namespace Example

/-- A mesh for a cap, and in another directory a module for a nut and for the cap. -/
def capFiles : FileTree :=
  (FileTree.empty.add "openscad/caps/caps.base" (.text
"- {filename: cap.stl, author: A <a>, license: L <l>, type: stl, classids: [cap]}
")).add "openscad/nuts/nuts.base" (.text
"- filename: nut.scad
  author: A <a>
  license: L <l>
  type: module
  modules: [{name: nut, arguments: [], classids: [nut, cap]}]
")

/-- One mesh, with the id of its class listed twice. -/
def pinFiles : FileTree := FileTree.empty.add "openscad/pins/pins.base" (.text
"- {filename: pin.stl, author: A <a>, license: L <l>, type: stl, classids: [pin, pin]}
")

/-- The bases of a directory, by their file and their ids. -/
def shown (read : Load.Result (List Base)) : Option (List (String × List String)) :=
  read.toOption.map (·.map fun base => (base.filename, base.classIds))

theorem exists_base_of_shown {read : Load.Result (List Base)} {filename : String} {ids : List String}
    (shown : shown read = some [(filename, ids)]) :
    ∃ base, read = .ok [base] ∧ base.filename = filename ∧ base.classIds = ids := by
  obtain ⟨bases, isRead, one⟩ := Option.map_eq_some_iff.1 shown
  obtain ⟨base, rfl, isBase⟩ := List.map_eq_singleton_iff.1 one
  rw [Prod.mk.injEq] at isBase
  exact ⟨base, toOption_eq_some.1 isRead, isBase⟩

end Example

/-- The module is the first base to list an id again, and what the error names. -/
theorem load_fails_for_repeated_cap :
    ∃ batches base, directories Example.capFiles "openscad" = .ok ["caps", "nuts"] ∧
      List.Forall₂ (fun name bases => readDirectory Example.capFiles "openscad" name = .ok bases)
        ["caps", "nuts"] batches ∧
      load Example.capFiles "openscad" = .error ⟨.nonUniqueBase "cap", [⟨.base, "nut.scad"⟩]⟩ ∧
      RepeatsFirst batches.flatten base "cap" ∧ base.filename = "nut.scad" := by
  have listed : directories Example.capFiles "openscad" = .ok ["caps", "nuts"] := by decide +kernel
  have shownCaps : Example.shown (readDirectory Example.capFiles "openscad" "caps") =
      some [("cap.stl", ["cap"])] := by decide +kernel
  have shownNuts : Example.shown (readDirectory Example.capFiles "openscad" "nuts") =
      some [("nut.scad", ["nut", "cap"])] := by decide +kernel
  obtain ⟨cap, readCaps, -, capIds⟩ := Example.exists_base_of_shown shownCaps
  obtain ⟨nut, readNuts, isFile, nutIds⟩ := Example.exists_base_of_shown shownNuts
  have areRead : List.Forall₂ (fun name bases => readDirectory Example.capFiles "openscad" name = .ok bases)
      ["caps", "nuts"] [[cap], [nut]] := .cons readCaps (.cons readNuts .nil)
  have listedIds : listedIds [cap] = ["cap"] := by simp [listedIds, capIds]
  have repeats : RepeatsFirst [[cap], [nut]].flatten nut "cap" :=
    ⟨[cap], [], ["nut"], [], rfl, nutIds, by rw [listedIds]; decide, by rw [listedIds]; decide⟩
  have fails := ((load_fails_for_repeated_iff listed areRead).1 _).2 ⟨nut, "cap", repeats, rfl⟩
  rw [isFile] at fails
  exact ⟨_, nut, listed, areRead, fails, repeats, isFile⟩

/-- One base is refused for its own id: loading fails, although no two bases list one id. -/
theorem load_fails_for_repeated_refuted :
    ∃ bases, directories Example.pinFiles "openscad" = .ok ["pins"] ∧
      readDirectory Example.pinFiles "openscad" "pins" = .ok bases ∧
      load Example.pinFiles "openscad" = .error ⟨.nonUniqueBase "pin", [⟨.base, "pin.stl"⟩]⟩ ∧
      ¬ ClaimedByTwo bases := by
  have listed : directories Example.pinFiles "openscad" = .ok ["pins"] := by decide +kernel
  have shown : Example.shown (readDirectory Example.pinFiles "openscad" "pins") =
      some [("pin.stl", ["pin", "pin"])] := by decide +kernel
  obtain ⟨pin, readPins, isFile, pinIds⟩ := Example.exists_base_of_shown shown
  have repeats : RepeatsFirst [[pin]].flatten pin "pin" :=
    ⟨[], [], ["pin"], [], rfl, pinIds, by decide, by decide⟩
  have fails : load Example.pinFiles "openscad" = .error ⟨.nonUniqueBase "pin", [⟨.base, pin.filename⟩]⟩ := by
    rw [load_eq_insertAll listed (.cons readPins .nil)]
    exact insertAll_eq_error_iff.2 ⟨pin, "pin", repeats, rfl⟩
  rw [isFile] at fails
  refine ⟨[pin], listed, readPins, fails, ?_⟩
  rintro ⟨i, j, base, other, id, isBase, isOther, -, -, apart⟩
  have first : ∀ {k : Nat} {base : Base}, [pin][k]? = some base → k = 0 := fun isAt =>
    Nat.lt_one_iff.1 (List.getElem?_eq_some_iff.1 isAt).1
  exact apart ((first isBase).trans (first isOther).symm)

end PartCatalog.BaseCatalog
