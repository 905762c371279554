/-
# Loaded repositories -- what a repository owes to its files

Loading reads the collections, makes a repository of them and adds the bases
(`Repository.loadBy_eq_ok_iff_stages`); no step changes a parameter set.  So every class and every base of
a loaded repository has a set that can be built, the one without parameters where its element
declares none (`Loaded.reachable`, `Loaded.reachable_base`), and so has a class together with its
base (`Loaded.reachable_fullParameters`).
-/
import PartCatalog.CommandLine.PartQuery
import PartCatalog.Proofs.FilledRepositories
import PartCatalog.Proofs.Schedules
import PartCatalog.Proofs.ServedClasses
import PartCatalog.Proofs.WellFormed

set_option autoImplicit false

namespace PartCatalog

open Outcome
open ParameterSet (Reachable)

theorem Element.reachable_of_parameters {declared : Option Node} {params : ParameterSet}
    (read : parameters declared = .ok params) : Reachable params := by
  unfold parameters at read
  split at read
  · cases read
    exact .empty
  · exact .read (mapError_eq_ok.1 read)

theorem PartClass.reachable_of_ofNode {node : Node} {cs : List PartClass} (read : ofNode node = .ok cs) :
    ∀ c ∈ cs, Reachable c.parameters := by
  intro c member
  obtain ⟨entries, name, readOne⟩ := exists_ofFieldsWithin read c member
  exact Element.reachable_of_parameters (readFrom_of_ofFieldsWithin readOne).parameters

/-! ## Bases -/

namespace Base

theorem reachable_of_ofHeader {collection : String} {entries : List (Node × Node)} {kind : BaseKind}
    {classIds : List String} {parameters : Option Node} {base : Base}
    (read : ofHeader collection entries kind classIds parameters = .ok base) :
    Reachable base.parameters := by
  simp only [ofHeader, bind_eq_ok, pure_eq, Except.ok.injEq] at read
  obtain ⟨-, -, authors, -, -, -, license, -, params, readParams, filename, -, rfl⟩ := read
  exact Element.reachable_of_parameters readParams

theorem reachable_of_ofModule {collection : String} {header : List (Node × Node)} {module : Node}
    {base : Base} (read : ofModule collection header module = .ok base) : Reachable base.parameters := by
  simp only [ofModule] at read
  split at read
  · simp only [bind_eq_ok] at read
    obtain ⟨entries, -, -, -, name, -, -, -, arguments, -, -, -, classIds, -, read⟩ := read
    exact reachable_of_ofHeader read
  · obtain ⟨entries, fails, -⟩ := bind_eq_ok.1 read
    cases fails

theorem reachable_of_ofEntry {collection : String} {entries : List (Node × Node)} {bases : List Base}
    (read : ofEntry collection entries = .ok bases) : ∀ base ∈ bases, Reachable base.parameters := by
  unfold ofEntry at read
  dsimp only at read
  split at read
  · simp only [bind_eq_ok] at read
    obtain ⟨-, -, modules, -, read⟩ := read
    split at read
    · intro base member
      obtain ⟨module, -, readOne⟩ := exists_left_of_forall₂ (mapM_eq_ok.1 read) base member
      exact reachable_of_ofModule readOne
    · cases read
  · split at read
    · simp only [bind_eq_ok, pure_eq, Except.ok.injEq] at read
      obtain ⟨-, -, -, -, classIds, -, mesh, readMesh, rfl⟩ := read
      intro base member
      rw [List.mem_singleton.1 member]
      exact reachable_of_ofHeader readMesh
    · cases read

theorem reachable_of_ofDocument {collection : String} {document : Node} {bases : List Base}
    (read : ofDocument collection document = .ok bases) : ∀ base ∈ bases, Reachable base.parameters := by
  unfold ofDocument at read
  split at read
  · cases read
  · obtain ⟨lists, readLists, rfl⟩ := map_eq_ok.1 read
    intro base member
    obtain ⟨list, isList, inList⟩ := List.mem_flatten.1 member
    obtain ⟨item, -, readOne⟩ := exists_left_of_forall₂ (mapM_eq_ok.1 readLists) list isList
    unfold ofItem at readOne
    split at readOne
    · cases readOne
    · exact reachable_of_ofEntry (mapError_eq_ok.1 readOne) base inList

end Base

namespace BaseCatalog

variable {tree : FileTree} {root : String}

theorem reachable_of_readDirectory {collection : String} {bases : List Base}
    (read : readDirectory tree root collection = .ok bases) : ∀ base ∈ bases, Reachable base.parameters := by
  unfold readDirectory at read
  dsimp only at read
  split at read
  · simp only [bind_eq_ok, Load.within, mapError_eq_ok] at read
    obtain ⟨text, -, document, -, read⟩ := read
    exact Base.reachable_of_ofDocument read
  · cases read
    simp

theorem reachable_of_load {catalog : BaseCatalog} (loaded : load tree root = .ok catalog) :
    ∀ base ∈ catalog.bases, Reachable base.parameters := by
  obtain ⟨names, batches, -, reads, all, -⟩ := (load_eq_ok_iff tree root catalog).1 loaded
  rw [all]
  intro base member
  obtain ⟨batch, isBatch, inBatch⟩ := List.mem_flatten.1 member
  obtain ⟨name, -, readBatch⟩ := exists_left_of_forall₂ reads batch isBatch
  exact reachable_of_readDirectory readBatch base inBatch

theorem mem_of_baseFor? {catalog : BaseCatalog} {id : String} {base : Base}
    (found : catalog.baseFor? id = some base) : base ∈ catalog.bases := by
  obtain ⟨position, -, isBase⟩ := Option.bind_eq_some_iff.1 found
  exact List.mem_of_getElem? isBase

end BaseCatalog

/-! ## Repositories -/

namespace Repository

variable {tree : FileTree} {path : String} {options : LoadOptions} {repo : Repository}

/-- Each collection of a directory is read from a document. -/
theorem parsed_of_readCollections {schedule : Schedule} {directory : String} {collections : List Collection}
    (read : readCollections schedule options tree directory = .ok collections) :
    ∀ c ∈ collections, ∃ document, Collection.ofNode document = .ok c := by
  obtain ⟨files, -, reads⟩ := readCollections_eq_ok_iff.1 read
  intro c member
  obtain ⟨file, -, readOne⟩ := exists_left_of_forall₂ (mapM_eq_ok.1 reads) c member
  simp only [readCollection, Load.within, mapError_eq_ok, bind_eq_ok, pure_eq, Except.ok.injEq] at readOne
  obtain ⟨text, -, document, -, coll, readColl, -, -, rfl⟩ := readOne
  exact ⟨document, readColl⟩

/-- The class of a filled repository has the set that its element declares. -/
theorem reachable_of_ofCollections {collections : List Collection}
    (parsed : ∀ c ∈ collections, ∃ document, Collection.ofNode document = .ok c)
    (made : ofCollections path collections = .ok repo) : ∀ c ∈ repo.classes, Reachable c.parameters := by
  have parsed' : ∀ c ∈ collections.mergeSort (fun a b => decide (a.id ≤ b.id)),
      ∃ document, Collection.ofNode document = .ok c := fun c member => parsed c (List.mem_mergeSort.1 member)
  intro c member
  have isIndexed : c.withoutSuccessor ∈ (indexed path _).classes :=
    classes_of_filled (fresh_indexed parsed') made ▸ List.mem_map_of_mem member
  obtain ⟨entries, name, bare, readOne, same⟩ := exists_read_of_indexed parsed' _ isIndexed
  have readFrom := PartClass.readFrom_of_ofFieldsWithin readOne
  have ours : Reachable bare.parameters := Element.reachable_of_parameters readFrom.parameters
  have sameSet : c.withoutSuccessor.parameters = bare.withBody.parameters := congrArg PartClass.parameters same
  have unchanged : c.parameters = bare.parameters := sameSet
  exact unchanged ▸ ours

section Loaded

variable (loaded : load tree path options = .ok repo)

include loaded

theorem Loaded.reachable : ∀ c ∈ repo.classes, Reachable c.parameters := by
  obtain ⟨-, collections, bare, bases, read, made, -, rfl⟩ := loadBy_eq_ok_iff_stages.1 loaded
  have ours : ∀ c ∈ bare.classes, Reachable c.parameters :=
    reachable_of_ofCollections (parsed_of_readCollections read) made
  exact ours

theorem Loaded.reachable_base {c : PartClass} {base : Base} (found : repo.baseFor? c = some base) :
    Reachable base.parameters := by
  obtain ⟨-, collections, bare, bases, -, -, readBases', rfl⟩ := loadBy_eq_ok_iff_stages.1 loaded
  obtain ⟨catalog, isCatalog, served⟩ := Option.bind_eq_some_iff.1 found
  have isLoaded : readBases tree path options = .ok (some catalog) := isCatalog ▸ readBases'
  unfold readBases at isLoaded
  dsimp only at isLoaded
  split at isLoaded
  · obtain ⟨catalog', loadedBases, same⟩ := map_eq_ok.1 isLoaded
    cases same
    exact BaseCatalog.reachable_of_load loadedBases base (BaseCatalog.mem_of_baseFor? served)
  · cases isLoaded

/-- A class together with its base has a set that can be built. -/
theorem Loaded.reachable_fullParameters {c : PartClass} (isClass : c ∈ repo.classes) {params : ParameterSet}
    (full : repo.fullParameters c = .ok params) : Reachable params := by
  have ours := Loaded.reachable loaded c isClass
  unfold fullParameters at full
  split at full
  · next base found =>
    simp only [Load.within, Load.ofDeclaration, mapError_eq_ok] at full
    exact .union ours (Loaded.reachable_base loaded found) full
  · cases full
    exact ours

end Loaded

/-! ## One collection -/

/-- A collection that replaces nothing is loaded as it stands, with the bases next to it. -/
theorem load_of_collection {coll : Collection} {bases : Option BaseCatalog}
    (isThere : tree.isDirectory path = true) (hasData : tree.isDirectory (FileTree.join path "data") = true)
    (read : readCollections Schedule.inOrder options tree (FileTree.join path "data") = .ok [coll])
    (unreplacing : ∀ c ∈ coll.classes, c.replaces = none) (basesRead : readBases tree path options = .ok bases) :
    load tree path options = .ok { indexed path [coll] with bases } := by
  have made : ofCollections path [coll] = .ok (indexed path [coll]) := by
    rw [ofCollections, List.mergeSort_singleton]
    refine filled_of_no_replaces fun c member => ?_
    rw [classes_indexed, Collection.allClasses, List.flatMap_singleton] at member
    obtain ⟨bare, isBare, rfl⟩ := List.mem_map.1 member
    exact unreplacing bare isBare
  exact loadBy_eq_ok_iff_stages.2 ⟨⟨isThere, hasData⟩, [coll], _, bases, read, made, basesRead, rfl⟩

namespace Example

/-- A repository of one pin, which is free in its diameter and its length. -/
def pinFiles : FileTree := FileTree.empty.add "parts/data/pins.blt" (.text
"collection:
  id: pins
  author: A <a@b>
  license: L <l>
  blt-version: 0.2
classes:
- id: pin
  naming:
    template: Pin
  source: drawing
  parameters:
    free: [d, l]
")

/-- The pin is loaded, and either length can be assigned. -/
theorem exists_pin :
    ∃ coll repo c, readCollections Schedule.inOrder LoadOptions.defaults pinFiles "parts/data" = .ok [coll] ∧
      load pinFiles "parts" LoadOptions.defaults = .ok repo ∧ repo.classes = [c] ∧ repo.bases = none ∧
      (["d=1", "l=5", "d=2"].all fun text => (PartQuery.assignment c.parameters text).isOk) = true := by
  have shown : (readCollections Schedule.inOrder LoadOptions.defaults pinFiles "parts/data").toOption.map
      (List.map fun coll => coll.classes.map fun c =>
        (c.replaces, ["d=1", "l=5", "d=2"].all fun text => (PartQuery.assignment c.parameters text).isOk)) =
      some [[(none, true)]] := by
    decide +kernel
  obtain ⟨collections, read, facts⟩ := Option.map_eq_some_iff.1 shown
  obtain ⟨coll, rfl, inColl⟩ := List.map_eq_singleton_iff.1 facts
  have isRead := toOption_eq_some.1 read
  obtain ⟨c, classes, same⟩ := List.map_eq_singleton_iff.1 inColl
  obtain ⟨unreplacing, accepted⟩ := Prod.mk.inj same
  have listed : (indexed "parts" [coll]).classes = [c.withBody] := by
    rw [classes_indexed, Collection.allClasses, List.flatMap_singleton, classes, List.map_singleton]
  have noDirectory : pinFiles.isDirectory (FileTree.join "parts" "openscad") = false := by decide +kernel
  have noBases : readBases pinFiles "parts" LoadOptions.defaults = .ok none := by
    simp only [readBases, noDirectory, Bool.and_false, Bool.false_eq_true, if_false]
  have loaded : load pinFiles "parts" LoadOptions.defaults = .ok { indexed "parts" [coll] with bases := none } := by
    refine load_of_collection (by decide +kernel) (by decide +kernel) isRead ?_ noBases
    rw [classes]
    exact List.forall_mem_singleton.2 unreplacing
  exact ⟨coll, _, c.withBody, isRead, loaded, listed, rfl, accepted⟩

end Example

end Repository

end PartCatalog
