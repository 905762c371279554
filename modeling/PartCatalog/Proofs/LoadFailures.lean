/-
# Load failures -- the file that loading stops in, and whether its error says so

Loading reads the collection files, one after the other or at the same time, and then the base
files.  It fails before any file, at the classes of the whole repository, or in a file that it can
stop in (`Repository.exists_stopsAt`); of several such collection files each is the one under some
schedule (`Repository.StopsAt.exists_schedule`).  Then the error names the path of the repository,
and it names the collection file, or the directory of the base file, with two exceptions: a base
file whose text cannot be read, and a base that serves a class id again
(`Repository.load_failure_placed`).  A fault that ends the program is no error, and names nothing.
-/
import PartCatalog.Proofs.Schedules

set_option autoImplicit false

namespace PartCatalog

open Outcome

/-- A directory can be listed. -/
theorem FileTree.exists_list {tree : FileTree} {path : String} (isThere : tree.isDirectory path = true) :
    ∃ entries, tree.list path = .ok entries := by
  unfold isDirectory entry at isThere
  unfold list
  cases located : tree.locate path with
  | error fault => simp [located] at isThere
  | ok place =>
      cases found : tree.entryAt? place with
      | none => simp [located, found] at isThere
      | some entry => cases entry <;> simp [located, found] at isThere ⊢

/-! ## Where loading stops -/

/-- A file that loading reads: the collection file of a name, or the base file of a directory. -/
inductive Source where
  | collection (filename : String)
  | base (directory : String)
deriving DecidableEq

namespace Source

/-- The name that errors are to be placed by. -/
def name : Source → String
  | .collection filename => filename
  | .base directory => directory

/-- Whether a fault of a file is not placed in it: a base file is placed only once its text is
read, and no longer when its bases are entered. -/
def misses : Source → LoadFault → Bool
  | .base _, .file _ => true
  | .base _, .nonUniqueBase _ => true
  | _, _ => false

/-- What is wrong with a document is placed in its file. -/
theorem misses_of_ofDocument {source : Source} {fault : LoadFault} (ofDocument : fault.ofDocument = true) :
    source.misses fault = false := by
  cases source <;> cases fault <;> first | rfl | cases ofDocument

end Source

/-- Whether a fault arises from what a file holds, not from the directories of a repository or
from its classes taken together. -/
def LoadFault.inFile : LoadFault → Bool
  | .malformedRepository _ | .unknownReplacedClass .. => false
  | _ => true

namespace BaseCatalog

/-- Read the bases of one directory more. -/
def addDirectory (tree : FileTree) (root : String) (catalog : BaseCatalog) (directory : String) :
    Load.Result BaseCatalog := do
  let bases ← readDirectory tree root directory
  catalog.insertAll bases

theorem load_eq (tree : FileTree) (root : String) :
    load tree root = directories tree root >>= fun names => names.foldlM (addDirectory tree root) empty :=
  rfl

variable {tree : FileTree} {root directory : String} {catalog : BaseCatalog} {bases : List Base}
  {e : LoadError}

theorem exists_directories (isThere : tree.isDirectory root = true) :
    ∃ names, directories tree root = .ok names := by
  obtain ⟨entries, listed⟩ := FileTree.exists_list isThere
  simp only [directories, listed]
  exact ⟨_, rfl⟩

/-- The text of a base file is read without a place, and all else in it is placed there. -/
theorem readDirectory_eq_error (fails : readDirectory tree root directory = .error e) :
    (∃ fault, e = ⟨.file fault, []⟩) ∨
      ∃ inner, LoadError.Inner inner ∧ e = inner.placed .collection directory := by
  unfold readDirectory at fails
  dsimp only at fails
  split at fails
  · rcases bind_eq_error.1 fails with unread | ⟨text, -, fails⟩
    · obtain ⟨fault, -, rfl⟩ := mapError_eq_error.1 unread
      exact .inl ⟨fault, rfl⟩
    · obtain ⟨inner, wrong, rfl⟩ := Load.within_eq_error.1 fails
      rcases bind_eq_error.1 wrong with notSingle | ⟨document, -, notBases⟩
      · exact .inr ⟨inner, DocumentFile.failsOnly_single inner notSingle, rfl⟩
      · exact .inr ⟨inner, Base.failsOnly_ofDocument inner notBases, rfl⟩
  · cases fails

theorem insertAll_eq_error (fails : catalog.insertAll bases = .error e) :
    ∃ id filename, e = ⟨.nonUniqueBase id, [⟨.base, filename⟩]⟩ := by
  obtain ⟨before, base, after, catalog', -, -, fails⟩ := foldlM_eq_error.1 fails
  unfold insert at fails
  split at fails
  · cases fails
  · next id _ =>
    cases fails
    exact ⟨id, base.filename, rfl⟩

/-- What is wrong with a directory is placed there, unless its base file cannot be read, or has
a base for a class id that is served already. -/
theorem places_of_addDirectory (fails : addDirectory tree root catalog directory = .error e)
    (reported : e.fault.aborts = false) :
    e.place? .collection = (if (Source.base directory).misses e.fault then none else some directory) ∧
      e.place? .repositoryPath = none := by
  rcases bind_eq_error.1 fails with unread | ⟨bases, -, notUnique⟩
  · rcases readDirectory_eq_error unread with ⟨fault, rfl⟩ | ⟨inner, isInner, rfl⟩
    · exact ⟨rfl, rfl⟩
    · rw [LoadError.fault_placed] at reported
      rw [LoadError.fault_placed, Source.misses_of_ofDocument isInner.ofDocument]
      exact ⟨LoadError.place?_placed_self reported isInner.noCollection,
        (LoadError.place?_placed_of_ne (by decide)).trans isInner.noPath⟩
  · obtain ⟨id, filename, rfl⟩ := insertAll_eq_error notUnique
    exact ⟨rfl, rfl⟩

end BaseCatalog

/-! ## The whole repository -/

namespace Succession

/-- The classes of a repository can be wrong only in what they replace. -/
theorem failsOnly_fill {collections : List Collection} {index : ClassIndex} :
    FailsOnly (fun e => ∃ name replaced, e.fault = .unknownReplacedClass name replaced)
      (fill collections index) := by
  refine FailsOnly.map ?_ _
  induction Collection.allClasses collections with
  | nil => exact failsOnly_ok _
  | cons c rest ih =>
      unfold successors
      split
      · exact ih
      · split
        · exact Load.failsOnly_fail ⟨_, _, rfl⟩
        · exact ih.map _

end Succession

namespace Repository

variable {schedule : Schedule} {tree : FileTree} {path directory : String} {options : LoadOptions}
  {e inner : LoadError} {source : Source}

theorem exists_collectionFiles (isThere : tree.isDirectory directory = true) :
    ∃ files, collectionFiles tree directory = .ok files := by
  obtain ⟨entries, listed⟩ := FileTree.exists_list isThere
  simp only [collectionFiles, listed]
  exact ⟨_, rfl⟩

theorem readBases_eq_error_iff :
    readBases tree path options = .error e ↔
      options.openscad = true ∧ tree.isDirectory (FileTree.join path "openscad") = true ∧
        BaseCatalog.load tree (FileTree.join path "openscad") = .error e := by
  unfold readBases
  dsimp only
  split
  · next wanted =>
    obtain ⟨isWanted, hasBases⟩ := Bool.and_eq_true_iff.1 wanted
    simp only [map_eq_error, isWanted, hasBases, true_and]
  · next unwanted =>
    simp only [Bool.and_eq_true] at unwanted
    constructor
    · intro fails
      cases fails
    · rintro ⟨isWanted, hasBases, -⟩
      exact absurd ⟨isWanted, hasBases⟩ unwanted

/-- A file that loading can stop in, with its error: a collection file that can be the one whose
error is given; or, if the collections make a repository and the bases are wanted, the base file of
the first directory whose bases cannot be read and added to those before. -/
inductive StopsAt (tree : FileTree) (path : String) (options : LoadOptions) : Source → LoadError → Prop
  | collection {files : List String} {filename : String} {inner : LoadError}
      (isThere : tree.isDirectory path = true) (hasData : tree.isDirectory (FileTree.join path "data") = true)
      (listed : collectionFiles tree (FileTree.join path "data") = .ok files)
      (first : FailsFirst tree options (FileTree.join path "data") filename files)
      (fails : readCollection tree (FileTree.join path "data") filename = .error inner) :
      StopsAt tree path options (.collection filename) inner
  | base {files : List String} {collections : List Collection} {bare : Repository}
      {before after : List String} {directory : String} {catalog : BaseCatalog} {inner : LoadError}
      (isThere : tree.isDirectory path = true) (hasData : tree.isDirectory (FileTree.join path "data") = true)
      (listedFiles : collectionFiles tree (FileTree.join path "data") = .ok files)
      (read : files.mapM (readCollection tree (FileTree.join path "data")) = .ok collections)
      (made : ofCollections path collections = .ok bare) (wanted : options.openscad = true)
      (hasBases : tree.isDirectory (FileTree.join path "openscad") = true)
      (listed : BaseCatalog.directories tree (FileTree.join path "openscad") = .ok (before ++ directory :: after))
      (led : before.foldlM (BaseCatalog.addDirectory tree (FileTree.join path "openscad")) BaseCatalog.empty =
        .ok catalog)
      (fails : catalog.addDirectory tree (FileTree.join path "openscad") directory = .error inner) :
      StopsAt tree path options (.base directory) inner

/-- Under some schedule loading fails there. -/
theorem StopsAt.exists_schedule (stops : StopsAt tree path options source inner) :
    ∃ schedule, loadBy schedule tree path options = .error (inner.placed .repositoryPath path) := by
  cases stops with
  | collection isThere hasData listed first fails =>
      obtain ⟨schedule, notRead⟩ := first.exists_schedule listed fails
      exact ⟨schedule, loadBy_eq_error_iff_stages.2
        ⟨inner, rfl, .inr (.inr ⟨isThere, hasData, .inl notRead⟩)⟩⟩
  | base isThere hasData listedFiles read made wanted hasBases listed led fails =>
      have isRead : readCollections Schedule.inOrder options tree (FileTree.join path "data") = .ok _ :=
        readCollections_eq_ok_iff.2 ⟨_, listedFiles, read⟩
      have notBases : readBases tree path options = .error inner := by
        refine readBases_eq_error_iff.2 ⟨wanted, hasBases, ?_⟩
        rw [BaseCatalog.load_eq, listed]
        exact foldlM_eq_error.2 ⟨_, _, _, _, rfl, led, fails⟩
      exact ⟨Schedule.inOrder, loadBy_eq_error_iff_stages.2
        ⟨_, rfl, .inr (.inr ⟨isThere, hasData, .inr ⟨_, isRead, .inr ⟨_, made, notBases⟩⟩⟩)⟩⟩

/-- A fault of a file stops loading in a file. -/
theorem exists_stopsAt (fails : loadBy schedule tree path options = .error e) (inFile : e.fault.inFile = true) :
    ∃ source inner, StopsAt tree path options source inner ∧ e = inner.placed .repositoryPath path := by
  obtain ⟨inner, rfl, noPath | noData | ⟨isThere, hasData, stage⟩⟩ := loadBy_eq_error_iff_stages.1 fails
  · obtain ⟨-, rfl⟩ := noPath
    cases inFile
  · obtain ⟨-, -, rfl⟩ := noData
    cases inFile
  rcases stage with notRead | ⟨collections, read, notMade | ⟨bare, made, notBases⟩⟩
  · obtain ⟨files, listed⟩ := exists_collectionFiles hasData
    obtain ⟨filename, first, failsHere⟩ := exists_failsFirst listed notRead
    exact ⟨_, inner, .collection isThere hasData listed first failsHere, rfl⟩
  · obtain ⟨name, replaced, isFault⟩ := Succession.failsOnly_fill inner (map_eq_error.1 notMade)
    rw [LoadError.fault_placed, isFault] at inFile
    cases inFile
  · obtain ⟨files, listedFiles, read⟩ := readCollections_eq_ok_iff.1 read
    obtain ⟨wanted, hasBases, notBases⟩ := readBases_eq_error_iff.1 notBases
    obtain ⟨names, listed⟩ := BaseCatalog.exists_directories hasBases
    rw [BaseCatalog.load_eq, listed] at notBases
    obtain ⟨before, directory, after, catalog, rfl, led, fails⟩ := foldlM_eq_error.1 notBases
    exact ⟨_, inner, .base isThere hasData listedFiles read made wanted hasBases listed led fails, rfl⟩

/-- The error of the file that loading stops in has no path yet, and its place unless it is
missed. -/
theorem StopsAt.places (stops : StopsAt tree path options source inner) (reported : inner.fault.aborts = false) :
    inner.place? .collection = (if source.misses inner.fault then none else some source.name) ∧
      inner.place? .repositoryPath = none := by
  cases stops with
  | collection isThere hasData listed first fails =>
      obtain ⟨bare, rfl, wrong⟩ := readCollection_eq_error_iff.1 fails
      have isBare : bare.place? .collection = none ∧ bare.place? .repositoryPath = none := by
        rcases wrong with unread | ⟨text, -, notSingle | ⟨document, -, notCollection | ⟨c, -, wrongId⟩⟩⟩
        · obtain ⟨fault, -, rfl⟩ := mapError_eq_error.1 unread
          exact ⟨rfl, rfl⟩
        · have isInner := DocumentFile.failsOnly_single bare notSingle
          exact ⟨isInner.noCollection, isInner.noPath⟩
        · have isInner := Collection.failsOnly_ofNode bare notCollection
          exact ⟨isInner.noCollection, isInner.noPath⟩
        · have isInner := failsOnly_checkId bare wrongId
          exact ⟨isInner.noCollection, isInner.noPath⟩
      rw [LoadError.fault_placed] at reported
      exact ⟨LoadError.place?_placed_self reported isBare.1,
        (LoadError.place?_placed_of_ne (by decide)).trans isBare.2⟩
  | base isThere hasData listedFiles read made wanted hasBases listed led fails =>
      exact BaseCatalog.places_of_addDirectory fails reported

/-- **Where loading fails, and what its error names.**  A failure that arises from a file stops
loading in one that it can stop in, and of several such files each is the one under some schedule.
The error names the path of the repository, and the collection file or the directory of the base
file, unless it misses it: the text of a base file cannot be read, or a base serves a class id
again. -/
theorem load_failure_placed (fails : loadBy schedule tree path options = .error e)
    (reported : e.fault.aborts = false) (inFile : e.fault.inFile = true) :
    e.place? .repositoryPath = some path ∧
      (∃ source inner, StopsAt tree path options source inner ∧ e = inner.placed .repositoryPath path) ∧
      ∀ source inner, StopsAt tree path options source inner →
        (∃ schedule', loadBy schedule' tree path options = .error (inner.placed .repositoryPath path)) ∧
        (e = inner.placed .repositoryPath path →
          e.place? .collection = if source.misses e.fault then none else some source.name) := by
  obtain ⟨source, inner, stops, isPlaced⟩ := exists_stopsAt fails inFile
  have reportedAs : ∀ inner' : LoadError, e = inner'.placed .repositoryPath path →
      inner'.fault.aborts = false := by
    intro inner' same
    rwa [same, LoadError.fault_placed] at reported
  have places := stops.places (reportedAs inner isPlaced)
  refine ⟨?_, ⟨source, inner, stops, isPlaced⟩,
    fun source' inner' stops' => ⟨stops'.exists_schedule, fun same => ?_⟩⟩
  · rw [isPlaced]
    exact LoadError.place?_placed_self (reportedAs inner isPlaced) places.2
  · have places' := stops'.places (reportedAs inner' same)
    rw [same, LoadError.fault_placed]
    exact (LoadError.place?_placed_of_ne (by decide)).trans places'.1

namespace Example

/-- A repository of one collection file, with some entry in its place. -/
def collectionFile (entry : FileEntry) : FileTree := FileTree.empty.add "parts/data/pins.blt" entry

/-- A repository of no collections and one base file, with some entry in its place. -/
def baseFile (entry : FileEntry) : FileTree :=
  (FileTree.empty.add "parts/data" .directory).add "parts/openscad/pins/pins.base" entry

/-- Two meshes for one class id. -/
def twiceText : String :=
"- {filename: a, author: A <a>, license: L <l>, type: stl, classids: [pin]}
- {filename: b, author: A <a>, license: L <l>, type: stl, classids: [pin]}
"

end Example

/-- A collection file that is no text is named by the error. -/
theorem load_failure_placed_bytes :
    ∃ e source inner, load (Example.collectionFile .bytes) "parts" LoadOptions.defaults = .error e ∧
      StopsAt (Example.collectionFile .bytes) "parts" LoadOptions.defaults source inner ∧
      e.place? .repositoryPath = some "parts" ∧ e.place? .collection = some "pins.blt" ∧
      source.name = "pins.blt" := by
  have fails : load (Example.collectionFile .bytes) "parts" LoadOptions.defaults =
      .error ⟨.file .notText, [⟨.collection, "pins.blt"⟩, ⟨.repositoryPath, "parts"⟩]⟩ :=
    error?_eq_some.1 (by decide +kernel)
  obtain ⟨atPath, ⟨source, inner, stops, same⟩, places⟩ := load_failure_placed fails rfl rfl
  have isPlaced : some "pins.blt" = if source.misses (.file .notText) then none else some source.name :=
    (places source inner stops).2 same
  refine ⟨_, source, inner, fails, stops, atPath, rfl, ?_⟩
  split at isPlaced
  · cases isPlaced
  · exact (Option.some.inj isPlaced).symm

/-- A base file that is no text is not named, nor is one that serves a class id twice. -/
theorem load_failure_placed_refuted :
    ∃ unread twice,
      load (Example.baseFile .bytes) "parts" LoadOptions.defaults = .error unread ∧
        unread.fault = .file .notText ∧ unread.place? .collection = none ∧
      load (Example.baseFile (.text Example.twiceText)) "parts" LoadOptions.defaults = .error twice ∧
        twice.fault = .nonUniqueBase "pin" ∧ twice.place? .collection = none := by
  refine ⟨⟨.file .notText, [⟨.repositoryPath, "parts"⟩]⟩,
    ⟨.nonUniqueBase "pin", [⟨.base, "b"⟩, ⟨.repositoryPath, "parts"⟩]⟩,
    error?_eq_some.1 (by decide +kernel), rfl, rfl, error?_eq_some.1 (by decide +kernel), rfl, rfl⟩

end Repository

end PartCatalog
