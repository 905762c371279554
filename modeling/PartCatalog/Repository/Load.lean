/-
# Loading a repository -- from a directory tree

The directory `data` has one file for each collection, named for its id; the
directory `openscad`, if there is one, has the bases. Every error carries the path
of the repository as its outermost place. `ofCollections` is the part that knows no
files: it does not depend on the order in which collections with different ids come.

Collection files that are read at the same time finish in any order. What is loaded
does not show it, but of several files that fail the one that is first to fail is
reported. A `Schedule` says which; `loadBy` loads under any, `load` under that in which
files fail in their order.
-/
import PartCatalog.LoadOptions
import PartCatalog.Repository.Succession

set_option autoImplicit false

namespace PartCatalog

/-- Which of several readings that go on at the same time is the first to fail. -/
structure Schedule where
  first : LoadError → List LoadError → LoadError
  isOne : ∀ e es, first e es ∈ e :: es

namespace Schedule

/-- The schedule in which readings fail in their order. -/
def inOrder : Schedule where
  first e _ := e
  isOne _ _ := List.mem_cons_self

/-- The errors of some readings. -/
def failures {α : Type} (readings : List (Load.Result α)) : List LoadError :=
  readings.filterMap fun
    | .ok _ => none
    | .error e => some e

/-- What readings that go on at the same time give together. -/
def gather {α : Type} (schedule : Schedule) (readings : List (Load.Result α)) :
    Load.Result (List α) :=
  match failures readings with
  | [] => .ok (readings.filterMap Except.toOption)
  | e :: es => .error (schedule.first e es)

end Schedule

namespace Repository

/-- Ids that no collection may have. -/
def forbiddenIds : List String := ["common", "gui", "template"]

/-- The extension of a collection file. -/
def collectionExtension : String := "blt"

/-! ## Collection files -/

/-- Refuse an id that is not the one the file is named for, or that is forbidden. -/
def checkId (stem id : String) : Load.Result Unit :=
  if id ≠ stem then Load.fail (.malformedCollection (.otherName id))
  else if forbiddenIds.contains id then Load.fail (.malformedCollection (.forbiddenId id))
  else .ok ()

/-- The collection in a file. -/
def readCollection (tree : FileTree) (directory filename : String) : Load.Result Collection :=
  Load.within .collection filename do
    let text ← DocumentFile.read tree (FileTree.join directory filename)
    let document ← DocumentFile.single text
    let c ← Collection.ofNode document
    checkId (FileTree.splitExtension filename).1 c.id
    return c

/-- The names of the collection files in a directory, ascending. -/
def collectionFiles (tree : FileTree) (directory : String) : Load.Result (List String) :=
  match tree.list directory with
  | .error fault => Load.fail (.file fault)
  | .ok entries => .ok <| (entries.map (·.1)).filter fun name =>
      (FileTree.splitExtension name).2 = some collectionExtension

/-- The collections in a directory, in the order of their files. One after the other they
are read up to the first that fails; else the schedule decides. -/
def readCollections (schedule : Schedule) (options : LoadOptions) (tree : FileTree)
    (directory : String) : Load.Result (List Collection) := do
  let files ← collectionFiles tree directory
  if options.parallel then schedule.gather (files.map (readCollection tree directory))
  else files.mapM (readCollection tree directory)

/-! ## Repositories -/

/-- The collections as a repository without bases. -/
def ofCollections (path : String) (collections : List Collection) : Load.Result Repository :=
  (indexed path (collections.mergeSort fun a b => decide (a.id ≤ b.id))).filled

/-- The bases of a repository, if they are wanted and there. -/
def readBases (tree : FileTree) (path : String) (options : LoadOptions) :
    Load.Result (Option BaseCatalog) :=
  let directory := FileTree.join path "openscad"
  if options.openscad && tree.isDirectory directory then
    (BaseCatalog.load tree directory).map some
  else .ok none

/-- The repository at a path, its collection files read by a schedule. -/
def loadBy (schedule : Schedule) (tree : FileTree) (path : String) (options : LoadOptions) :
    Load.Result Repository :=
  Load.within .repositoryPath path do
    if !tree.isDirectory path then
      Load.fail (.malformedRepository .noDirectory)
    else
      let data := FileTree.join path "data"
      if !tree.isDirectory data then
        Load.fail (.malformedRepository .noDataDirectory)
      else
        let collections ← readCollections schedule options tree data
        let repo ← ofCollections path collections
        let bases ← readBases tree path options
        return { repo with bases }

/-- The repository at a path, its collection files read in their order. -/
def load (tree : FileTree) (path : String) (options : LoadOptions) : Load.Result Repository :=
  loadBy Schedule.inOrder tree path options

end Repository

end PartCatalog
