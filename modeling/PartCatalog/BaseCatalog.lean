/-
# The base catalogue -- which base serves a class

Every directory below the backend may hold a base file named after it. No class id
is served twice, be it by two bases or by one that lists it twice; so an id leads
to one base.
-/
import PartCatalog.Base
import PartCatalog.DocumentFile

set_option autoImplicit false

namespace PartCatalog

/-- All bases in the order they are read, and the position of the one that serves a
class id. -/
structure BaseCatalog where
  bases : List Base
  byClass : NameMap Nat

namespace BaseCatalog

def empty : BaseCatalog := ⟨[], NameMap.empty⟩

/-- Enter class ids for the base at a position. -/
def assignIds (position : Nat) (byClass : NameMap Nat) : List String → Except String (NameMap Nat)
  | [] => .ok byClass
  | id :: ids =>
    if byClass.contains id then .error id else assignIds position (byClass.insert id position) ids

/-- Add a base, unless one of its class ids is served already. -/
def insert (catalog : BaseCatalog) (base : Base) : Load.Result BaseCatalog :=
  match assignIds catalog.bases.length catalog.byClass base.classIds with
  | .ok byClass => .ok ⟨catalog.bases ++ [base], byClass⟩
  | .error id => Load.within .base base.filename (Load.fail (.nonUniqueBase id))

/-- Add bases one after the other. -/
def insertAll (catalog : BaseCatalog) (bases : List Base) : Load.Result BaseCatalog :=
  bases.foldlM insert catalog

/-- The base that serves a class id. -/
def baseFor? (catalog : BaseCatalog) (id : String) : Option Base :=
  (catalog.byClass.get? id).bind fun position => catalog.bases[position]?

/-- The bases of one directory, none if it has no base file. -/
def readDirectory (tree : FileTree) (root collection : String) : Load.Result (List Base) :=
  let path := FileTree.join (FileTree.join root collection) (collection ++ ".base")
  if tree.exists_ path then do
    let text ← DocumentFile.read tree path
    Load.within .collection collection do
      let document ← DocumentFile.single text
      Base.ofDocument collection document
  else .ok []

/-- The names of the directories below a path, ascending. -/
def directories (tree : FileTree) (root : String) : Load.Result (List String) :=
  match tree.list root with
  | .error fault => Load.fail (.file fault)
  | .ok entries => .ok <| entries.filterMap fun (name, entry) =>
      if entry = .directory then some name else none

/-- All bases below a path. -/
def load (tree : FileTree) (root : String) : Load.Result BaseCatalog := do
  let names ← directories tree root
  names.foldlM (fun catalog name => do
    let bases ← readDirectory tree root name
    catalog.insertAll bases) empty

def toJson (catalog : BaseCatalog) : Json :=
  .object [("bases", .array (catalog.bases.map Base.toJson))]

end BaseCatalog

end PartCatalog
