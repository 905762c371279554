/-
# Load options -- how a repository is loaded

An options file is one mapping with the keys `openscad` and `parallel`, each a bool
and neither given twice. A key that is not there keeps its default, and an empty
document has no keys.
-/
import PartCatalog.FileTree
import PartCatalog.Yaml.Scalar
import PartCatalog.Yaml.Tree

set_option autoImplicit false

namespace PartCatalog

/-- Whether the OpenSCAD bases are read, and whether collection files are read at the
same time. The latter does not change what is loaded, but where several files are
wrong it does change which of their errors is reported (`Schedule`). -/
structure LoadOptions where
  openscad : Bool
  parallel : Bool
deriving DecidableEq, Repr

namespace LoadOptions

/-- The options without a file. -/
def defaults : LoadOptions := ⟨true, true⟩

instance : Inhabited LoadOptions := ⟨defaults⟩

/-- A bool, which must be plain. -/
def readBool? : Yaml.Tree → Option Bool
  | .scalar _ true text => Yaml.boolOfWord? text
  | _ => none

/-- The entries, with the options and the names seen so far. -/
def readEntries? (options : LoadOptions) (seen : List String) :
    List (Yaml.Tree × Yaml.Tree) → Option LoadOptions
  | [] => some options
  | (.scalar _ _ name, value) :: rest => do
    let b ← readBool? value
    if seen.contains name then none
    else if name = "openscad" then readEntries? { options with openscad := b } (name :: seen) rest
    else if name = "parallel" then readEntries? { options with parallel := b } (name :: seen) rest
    else none
  | _ => none

/-- The options of a document. -/
def ofTree? : Yaml.Tree → Option LoadOptions
  | .scalar _ plain text => if plain && text.isEmpty then some defaults else none
  | .mapping _ entries => readEntries? defaults [] entries
  | .sequence .. => none

/-- The options of a text, which must be one document. -/
def ofText? (text : String) : Option LoadOptions := do
  match ← Yaml.Tree.documents? text with
  | [tree] => ofTree? tree
  | _ => none

/-- The options in a file. A directory or a file that is no text is found out only
when the document is read. -/
def load (tree : FileTree) (path : String) : Load.Result LoadOptions :=
  match tree.read path with
  | .ok text =>
    match ofText? text with
    | some options => .ok options
    | none => Load.fail .yaml
  | .error .isDirectory | .error .notText => Load.fail .yaml
  | .error fault => Load.fail (.file fault)

end LoadOptions

end PartCatalog
