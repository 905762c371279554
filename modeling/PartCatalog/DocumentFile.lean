/-
# Document files -- files that hold one YAML document
-/
import PartCatalog.FileTree
import PartCatalog.Yaml.Document

set_option autoImplicit false

namespace PartCatalog

namespace DocumentFile

/-- The text of a file. -/
def read (tree : FileTree) (path : String) : Load.Result String :=
  (tree.read path).mapError fun fault => ⟨.file fault, []⟩

/-- The one document of a text. -/
def single (text : String) : Load.Result Node :=
  match Yaml.documents? text with
  | none => Load.fail .yaml
  | some [] => Load.fail (.malformedCollection .noDocument)
  | some [document] => .ok document
  | some documents => Load.fail (.malformedCollection (.manyDocuments documents.length))

end DocumentFile

end PartCatalog
