/-
# Texts of nodes -- keys and cells as they were written

`Node.text` gives a scalar its written form and looks through tags; a sequence or
a mapping gets its diagnostic form, which names the kind of every node in it.
-/
import PartCatalog.Node.Basic
import PartCatalog.Binary64.Layout
import PartCatalog.Text.Quoted

set_option autoImplicit false

namespace PartCatalog.Node

/-- The digits of an integer. -/
def intText (n : Int) : String := String.ofList (intChars n)

mutual

/-- The diagnostic form of a node. -/
def diagnostic : Node → String
  | .null => "Null"
  | .bool b => "Bool(" ++ (if b then "true" else "false") ++ ")"
  | .int n => "Number(" ++ intText n ++ ")"
  | .float x => "Number(" ++ Layout.document.text x ++ ")"
  | .str s => "String(" ++ Text.quoted s ++ ")"
  | .seq items => "Sequence [" ++ String.intercalate ", " (diagnosticItems items) ++ "]"
  | .map entries =>
    "Mapping \x7b" ++ String.intercalate ", " (diagnosticEntries entries) ++ "\x7d"
  | .tagged tag value =>
    "TaggedValue \x7b tag: !" ++ tag ++ ", value: " ++ diagnostic value ++ " \x7d"

/-- The diagnostic forms of the items of a sequence. -/
def diagnosticItems : List Node → List String
  | [] => []
  | item :: rest => diagnostic item :: diagnosticItems rest

/-- The entries of a mapping: a scalar key is bare, any other in its diagnostic
form. -/
def diagnosticEntries : List (Node × Node) → List String
  | [] => []
  | (key, value) :: rest =>
    (diagnosticKey key ++ ": " ++ diagnostic value) :: diagnosticEntries rest

/-- A key of a mapping. -/
def diagnosticKey : Node → String
  | .null => "Null"
  | .bool b => if b then "true" else "false"
  | .int n => intText n
  | .float x => Layout.document.text x
  | .str s => Text.quoted s
  | .seq items => "Sequence [" ++ String.intercalate ", " (diagnosticItems items) ++ "]"
  | .map entries =>
    "Mapping \x7b" ++ String.intercalate ", " (diagnosticEntries entries) ++ "\x7d"
  | .tagged tag value =>
    "TaggedValue \x7b tag: !" ++ tag ++ ", value: " ++ diagnostic value ++ " \x7d"

end

/-- The text of a node. -/
def text : Node → String
  | .str s => s
  | .int n => intText n
  | .float x => Layout.document.text x
  | .bool true => "True"
  | .bool false => "False"
  | .null => "None"
  | .tagged _ value => text value
  | .seq items => diagnostic (.seq items)
  | .map entries => diagnostic (.map entries)

/-- The texts of a field that holds one text or an untagged list of them. -/
def texts : Node → List String
  | .seq items => items.map text
  | node => [node.text]

end PartCatalog.Node
