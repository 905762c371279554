/-
# Mappings -- fields as a YAML document

A field is a value or a map of values one level deeper. Each entry starts a line of
its own. A key of several lines, or of more than 128 bytes, is marked as a key and
has its value on a line of its own.
-/
import PartCatalog.NameMap
import PartCatalog.Value
import PartCatalog.Yaml.Style

set_option autoImplicit false

namespace PartCatalog.Yaml

/-- What a document has under a key. -/
inductive Field where
  | value (v : Value)
  | values (vs : NameMap Value)

/-- A value as a scalar, its further lines at an indentation. -/
def valueChars (indent : Nat) : Value → List Char
  | .absent => "null".toList
  | .bool b => (if b then "true" else "false").toList
  | .number x => Layout.document.chars x
  | .text s => textChars indent s

/-- The break that ends a line, unless it has ended. -/
def lineEnd (cs : List Char) : List Char := if endsLine cs then [] else ['\n']

/-- Whether a key may stand before a colon on its line. -/
def isSimpleKey (name : String) : Bool := name.utf8ByteSize ≤ 128 && !name.toList.any isAnyBreak

/-- A key at an indentation up to its colon. -/
def keyChars (indent : Nat) (name : String) : List Char :=
  let key := textChars (indent + 2) name
  if isSimpleKey name then spaces indent ++ key ++ [':']
  else spaces indent ++ ['?', ' '] ++ key ++ lineEnd key ++ spaces indent ++ [':']

/-- An entry with a value, at an indentation. -/
def valueEntry (indent : Nat) (name : String) (v : Value) : List Char :=
  let value := valueChars (indent + 2) v
  keyChars indent name ++ ' ' :: value ++ lineEnd value

/-- An entry of the document. -/
def fieldEntry (name : String) : Field → List Char
  | .value v => valueEntry 0 name v
  | .values vs =>
    if vs.entries.isEmpty then keyChars 0 name ++ [' ', '\x7b', '\x7d', '\n']
    else keyChars 0 name ++ '\n' :: vs.toList.flatMap fun (n, v) => valueEntry 2 n v

/-- The document of some fields. -/
def documentText (fields : List (String × Field)) : String :=
  String.ofList (fields.flatMap fun (name, field) => fieldEntry name field)

end PartCatalog.Yaml
