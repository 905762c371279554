/-
# Declarations -- reading the fields of an element, and what can be wrong

A `DeclarationError` is the cause that makes an element invalid as a whole; the
readers below take a field as a mapping, a list or a string. A string field may
be written as a number. Whether tags are looked through differs: a mapping and a
list may be tagged, a string may not.

A schema counts a key by its text, tag or no tag, but a field is found by an
untagged key only. So a mandatory field can be lost between the two: then the
program is aborted. That outcome stands among the errors, and `aborts` tells it
from those that are reported.
-/
import PartCatalog.Schema
import PartCatalog.ParameterType

set_option autoImplicit false

namespace PartCatalog

/-- The shape an element or one of its fields should have had. A lost field is a
mandatory one that passed the schema and has no untagged key. -/
inductive ShapeFault where
  | lostField (field : String)
  | notMapping
  | notList
  | fieldNotString (field : String)
  | fieldNotList (field : String)
  | rowNotList (key : String)
  | unsupportedConversion (letter : Option Char)
  | placeholderCount (placeholders substitutes : Nat)
deriving DecidableEq, Repr

/-- What is wrong with a list of common combinations. -/
inductive CommonFault where
  | positionCount (expected found : Nat)
  | badPosition (name : String)
  | noChoices (name : String)
  | notEnumerable (name : String) (type : ParameterType)
deriving DecidableEq, Repr

/-- What makes parameters, a naming or a combination of parameters invalid. -/
inductive DeclarationError where
  | schema (error : SchemaError)
  | cell (error : CellError)
  | malformed (element : String) (fault : ShapeFault)
  | unknownParameter (place name : String)
  | unknownType (label : String)
  | nonFreeDefault (name : String)
  | common (fault : CommonFault)
  | incompatibleTypes (name : String) (left right : ParameterType)
  | incompatibleDefaults (name : String) (left right : Value)
  | incompatibleDescriptions (name left right : String)
deriving DecidableEq

/-! ## Aborts -/

/-- Whether the program is aborted, and no error is reported. -/
def ShapeFault.aborts : ShapeFault → Bool
  | .lostField _ => true
  | _ => false

/-- Whether the program is aborted, and no error is reported. -/
def DeclarationError.aborts : DeclarationError → Bool
  | .malformed _ fault => fault.aborts
  | _ => false

/-! ## Messages -/

namespace ShapeFault

def message : ShapeFault → String
  | .lostField field => s!"field {field} is not found"
  | .notMapping => "expected a mapping"
  | .notList => "expected a list"
  | .fieldNotString field => s!"field {field} must be a string"
  | .fieldNotList field => s!"field {field} must be a list"
  | .rowNotList key => s!"row {key} is not a list"
  | .unsupportedConversion letter =>
    "unsupported conversion %" ++ (letter.map String.singleton).getD ""
  | .placeholderCount placeholders substitutes =>
    s!"template has {placeholders} placeholder(s) but {substitutes} substitute(s)"

end ShapeFault

namespace CommonFault

def message : CommonFault → String
  | .positionCount expected found => s!"expected {expected} positions, found {found}"
  | .badPosition name => s!"position for {name} must be ':' or a list of values"
  | .noChoices name => s!"no table provides choices for {name}"
  | .notEnumerable name type =>
    let label := type.label
    s!"cannot enumerate parameter {name} of type {label}"

end CommonFault

namespace DeclarationError

/-- The text shown for the error. -/
def message : DeclarationError → String
  | .schema error => error.message
  | .cell error => error.message
  | .malformed element fault =>
    let text := fault.message
    s!"malformed {element}: {text}"
  | .unknownParameter place name => s!"unknown parameter in {place}: {name}"
  | .unknownType label => s!"unknown type in types: {label}"
  | .nonFreeDefault name => s!"default value given for non-free parameter {name}"
  | .common fault => "invalid common combination: " ++ fault.message
  | .incompatibleTypes name left right =>
    let (a, b) := (left.label, right.label)
    s!"incompatible types for parameter {name}: {a} and {b}"
  | .incompatibleDefaults name left right =>
    let (a, b) := (left.display, right.display)
    s!"incompatible default values for parameter {name}: {a} and {b}"
  | .incompatibleDescriptions name left right =>
    s!"incompatible descriptions for parameter {name}: '{left}' and '{right}'"

end DeclarationError

/-! ## Readers -/

namespace Declaration

/-- The outcome of reading a declaration. -/
abbrev Result (α : Type) : Type := Except DeclarationError α

/-- The entries of a mapping. -/
def mapping (element : String) (node : Node) : Result (List (Node × Node)) :=
  match node.asMapping? with
  | some entries => .ok entries
  | none => .error (.malformed element .notMapping)

/-- The entries of a mapping whose keys fit the schema of the element. -/
def fields (element : String) (mandatory optional : List String) (node : Node) :
    Result (List (Node × Node)) :=
  match mapping element node with
  | .error e => .error e
  | .ok entries =>
    match Schema.check element mandatory optional entries with
    | .error e => .error (.schema e)
    | .ok () => .ok entries

/-- A mandatory field of entries that fit the schema of the element. -/
def field (element : String) (entries : List (Node × Node)) (name : String) : Result Node :=
  match Node.field? entries name with
  | some node => .ok node
  | none => .error (.malformed element (.lostField name))

theorem field_eq_ok_iff {element name : String} {entries : List (Node × Node)} {node : Node} :
    field element entries name = .ok node ↔ Node.field? entries name = some node := by
  unfold field
  cases Node.field? entries name <;> simp

/-- A string, or a number by its text. -/
def string (element field : String) (node : Node) : Result String :=
  match node with
  | .str s => .ok s
  | .int _ | .float _ => .ok node.text
  | _ => .error (.malformed element (.fieldNotString field))

/-- A list of strings. -/
def strings (element field : String) (node : Node) : Result (List String) :=
  match node.asSequence? with
  | some items => items.mapM (string element field)
  | none => .error (.malformed element (.fieldNotList field))

/-- The outcome of a cell as that of the declaration it stands in. -/
def ofCell {α : Type} (result : Except CellError α) : Result α :=
  result.mapError .cell

end Declaration

end PartCatalog
