/-
# Parameter types -- the six types and the cells that fit them

A type has a label, a default, and a rule `normalize` that turns the raw node of a
cell into a value of the type. Null and the string `None` are absent under every
type; a number may be written as a number or as text; a length is not negative; a
bool is a bool or the words `True` and `False`. One tag is looked through, what is
below a second tag is not.
-/
import PartCatalog.Value
import PartCatalog.Binary64.Reader
import PartCatalog.Text.Blank

set_option autoImplicit false

namespace PartCatalog

/-- The type of a parameter. -/
inductive ParameterType where
  | lengthMm
  | lengthInch
  | number
  | bool
  | tableIndex
  | string
deriving DecidableEq, Repr

/-- What is wrong with a cell, a row or an index. -/
inductive CellError where
  | invalidNumber (param raw : String)
  | negativeLength (param : String) (value : Binary64)
  | invalidBool (param raw : String)
  | nonScalar (param : String)
  | indexNotTableIndex (param : String) (found : ParameterType)
  | rowLength (key : String) (expected found : Nat)
  | sameIndex (name : String)
deriving DecidableEq

namespace ParameterType

/-- The type of every parameter without a declared one. -/
instance : Inhabited ParameterType := ⟨.lengthMm⟩

/-- All types. -/
def all : List ParameterType :=
  [.lengthMm, .lengthInch, .number, .bool, .tableIndex, .string]

/-- The label as it stands in descriptions. -/
def label : ParameterType → String
  | .lengthMm => "Length (mm)"
  | .lengthInch => "Length (in)"
  | .number => "Number"
  | .bool => "Bool"
  | .tableIndex => "Table Index"
  | .string => "String"

/-- The type of a label. -/
def ofLabel? (s : String) : Option ParameterType := all.find? fun ty => ty.label = s

/-- The default of a free parameter of the type. -/
def defaultValue : ParameterType → Value
  | .lengthMm => .number (Binary64.ofInt 10)
  | .lengthInch => .number (Binary64.ofInt 1)
  | .number => .number (Binary64.ofInt 1)
  | .bool => .bool false
  | .tableIndex => .text ""
  | .string => .text ""

def isNumeric : ParameterType → Bool
  | .lengthMm | .lengthInch | .number => true
  | _ => false

def isLength : ParameterType → Bool
  | .lengthMm | .lengthInch => true
  | _ => false

/-- Whether the values of the type can be listed. -/
def isDiscrete : ParameterType → Bool
  | .bool | .tableIndex => true
  | _ => false

/-- The number a cell is written as, never not-a-number. -/
def readNumber? (raw : Node) : Option Binary64 :=
  let number? := match raw with
    | .int n => some (Binary64.ofInt n)
    | .float x => some x
    | .str s => Binary64.ofText? (Text.trim s)
    | _ => none
  number?.filter fun x => !x.isNaN

/-- A cell of a numeric type. -/
def normalizeNumber (ty : ParameterType) (param : String) (raw : Node) :
    Except CellError Value :=
  match readNumber? raw with
  | none => .error (.invalidNumber param raw.text)
  | some x =>
    if ty.isLength && x.numLt (Binary64.zero false) then .error (.negativeLength param x)
    else .ok (.number x)

/-- A cell of type Bool. -/
def normalizeBool (param : String) (raw : Node) : Except CellError Value :=
  match raw with
  | .bool b => .ok (.bool b)
  | .str s =>
    if s = "True" then .ok (.bool true)
    else if s = "False" then .ok (.bool false)
    else .error (.invalidBool param raw.text)
  | _ => .error (.invalidBool param raw.text)

/-- A present scalar cell. -/
def normalizeScalar (ty : ParameterType) (param : String) (raw : Node) :
    Except CellError Value :=
  match ty with
  | .lengthMm | .lengthInch | .number => normalizeNumber ty param raw
  | .bool => normalizeBool param raw
  | .tableIndex | .string => .ok (.text raw.text)

/-- A cell without its outer tag. -/
def normalizeUntagged (ty : ParameterType) (param : String) (raw : Node) :
    Except CellError Value :=
  match raw with
  | .null => .ok .absent
  | .str s => if s = "None" then .ok .absent else normalizeScalar ty param raw
  | .seq _ | .map _ => .error (.nonScalar param)
  | _ => normalizeScalar ty param raw

/-- The node below the outer tag, if there is one. -/
def dropTag : Node → Node
  | .tagged _ value => value
  | node => node

/-- The value of a raw cell of a parameter of this type. -/
def normalize (ty : ParameterType) (param : String) (raw : Node) : Except CellError Value :=
  normalizeUntagged ty param (dropTag raw)

end ParameterType

namespace CellError

/-- The text shown for the error. -/
def message : CellError → String
  | .invalidNumber param raw => s!"cannot parse '{raw}' as a number for parameter {param}"
  | .negativeLength param value =>
    let shown := Layout.plain.text value
    s!"negative length in table: {shown} for parameter {param}"
  | .invalidBool param raw =>
    s!"cannot parse '{raw}' as a bool for parameter {param}, expected True or False"
  | .nonScalar param => s!"table cell for parameter {param} is not a scalar"
  | .indexNotTableIndex param found =>
    let type := found.label
    s!"table index {param} has type {type}, expected Table Index"
  | .rowLength key expected found => s!"row {key} has {found} values, expected {expected}"
  | .sameIndex name =>
    s!"rowindex and colindex are both {name}, use an ordinary table instead"

end CellError

end PartCatalog
