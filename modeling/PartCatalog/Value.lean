/-
# Values -- what a parameter can have

A value is absent, a bool, a number or a text. Values are compared as their
numbers are, so not-a-number differs from itself. `ofNode` reads a scalar of no
declared type, looking through tags; the string `None` is the absent value.
-/
import PartCatalog.Node.Text

set_option autoImplicit false

namespace PartCatalog

/-- The value of a parameter. -/
inductive Value where
  | absent
  | bool (b : Bool)
  | number (x : Binary64)
  | text (s : String)
deriving DecidableEq

namespace Value

instance : Inhabited Value := ⟨.absent⟩

/-- Equality as the numbers in the values have it. -/
def same : Value → Value → Bool
  | .absent, .absent => true
  | .bool a, .bool b => a == b
  | .number x, .number y => x.numEq y
  | .text s, .text t => s == t
  | _, _ => false

/-- The text shown for a value, which is also its key into a table. -/
def display : Value → String
  | .absent => "None"
  | .bool true => "True"
  | .bool false => "False"
  | .number x => Layout.plain.text x
  | .text s => s

/-- The value a scalar denotes by itself; a sequence or a mapping is a text. -/
def ofNode : Node → Value
  | .null => .absent
  | .bool b => .bool b
  | .int n => .number (Binary64.ofInt n)
  | .float x => .number x
  | .str s => if s = "None" then .absent else .text s
  | .tagged _ value => ofNode value
  | .seq items => .text (Node.text (.seq items))
  | .map entries => .text (Node.text (.map entries))

def asText? : Value → Option String
  | .text s => some s
  | _ => none

def asNumber? : Value → Option Binary64
  | .number x => some x
  | _ => none

def asBool? : Value → Option Bool
  | .bool b => some b
  | _ => none

def isAbsent : Value → Bool
  | .absent => true
  | _ => false

end Value

end PartCatalog
