/-
# Schemas -- which fields an element may and must have

Every element of a description is a mapping with fixed mandatory and optional
fields. `check` refuses the first key that is neither, in document order, and
then reports all mandatory fields that no key names, in their declared order.
Keys count by their text, so `8` and `"8"` are the same field.
-/
import PartCatalog.Node.Text

set_option autoImplicit false

namespace PartCatalog

/-- What is wrong with the fields of an element. -/
inductive SchemaError where
  | unknownField (element field : String)
  | missingFields (element : String) (fields : List String)
deriving DecidableEq, Repr

namespace SchemaError

/-- The text shown for the error. -/
def message : SchemaError → String
  | .unknownField element field => s!"unknown field {field} in {element}"
  | .missingFields element fields =>
    let names := String.intercalate ", " fields
    s!"missing mandatory field(s) {names} in {element}"

end SchemaError

namespace Schema

/-- Walk the keys with the mandatory fields not seen yet. A key takes the first of
them with its text; a key that takes none must still be a known field. -/
def checkKeys (element : String) (mandatory optional : List String) :
    List String → List String → Except SchemaError (List String)
  | remaining, [] => .ok remaining
  | remaining, key :: keys =>
    if key ∈ remaining then checkKeys element mandatory optional (remaining.erase key) keys
    else if key ∈ mandatory ∨ key ∈ optional then
      checkKeys element mandatory optional remaining keys
    else .error (.unknownField element key)

/-- Check the keys of a mapping against the fields of an element. -/
def check (element : String) (mandatory optional : List String)
    (entries : List (Node × Node)) : Except SchemaError Unit :=
  match checkKeys element mandatory optional mandatory (entries.map fun e => e.1.text) with
  | .error e => .error e
  | .ok [] => .ok ()
  | .ok missing => .error (.missingFields element missing)

end Schema

end PartCatalog
