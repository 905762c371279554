/-
# Contacts -- a name with an address in angle brackets

The name is all text before the first `<`, the address all text after it up to
the next `>`, or to the end if there is none; blanks around both are dropped. A
text without `<` is no contact.
-/
import PartCatalog.Json.Basic
import PartCatalog.Node.Text
import PartCatalog.Text.Blank

set_option autoImplicit false

namespace PartCatalog

/-- An author with a mail address, or a licence with its location. -/
structure Contact where
  name : String
  address : String
deriving DecidableEq, Repr

namespace Contact

/-- The contact written in a text. -/
def ofText? (raw : String) : Option Contact :=
  let cs := raw.toList
  match cs.dropWhile (· ≠ '<') with
  | [] => none
  | _ :: rest => some {
      name := String.ofList (Text.trimChars (cs.takeWhile (· ≠ '<')))
      address := String.ofList (Text.trimChars (rest.takeWhile (· ≠ '>'))) }

def toJson (contact : Contact) : Json :=
  .object [("name", .string contact.name), ("address", .string contact.address)]

end Contact

end PartCatalog
