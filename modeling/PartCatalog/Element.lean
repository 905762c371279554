/-
# Elements -- what classes, collections and bases are read with

Each of them is a mapping with a schema of its own. `check` holds its keys against the
schema, `field` takes a mandatory field out of it, and `text` the text of an optional
one. `parameters` reads the parameters that it may declare, and `contact` a contact that
it must name.
-/
import PartCatalog.Contact
import PartCatalog.LoadError
import PartCatalog.ParameterSet.Parse

set_option autoImplicit false

namespace PartCatalog.Element

/-- Refuse keys that do not fit the schema of an element. -/
def check (element : String) (mandatory optional : List String)
    (entries : List (Node × Node)) : Load.Result Unit :=
  Load.ofDeclaration ((Schema.check element mandatory optional entries).mapError .schema)

/-- A mandatory field of entries that fit the schema of the element. -/
def field (element : String) (entries : List (Node × Node)) (name : String) : Load.Result Node :=
  Load.ofDeclaration (Declaration.field element entries name)

/-- The text of an optional field, empty if it is not there. -/
def text (entries : List (Node × Node)) (name : String) : String :=
  ((Node.field? entries name).map Node.text).getD ""

/-- The contact in a text, or the fault of a text that is none. -/
def contact (fault : String → LoadFault) (raw : String) : Load.Result Contact :=
  match Contact.ofText? raw with
  | some contact => .ok contact
  | none => Load.fail (fault raw)

/-- The parameters of an element, none if it declares none. -/
def parameters (declared : Option Node) : Load.Result ParameterSet :=
  match declared with
  | none => .ok ParameterSet.empty
  | some node => Load.ofDeclaration (ParameterSet.ofNode node)

end PartCatalog.Element
