/-
# Part classes -- one kind of part under one name

A class element with a list of standard names stands for one class under each of
them; all share everything else. An element without a standard is a class under
its id, and then its status and what it replaces are not looked at.
-/
import PartCatalog.Element
import PartCatalog.Naming
import PartCatalog.ParameterSet.Json
import PartCatalog.StandardBody

set_option autoImplicit false

namespace PartCatalog

/-- Whether a standard is still in force. -/
inductive Status where
  | active
  | withdrawn
deriving DecidableEq, Repr

namespace Status

def label : Status → String
  | .active => "active"
  | .withdrawn => "withdrawn"

def ofLabel? (s : String) : Option Status :=
  if s = "active" then some .active
  else if s = "withdrawn" then some .withdrawn
  else none

end Status

/-- A part class. `replacedBy` and `standardBody` are found out when all classes of
a repository are known. -/
structure PartClass where
  id : String
  name : String
  openscadName : String
  naming : Naming
  drawing : Option String
  description : String
  standard : Option (List String)
  status : Status
  replaces : Option String
  replacedBy : Option String
  standardBody : Option StandardBody
  parameters : ParameterSet
  url : String
  notes : String
  source : String

namespace PartClass

def mandatory : List String := ["naming", "source", "id"]

def optional : List String :=
  ["drawing", "description", "standard", "status", "replaces", "parameters", "url", "notes"]

/-- A name with the characters replaced that an identifier cannot have. -/
def identifier (name : String) : String :=
  String.ofList <| name.toList.map fun c => if c = '-' ∨ c = ' ' ∨ c = '.' then '_' else c

/-- The status of a class with a standard. -/
def readStatus (status : Option Node) : Load.Result Status :=
  match status with
  | none => .ok .active
  | some node =>
    match Status.ofLabel? node.text with
    | some status => .ok status
    | none => Load.fail (.malformedClass (.unknownStatus node.text))

/-- The status of an element. Without a standard it is not looked at. -/
def elementStatus (entries : List (Node × Node)) : Load.Result Status :=
  match Node.field? entries "standard" with
  | none => .ok .active
  | some _ => readStatus (Node.field? entries "status")

/-- The class under one name, without a place. -/
def ofFields (entries : List (Node × Node)) (name : String) : Load.Result PartClass := do
  Element.check "class" mandatory optional entries
  let naming ← Load.ofDeclaration (Naming.ofNode (← Element.field "class" entries "naming"))
  let status ← elementStatus entries
  let parameters ← Element.parameters (Node.field? entries "parameters")
  let id ← Element.field "class" entries "id"
  let source ← Element.field "class" entries "source"
  let standard := Node.field? entries "standard"
  return {
    id := id.text
    name
    openscadName := identifier name
    naming
    drawing := (Node.field? entries "drawing").map Node.text
    description := Element.text entries "description"
    standard := standard.map Node.texts
    status
    replaces := standard.bind fun _ => (Node.field? entries "replaces").map Node.text
    replacedBy := none
    standardBody := none
    parameters
    url := Element.text entries "url"
    notes := Element.text entries "notes"
    source := source.text }

/-- The class under one name, errors placed in the class of the element's id. -/
def ofFieldsWithin (entries : List (Node × Node)) (name : String) : Load.Result PartClass :=
  Load.within .class_ (Element.text entries "id") (ofFields entries name)

/-- The names of an element: its standard, or else its id. -/
def elementNames (entries : List (Node × Node)) : List String :=
  match (Node.field? entries "standard").or (Node.field? entries "id") with
  | some node => node.texts
  | none => []

/-- The classes of an element, one for each of its names. An element without names
is read once all the same, for the error it has. -/
def ofNode (node : Node) : Load.Result (List PartClass) :=
  match node.asMapping? with
  | none => Load.fail (.malformedClass .notMapping)
  | some entries =>
    match elementNames entries with
    | [] => (ofFieldsWithin entries "").map fun c => [c]
    | names => names.mapM (ofFieldsWithin entries)

def toJson (c : PartClass) : Json := .object [
  ("id", .string c.id),
  ("name", .string c.name),
  ("openscad_name", .string c.openscadName),
  ("naming", .object [
    ("template", .string c.naming.template),
    ("substitute", .strings c.naming.substitute)]),
  ("drawing", .optional c.drawing),
  ("description", .string c.description),
  ("standard", (c.standard.map Json.strings).getD .null),
  ("status", .string c.status.label),
  ("replaces", .optional c.replaces),
  ("replaced_by", .optional c.replacedBy),
  ("standard_body", .optional (c.standardBody.map StandardBody.label)),
  ("parameters", c.parameters.toJson),
  ("url", .string c.url),
  ("notes", .string c.notes),
  ("source", .string c.source)]

end PartClass

end PartCatalog
