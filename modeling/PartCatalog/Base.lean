/-
# Bases -- how parts of a class are drawn

A base serves the classes whose ids it lists, with a module called with arguments
or with a mesh imported as it is. `incantation` is the statement that draws a part
with given values: each argument is one literal, and in a string literal the quote
and the backslash are escaped.
-/
import PartCatalog.Contact
import PartCatalog.Element
import PartCatalog.ParameterSet.Json
import PartCatalog.ResolveError

set_option autoImplicit false

namespace PartCatalog

/-- What a base provides. -/
inductive BaseKind where
  | module (name : String) (arguments : List String)
  | stl
deriving DecidableEq, Repr

/-- One base and the ids of the classes it serves. -/
structure Base where
  collection : String
  filename : String
  authors : List Contact
  license : Contact
  source : String
  classIds : List String
  kind : BaseKind
  parameters : ParameterSet

namespace Base

/-! ## Reading -/

/-- The texts of an untagged list. -/
def strings (field : String) (node : Node) : Load.Result (List String) :=
  match node with
  | .seq items => .ok (items.map Node.text)
  | _ => Load.fail (.malformedBase (.fieldNotList field))

/-- A contact of a base entry. -/
def contact (field : String) : String → Load.Result Contact :=
  Element.contact fun raw => .malformedBase (.badContact field raw)

/-- A base with the authors, licence and source of its entry. -/
def ofHeader (collection : String) (entries : List (Node × Node)) (kind : BaseKind)
    (classIds : List String) (parameters : Option Node) : Load.Result Base := do
  let authors ← (← Element.field "base" entries "author").texts.mapM (contact "author")
  let license ← contact "license" (← Element.field "base" entries "license").text
  let parameters ← Element.parameters parameters
  let filename ← Element.field "base" entries "filename"
  return {
    collection
    filename := filename.text
    authors, license
    source := Element.text entries "source"
    classIds, kind, parameters }

/-- The base of one module of an entry. -/
def ofModule (collection : String) (header : List (Node × Node)) (module : Node) :
    Load.Result Base := do
  let entries ← match module.asMapping? with
    | some entries => .ok entries
    | none => Load.fail (.malformedBase .moduleNotMapping)
  Element.check "module" ["name", "arguments", "classids"] ["parameters"] entries
  let name ← Element.field "module" entries "name"
  let arguments ← strings "arguments" (← Element.field "module" entries "arguments")
  let classIds ← strings "classids" (← Element.field "module" entries "classids")
  ofHeader collection header (.module name.text arguments) classIds (Node.field? entries "parameters")

/-- The bases of an entry: one for each module, or the one mesh. -/
def ofEntry (collection : String) (entries : List (Node × Node)) : Load.Result (List Base) :=
  let type := Element.text entries "type"
  if type = "module" then do
    Element.check "base module" ["filename", "author", "license", "type", "modules"] ["source"] entries
    match (← Element.field "base module" entries "modules").asSequence? with
    | some modules => modules.mapM (ofModule collection entries)
    | none => Load.fail (.malformedBase .modulesNotList)
  else if type = "stl" then do
    Element.check "base stl" ["filename", "author", "license", "type", "classids"]
      ["source", "parameters"] entries
    let classIds ← strings "classids" (← Element.field "base stl" entries "classids")
    let base ← ofHeader collection entries .stl classIds (Node.field? entries "parameters")
    return [base]
  else Load.fail (.malformedBase (.unknownType type))

/-- The bases of one item of a base file, errors placed in its file name. -/
def ofItem (collection : String) (item : Node) : Load.Result (List Base) :=
  match item.asMapping? with
  | none => Load.fail (.malformedBase .entryNotMapping)
  | some entries =>
    Load.within .base (Element.text entries "filename") (ofEntry collection entries)

/-- The bases of a base file, in order. -/
def ofDocument (collection : String) (document : Node) : Load.Result (List Base) :=
  match document.asSequence? with
  | none => Load.fail (.malformedBase .notList)
  | some items => (items.mapM (ofItem collection)).map List.flatten

/-! ## Drawing -/

/-- A character inside a string literal. -/
def literalChar (c : Char) : List Char :=
  if c = '"' then ['\\', '"'] else if c = '\\' then ['\\', '\\'] else [c]

/-- A string literal. -/
def stringLiteral (s : String) : String :=
  String.ofList ('"' :: (s.toList.flatMap literalChar ++ ['"']))

/-- The literal of a value. -/
def literal : Value → String
  | .absent => "undef"
  | .bool b => if b then "true" else "false"
  | .number x => Layout.plain.text x
  | .text s => stringLiteral s

/-- The literal of an argument. -/
def argument (values : NameMap Value) (name : String) : Except ResolveError String :=
  match values.get? name with
  | some value => .ok (literal value)
  | none => .error (.uncollected name)

/-- The statement that draws a part with these values. -/
def incantation (base : Base) (values : NameMap Value) : Except ResolveError String :=
  match base.kind with
  | .module name arguments =>
    (arguments.mapM (argument values)).map fun literals =>
      name ++ "(" ++ String.intercalate ", " literals ++ ")"
  | .stl => .ok ("import(\"base/" ++ base.filename ++ "\")")

/-! ## JSON -/

def kindToJson : BaseKind → Json
  | .module name arguments => .object [
      ("type", .string "module"),
      ("name", .string name),
      ("arguments", .strings arguments)]
  | .stl => .object [("type", .string "stl")]

def toJson (base : Base) : Json := .object [
  ("collection", .string base.collection),
  ("filename", .string base.filename),
  ("authors", .array (base.authors.map Contact.toJson)),
  ("license", base.license.toJson),
  ("source", .string base.source),
  ("classids", .strings base.classIds),
  ("kind", kindToJson base.kind),
  ("parameters", base.parameters.toJson)]

end Base

end PartCatalog
