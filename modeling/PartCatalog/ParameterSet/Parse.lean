/-
# Reading parameter sets -- the sections of a `parameters` element

The sections are read in a fixed order, which decides between two errors: literal,
free, the tables as written, types, descriptions, the cells of the tables,
defaults, common combinations. A parameter is every name that a literal, the free
list or a table brings up; only those may have a type or a description.
-/
import PartCatalog.ParameterSet.Choices
import PartCatalog.ParameterSet.Common

set_option autoImplicit false

namespace PartCatalog.ParameterSet

/-- The sections of the element, all of them optional. -/
def sections : List String :=
  ["literal", "free", "tables", "tables2d", "types", "defaults", "common", "description"]

/-- The literal section. -/
def readLiteral (literal : Option Node) : Declaration.Result (NameMap Value) := do
  match literal with
  | none => return NameMap.empty
  | some node =>
    let entries ← Declaration.mapping "literal" node
    return NameMap.ofList (entries.map fun (key, value) => (key.text, Value.ofNode value))

/-- The free section. -/
def readFree (free : Option Node) : Declaration.Result (List String) :=
  match free with
  | none => .ok []
  | some node => Declaration.strings "parameters" "free" node

/-- A section that holds one element, or an untagged list of them. -/
def readMany {α : Type} (read : Node → Declaration.Result α) (section? : Option Node) :
    Declaration.Result (List α) :=
  match section? with
  | none => .ok []
  | some (.seq items) => items.mapM read
  | some node => (read node).map fun x => [x]

/-- Every parameter name that the sections bring up. -/
def parameterNames (literal : NameMap Value) (free : List String) (tables : List (Table Node))
    (tables2d : List (Table2D Node)) : NameSet :=
  NameSet.ofNames (literal.keys ++ free ++ tables.flatMap (·.parameters) ++
    tables2d.flatMap (·.parameters))

/-- The entries of a section whose keys must be parameters, each read in turn. -/
def readNamed {α : Type} (place : String) (parameters : NameSet)
    (read : String → Node → Declaration.Result α) (section? : Option Node) :
    Declaration.Result (NameMap α) := do
  match section? with
  | none => return NameMap.empty
  | some node =>
    let entries ← Declaration.mapping place node
    let named ← entries.mapM fun (key, value) =>
      if parameters.contains key.text then
        (read key.text value).map fun x => (key.text, x)
      else .error (.unknownParameter place key.text)
    return NameMap.ofList named

/-- A type label. -/
def readType (name : String) (node : Node) : Declaration.Result ParameterType :=
  match Declaration.string "types" name node with
  | .error e => .error e
  | .ok label =>
    match ParameterType.ofLabel? label with
    | some type => .ok type
    | none => .error (.unknownType label)

/-- The types section; a parameter it does not name has the default type. -/
def readTypes (parameters : NameSet) (types : Option Node) : Declaration.Result TypeMap :=
  (readNamed "types" parameters readType types).map fun declared =>
    parameters.mapWithName fun name _ => (declared.get? name).getD default

/-- The description section. -/
def readDescription (parameters : NameSet) (description : Option Node) :
    Declaration.Result (NameMap String) :=
  readNamed "description" parameters (fun _ text => .ok text.text) description

/-- The defaults section; a free parameter it does not name has the default of its
type. -/
def readDefaults (free : List String) (types : TypeMap) (defaults : Option Node) :
    Declaration.Result (NameMap Value) := do
  let entries ← match defaults with
    | none => .ok []
    | some node => Declaration.mapping "defaults" node
  let declared ← entries.mapM fun (key, cell) =>
    let name := key.text
    if name ∈ free then
      (Declaration.ofCell ((types.typeOf name).normalize name cell)).map fun v => (name, v)
    else .error (.nonFreeDefault name)
  let declared := NameMap.ofList declared
  return (NameSet.ofNames free).mapWithName fun name _ =>
    (declared.get? name).getD (types.typeOf name).defaultValue

/-- The parameter set of a `parameters` element. -/
def ofNode (node : Node) : Declaration.Result ParameterSet := do
  let entries ← Declaration.fields "parameters" [] sections node
  let literal ← readLiteral (Node.field? entries "literal")
  let free ← readFree (Node.field? entries "free")
  let rawTables ← readMany Table.ofNode (Node.field? entries "tables")
  let rawTables2d ← readMany Table2D.ofNode (Node.field? entries "tables2d")
  let parameters := parameterNames literal free rawTables rawTables2d
  let types ← readTypes parameters (Node.field? entries "types")
  let description ← readDescription parameters (Node.field? entries "description")
  let tables ← Declaration.ofCell (rawTables.mapM (Table.typed types))
  let tables2d ← Declaration.ofCell (rawTables2d.mapM (Table2D.typed types))
  let defaults ← readDefaults free types (Node.field? entries "defaults")
  let choices := Choices.compute free types tables tables2d
  let params : ParameterSet :=
    { literal, free, tables, tables2d, types, description, defaults, choices, parameters
      common := none }
  match Node.field? entries "common" with
  | some declared => (params.expandCommon declared).map fun list => { params with common := some list }
  | none => return { params with common := params.allCombinations? }

end PartCatalog.ParameterSet
