/-
# Tables -- rows of cells under the keys of an index parameter

A `Table` is read with raw nodes in its cells and, once the type of every
parameter is known, `typed` turns each cell into a value of its column's type.
Only typed tables are looked up. The rows are checked in ascending order of their
keys, each first for its length and then cell by cell.
-/
import PartCatalog.NameMap
import PartCatalog.Declaration

set_option autoImplicit false

namespace PartCatalog

/-- The declared type of each parameter. -/
abbrev TypeMap : Type := NameMap ParameterType

/-- The type of a parameter, the default type if none is declared. -/
def TypeMap.typeOf (types : TypeMap) (name : String) : ParameterType :=
  (NameMap.get? types name).getD default

/-- A table: for each row key one cell for each column. -/
structure Table (cell : Type) where
  index : String
  columns : List String
  data : NameMap (List cell)

namespace Table

/-! ## Reading -/

/-- The rows of a data mapping, each under the text of its key; of two keys with
one text the later counts. -/
def rows (element : String) (node : Node) : Declaration.Result (NameMap (List Node)) := do
  let entries ← Declaration.mapping element node
  let rows ← entries.mapM fun (key, row) =>
    match row.asSequence? with
    | some cells => .ok (key.text, cells)
    | none => .error (.malformed element (.rowNotList key.text))
  return NameMap.ofList rows

/-- The table of a `{index, columns, data}` element. -/
def ofNode (node : Node) : Declaration.Result (Table Node) := do
  let entries ← Declaration.fields "table" ["index", "columns", "data"] [] node
  let field := Declaration.field "table" entries
  let index ← Declaration.string "table" "index" (← field "index")
  let columns ← Declaration.strings "table" "columns" (← field "columns")
  let data ← rows "table" (← field "data")
  return { index, columns, data }

/-! ## Typing -/

/-- An index must be of the type that keys tables. -/
def requireIndex (types : TypeMap) (name : String) : Except CellError Unit :=
  match types.typeOf name with
  | .tableIndex => .ok ()
  | found => .error (.indexNotTableIndex name found)

/-- The values of a row whose cells belong to the given parameters. -/
def typedRow (types : TypeMap) (parameters : List String) (key : String) (row : List Node) :
    Except CellError (List Value) :=
  if row.length = parameters.length then
    (parameters.zip row).mapM fun (name, cell) => (types.typeOf name).normalize name cell
  else .error (.rowLength key parameters.length row.length)

/-- The table with every cell as a value of its column's type. -/
def typed (types : TypeMap) (table : Table Node) : Except CellError (Table Value) := do
  requireIndex types table.index
  let data ← table.data.traverse (typedRow types table.columns)
  return { table with data }

/-! ## Looking up -/

variable {cell : Type}

/-- The row under a key. -/
def row? (table : Table cell) (key : String) : Option (List cell) := table.data.get? key

/-- The keys of the rows, which are the legal values of the index. -/
def keys (table : Table cell) : List String := table.data.keys

/-- The index and the columns. -/
def parameters (table : Table cell) : List String := table.index :: table.columns

/-- Equality of tables, given one of cells. -/
def same (sameCell : cell → cell → Bool) (a b : Table cell) : Bool :=
  a.index == b.index && a.columns == b.columns &&
    a.data.same (fun r s => List.isEqv r s sameCell) b.data

end Table

end PartCatalog
