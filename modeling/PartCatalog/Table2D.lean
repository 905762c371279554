/-
# Two-way tables -- one result for a row key and a column key

A `Table2D` has two index parameters, one for its rows and one for its columns,
and gives a single result parameter. The two indices are different parameters.
-/
import PartCatalog.Table

set_option autoImplicit false

namespace PartCatalog

/-- A two-way table: the cells of a row stand in the order of the columns. -/
structure Table2D (cell : Type) where
  rowIndex : String
  colIndex : String
  columns : List String
  result : String
  data : NameMap (List cell)

namespace Table2D

/-- The fields of the element, all of them mandatory. -/
def mandatory : List String := ["rowindex", "colindex", "columns", "result", "data"]

/-- The table of a `{rowindex, colindex, columns, result, data}` element. -/
def ofNode (node : Node) : Declaration.Result (Table2D Node) := do
  let entries ← Declaration.fields "table2d" mandatory [] node
  let field := Declaration.field "table2d" entries
  let rowIndex ← Declaration.string "table2d" "rowindex" (← field "rowindex")
  let colIndex ← Declaration.string "table2d" "colindex" (← field "colindex")
  if rowIndex = colIndex then .error (.cell (.sameIndex rowIndex))
  else
    let columns ← Declaration.strings "table2d" "columns" (← field "columns")
    let result ← Declaration.string "table2d" "result" (← field "result")
    let data ← Table.rows "table2d" (← field "data")
    return { rowIndex, colIndex, columns, result, data }

/-- The values of a row, all of the result's type. -/
def typedRow (types : TypeMap) (result : String) (columns : List String) (key : String)
    (row : List Node) : Except CellError (List Value) :=
  if row.length = columns.length then
    row.mapM fun cell => (types.typeOf result).normalize result cell
  else .error (.rowLength key columns.length row.length)

/-- The table with every cell as a value of the result's type. -/
def typed (types : TypeMap) (table : Table2D Node) : Except CellError (Table2D Value) := do
  Table.requireIndex types table.rowIndex
  Table.requireIndex types table.colIndex
  let data ← table.data.traverse (typedRow types table.result table.columns)
  return { table with data }

variable {cell : Type}

/-- The cell under the first column of that name in the row of that key. -/
def lookup? (table : Table2D cell) (row col : String) : Option cell :=
  match table.columns.findIdx? (· = col) with
  | none => none
  | some pos => (table.data.get? row).bind (·[pos]?)

/-- The keys of the rows. -/
def rowKeys (table : Table2D cell) : List String := table.data.keys

/-- The two indices and the result. -/
def parameters (table : Table2D cell) : List String :=
  [table.rowIndex, table.colIndex, table.result]

/-- Equality of two-way tables, given one of cells. -/
def same (sameCell : cell → cell → Bool) (a b : Table2D cell) : Bool :=
  a.rowIndex == b.rowIndex && a.colIndex == b.colIndex && a.columns == b.columns &&
    a.result == b.result && a.data.same (fun r s => List.isEqv r s sameCell) b.data

end Table2D

end PartCatalog
