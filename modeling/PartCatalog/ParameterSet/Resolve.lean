/-
# Resolving -- the value of every parameter for one choice of the free ones

The values grow from the literals: the caller's values are laid over them, then
the row that each table has under the value of its index, then the cell of each
two-way table. What comes later wins. Every parameter must have a value in the
end; the first without one, in ascending order, is reported.
-/
import PartCatalog.ParameterSet.Basic
import PartCatalog.ResolveError

set_option autoImplicit false

namespace PartCatalog.ParameterSet

/-- The text of an index's value. -/
def indexKey (values : NameMap Value) (index : String) : Except ResolveError String :=
  match values.get? index with
  | some value => .ok value.display
  | none => .error (.missingValue index)

/-- Lay the row of a table over the values. -/
def applyTable (values : NameMap Value) (table : Table Value) :
    Except ResolveError (NameMap Value) := do
  let key ← indexKey values table.index
  match table.row? key with
  | some row => return values.insertAll (table.columns.zip row)
  | none => .error (.missingRow table.index key)

/-- Lay the cell of a two-way table over the values. -/
def applyTable2D (values : NameMap Value) (table : Table2D Value) :
    Except ResolveError (NameMap Value) := do
  let rowKey ← indexKey values table.rowIndex
  let colKey ← indexKey values table.colIndex
  match table.data.get? rowKey with
  | none => .error (.missingRow table.rowIndex rowKey)
  | some _ =>
    match table.lookup? rowKey colKey with
    | none => .error (.missingColumn table.colIndex colKey)
    | some value => return values.insert table.result value

/-- The values of all parameters, given those of the free ones. -/
def resolve (params : ParameterSet) (free : NameMap Value) :
    Except ResolveError (NameMap Value) := do
  let rows ← params.tables.foldlM applyTable (params.literal.overlay free)
  let values ← params.tables2d.foldlM applyTable2D rows
  match params.parameters.keys.find? fun name => !values.contains name with
  | some name => .error (.uncollected name)
  | none => return values

end PartCatalog.ParameterSet
