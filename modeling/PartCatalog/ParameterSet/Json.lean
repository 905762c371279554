/-
# Parameter sets in JSON
-/
import PartCatalog.Json.Scalar
import PartCatalog.ParameterSet.Basic

set_option autoImplicit false

namespace PartCatalog

namespace Json

/-- A map as an object, its members in ascending order. -/
def ofMap {α : Type} (f : α → Json) (m : NameMap α) : Json :=
  .object (m.toList.map fun (name, x) => (name, f x))

/-- Values by name. -/
def ofValues (values : NameMap Value) : Json := ofMap Value.toJson values

/-- A list of values. -/
def ofRow (row : List Value) : Json := .array (row.map Value.toJson)

end Json

/-- The JSON text of a table. -/
def Table.toJson (table : Table Value) : Json := .object [
  ("index", .string table.index),
  ("columns", .strings table.columns),
  ("data", .ofMap .ofRow table.data)]

/-- The JSON text of a two-way table. -/
def Table2D.toJson (table : Table2D Value) : Json := .object [
  ("rowindex", .string table.rowIndex),
  ("colindex", .string table.colIndex),
  ("columns", .strings table.columns),
  ("result", .string table.result),
  ("data", .ofMap .ofRow table.data)]

/-- The JSON text of a parameter set. -/
def ParameterSet.toJson (params : ParameterSet) : Json := .object [
  ("literal", .ofValues params.literal),
  ("free", .strings params.free),
  ("tables", .array (params.tables.map Table.toJson)),
  ("tables2d", .array (params.tables2d.map Table2D.toJson)),
  ("types", .ofMap (fun type => .string type.label) params.types),
  ("description", .ofMap .string params.description),
  ("defaults", .ofValues params.defaults),
  ("choices", .ofMap .strings params.choices),
  ("common", (params.common.map fun list => Json.array (list.map .ofRow)).getD .null),
  ("parameters", .strings params.parameters.keys)]

end PartCatalog
