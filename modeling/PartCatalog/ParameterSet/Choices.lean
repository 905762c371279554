/-
# Choices -- the legal values of a free index

A free Table Index parameter may take the keys that every table it indexes has:
the row keys of the tables and two-way tables whose rows it selects, and the
columns of the two-way tables whose columns it selects. An index that no table
uses has no choices at all, which is not the same as an empty list.
-/
import PartCatalog.ChoiceOrder
import PartCatalog.Table2D

set_option autoImplicit false

namespace PartCatalog.Choices

/-- The key sets of all tables that use an index. -/
def keySets (tables : List (Table Value)) (tables2d : List (Table2D Value)) (name : String) :
    List NameSet :=
  (tables.filter (·.index = name)).map (NameSet.ofNames ·.keys) ++
    (tables2d.filter (·.rowIndex = name)).map (NameSet.ofNames ·.rowKeys) ++
    (tables2d.filter (·.colIndex = name)).map (NameSet.ofNames ·.columns)

/-- The names in all of the sets, if there is a set. -/
def common? : List NameSet → Option NameSet
  | [] => none
  | first :: rest => some (rest.foldl NameSet.inter first)

/-- The choices of one index, in the order they are presented. -/
def ofIndex? (tables : List (Table Value)) (tables2d : List (Table2D Value)) (name : String) :
    Option (List String) :=
  (common? (keySets tables tables2d name)).map fun keys => ChoiceOrder.sort keys.keys

/-- The choices of every free Table Index parameter that a table uses. -/
def compute (free : List String) (types : TypeMap) (tables : List (Table Value))
    (tables2d : List (Table2D Value)) : NameMap (List String) :=
  NameMap.ofList <| free.filterMap fun name =>
    if types.get? name = some .tableIndex then
      (ofIndex? tables tables2d name).map fun choices => (name, choices)
    else none

end PartCatalog.Choices
