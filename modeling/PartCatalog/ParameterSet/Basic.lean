/-
# Parameter sets -- the parameters of a class or a base

A parameter has its value from a literal, from the caller (a free parameter), or
from a table under the value of its index. `types` has an entry for each of the
`parameters`, `defaults` one for each free one, `choices` one for each free index
that some table uses. `common` lists combinations worth offering, each in the
order of `free`.
-/
import PartCatalog.Combinations
import PartCatalog.Table2D

set_option autoImplicit false

namespace PartCatalog

/-- The parameters of a class or a base, with everything declared about them. -/
structure ParameterSet where
  literal : NameMap Value
  free : List String
  tables : List (Table Value)
  tables2d : List (Table2D Value)
  types : TypeMap
  description : NameMap String
  defaults : NameMap Value
  choices : NameMap (List String)
  common : Option (List (List Value))
  parameters : NameSet

namespace ParameterSet

/-- The set without parameters. It has one combination, the empty one. -/
def empty : ParameterSet where
  literal := NameMap.empty
  free := []
  tables := []
  tables2d := []
  types := NameMap.empty
  description := NameMap.empty
  defaults := NameMap.empty
  choices := NameMap.empty
  common := some [[]]
  parameters := NameMap.empty

instance : Inhabited ParameterSet := ⟨empty⟩

/-- The type of a parameter of the set. -/
def typeOf? (params : ParameterSet) (name : String) : Option ParameterType :=
  params.types.get? name

/-- Equality of lists of combinations. -/
def sameCommon : Option (List (List Value)) → Option (List (List Value)) → Bool
  | none, none => true
  | some a, some b => List.isEqv a b fun v w => List.isEqv v w Value.same
  | _, _ => false

/-- Equality of sets as their values have it: a set with not-a-number in it differs
from itself. -/
def same (a b : ParameterSet) : Bool :=
  a.literal.same Value.same b.literal && a.free == b.free &&
    List.isEqv a.tables b.tables (Table.same Value.same) &&
    List.isEqv a.tables2d b.tables2d (Table2D.same Value.same) &&
    a.types.same (· == ·) b.types && a.description.same (· == ·) b.description &&
    a.defaults.same Value.same b.defaults && a.choices.same (· == ·) b.choices &&
    sameCommon a.common b.common && a.parameters.keys == b.parameters.keys

end ParameterSet

end PartCatalog
