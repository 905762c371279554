/-
# Resolve errors -- why the values of a part cannot be found
-/
set_option autoImplicit false

namespace PartCatalog

/-- Why the values of a part cannot be found. -/
inductive ResolveError where
  | missingValue (index : String)
  | missingRow (index key : String)
  | missingColumn (index key : String)
  | uncollected (name : String)
deriving DecidableEq, Repr

namespace ResolveError

/-- The text shown for the error. -/
def message : ResolveError → String
  | .missingValue index => s!"no value for table index {index}"
  | .missingRow index key => s!"key {key} not found in table indexed by {index}"
  | .missingColumn index key => s!"column {key} not found in table indexed by {index}"
  | .uncollected name => s!"parameter value not collected: {name}"

end ResolveError

end PartCatalog
