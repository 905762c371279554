/-
# Command errors -- why a command fails
-/
import PartCatalog.LoadError
import PartCatalog.ResolveError

set_option autoImplicit false

namespace PartCatalog

/-- Why a command fails. -/
inductive CommandError where
  | config (path : String) (error : LoadError)
  | load (error : LoadError)
  | unknownClass (name : String)
  | notAssignment (text : String)
  | notFree (name : String)
  | cell (error : CellError)
  | inClass (name : String) (error : ResolveError)
  | drawing (error : ResolveError)
  | noCommon (name : String)
  | failedClasses (count : Nat)

/-- Whether the program is aborted, and no error is reported. -/
def CommandError.aborts : CommandError → Bool
  | .load error => error.fault.aborts
  | _ => false

/-- The text shown for the error. -/
def CommandError.message : CommandError → String
  | .config path error =>
    let reason := error.message
    s!"Failed to read config '{path}': {reason}"
  | .load error => error.message
  | .unknownClass name => s!"Unknown class '{name}'"
  | .notAssignment text => s!"Expected NAME=VALUE, got '{text}'"
  | .notFree name => s!"'{name}' is not a free parameter"
  | .cell error => error.message
  | .inClass name error => name ++ ": " ++ error.message
  | .drawing error => error.message
  | .noCommon name => s!"Class '{name}' has no enumerable common parameters"
  | .failedClasses count => s!"{count} class(es) failed to combine with their base"

end PartCatalog
