/-
# Checking a repository -- classes against their bases

A class fails the check if its parameters do not go together with those of its
base. A class that passes may still have a name template with a parameter that
neither has; such a name can never be formed.
-/
import PartCatalog.Repository.Basic

set_option autoImplicit false

namespace PartCatalog

/-- A name template with a parameter that the class does not have. -/
structure UnknownSubstitute where
  class_ : String
  parameter : String
deriving DecidableEq, Repr

/-- The text shown for the warning. -/
def UnknownSubstitute.message (u : UnknownSubstitute) : String :=
  "naming substitutes unknown parameter class=" ++ u.class_ ++ " parameter=" ++ u.parameter

/-- What a check finds, in the order of the classes. -/
structure Findings where
  failures : List (String × LoadError)
  unknown : List UnknownSubstitute

namespace Findings

def none : Findings := ⟨[], []⟩

def append (a b : Findings) : Findings := ⟨a.failures ++ b.failures, a.unknown ++ b.unknown⟩

end Findings

namespace PartClass

/-- The parameters in the name template of a class that are not among some parameters. -/
def unknownSubstitutes (c : PartClass) (params : ParameterSet) : List UnknownSubstitute :=
  (c.naming.substitute.filter fun name => !params.parameters.contains name).map fun name =>
    ⟨c.name, name⟩

end PartClass

namespace Repository

/-- What a check finds in one class. -/
def checkClass (repo : Repository) (c : PartClass) : Findings :=
  match repo.fullParameters c with
  | .error e => ⟨[(c.name, e)], []⟩
  | .ok params => ⟨[], c.unknownSubstitutes params⟩

/-- What a check finds in a repository. -/
def check (repo : Repository) : Findings :=
  repo.classes.foldl (fun found c => found.append (repo.checkClass c)) Findings.none

end Repository

end PartCatalog
