/-
# Part queries -- the part that assignments choose

An assignment is a text `name=value`; the value is read as a cell of the type of the
free parameter that is named. Assignments change the defaults one after the other.
Unless the base is left out, its parameters belong to the part.
-/
import PartCatalog.CommandLine.Arguments
import PartCatalog.CommandLine.Error
import PartCatalog.ParameterSet.Resolve
import PartCatalog.Part
import PartCatalog.Repository.Basic

set_option autoImplicit false

namespace PartCatalog.PartQuery

/-- A free parameter and the value that an assignment gives it. -/
def assignment (params : ParameterSet) (text : String) :
    Except CommandError (String × Value) :=
  match CommandLine.Word.splitAtEquals text.toList with
  | (_, none) => .error (.notAssignment text)
  | (name, some raw) =>
    if params.free.contains name then
      let type := (params.typeOf? name).getD default
      match type.normalize name (.str raw) with
      | .ok value => .ok (name, value)
      | .error e => .error (.cell e)
    else .error (.notFree name)

/-- The values of the free parameters: the defaults, changed by assignments. -/
def freeValues (params : ParameterSet) (assignments : List String) :
    Except CommandError (NameMap Value) :=
  assignments.foldlM (fun free text => do
    let (name, value) ← assignment params text
    return free.insert name value) params.defaults

/-- The parameters of a class, with or without those of its base. -/
def parameters (repo : Repository) (c : PartClass) (withBase : Bool) :
    Except CommandError ParameterSet :=
  if withBase then (repo.fullParameters c).mapError .load else .ok c.parameters

/-- The statement that draws a part, if a base does. -/
def incantation (repo : Repository) (c : PartClass) (withBase : Bool) (values : NameMap Value) :
    Except CommandError (Option String) :=
  match if withBase then repo.baseFor? c else none with
  | some base => ((base.incantation values).map some).mapError .drawing
  | none => .ok none

/-- The part of a class that assignments choose. -/
def part (repo : Repository) (c : PartClass) (assignments : List String) (withBase : Bool) :
    Except CommandError Part := do
  let params ← parameters repo c withBase
  let free ← freeValues params assignments
  let values ← (params.resolve free).mapError (.inClass c.name)
  let name ← (c.naming.name values).mapError (.inClass c.name)
  let incantation ← incantation repo c withBase values
  return ⟨c.name, name, values, incantation⟩

end PartCatalog.PartQuery
