/-
# Common combinations -- declared, or all of them

A combination gives each free parameter a value. Declared combinations are written
as one domain for each free parameter, or as a list of such; a domain is a list of
values or `:` for every value of the parameter. Where nothing is declared, all
combinations are common if every free parameter has a list of values, and none are
listed otherwise.
-/
import PartCatalog.ParameterSet.Basic

set_option autoImplicit false

namespace PartCatalog.ParameterSet

/-- The word for every value of a parameter. -/
def fullDomainWord : String := ":"

/-- Every value of a free parameter. -/
def fullDomain (params : ParameterSet) (name : String) : Except CommonFault (List Value) :=
  match params.types.typeOf name with
  | .bool => .ok [.bool true, .bool false]
  | .tableIndex =>
    match params.choices.get? name with
    | some choices => .ok (choices.map .text)
    | none => .error (.noChoices name)
  | other => .error (.notEnumerable name other)

/-- All combinations, if every free parameter has a list of values. -/
def allCombinations? (params : ParameterSet) : Option (List (List Value)) :=
  (params.free.mapM fun name => (params.fullDomain name).toOption).map crossProduct

/-- The domain of one position of a combination. -/
def positionDomain (params : ParameterSet) (name : String) (position : Node) :
    Declaration.Result (List Value) :=
  match position with
  | .str word =>
    if word = fullDomainWord then (params.fullDomain name).mapError .common
    else .error (.common (.badPosition name))
  | .seq cells =>
    cells.mapM fun cell => Declaration.ofCell ((params.types.typeOf name).normalize name cell)
  | _ => .error (.common (.badPosition name))

/-- The combinations of one list of positions. -/
def expandPositions (params : ParameterSet) (positions : List Node) :
    Declaration.Result (List (List Value)) :=
  if positions.length = params.free.length then
    ((params.free.zip positions).mapM fun (name, position) =>
      params.positionDomain name position).map crossProduct
  else .error (.common (.positionCount params.free.length positions.length))

/-- Whether a node can be a position: an untagged list, or `:` tagged or not. -/
def isPosition : Node → Bool
  | .seq _ => true
  | node => node.asString? = some fullDomainWord

/-- The positions of a node that is a list of positions. -/
def positions? (node : Node) : Option (List Node) :=
  node.asSequence?.filter fun positions => positions.all isPosition

/-- The combinations of a declaration: of each list of positions in turn if it is a
list of those and not empty, else of the declaration as one list of positions. -/
def expandCommon (params : ParameterSet) (declared : Node) :
    Declaration.Result (List (List Value)) :=
  match declared.asSequence? with
  | none => .error (.malformed "common" .notList)
  | some [] => params.expandPositions []
  | some (item :: items) =>
    match (item :: items).mapM positions? with
    | some lists => (lists.mapM params.expandPositions).map List.flatten
    | none => params.expandPositions (item :: items)

end PartCatalog.ParameterSet
