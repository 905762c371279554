/-
# Union -- the parameters of a class together with those of its base

Literals of the right set win; free lists and tables follow each other. Types,
defaults and descriptions that both sets have must agree, and the smallest name on
which they do not is reported. Choices that both sets give an index are narrowed
to the shared ones. Common combinations are not carried over.
-/
import PartCatalog.ChoiceOrder
import PartCatalog.ParameterSet.Basic

set_option autoImplicit false

namespace PartCatalog

/-- Lay the right map over the left one where they agree on shared names. -/
def NameMap.mergeAgreeing {α ε : Type} (samePayload : α → α → Bool)
    (conflict : String → α → α → ε) (left right : NameMap α) : Except ε (NameMap α) :=
  right.entries.foldlM (fun merged (name, theirs) =>
    match merged.get? name with
    | some ours =>
      if samePayload ours theirs then .ok (merged.insert name theirs)
      else .error (conflict name ours theirs)
    | none => .ok (merged.insert name theirs)) left

namespace ParameterSet

/-- Narrow the left choices by the right ones, index by index. -/
def mergeChoices (left right : NameMap (List String)) : NameMap (List String) :=
  right.entries.foldl (fun choices (name, theirs) =>
    let merged := match choices.get? name with
      | some ours => ours.filter (· ∈ theirs)
      | none => theirs
    choices.insert name (ChoiceOrder.sort merged)) left

/-- Both sets as one. -/
def union (left right : ParameterSet) : Declaration.Result ParameterSet := do
  let types ← left.types.mergeAgreeing (· == ·) .incompatibleTypes right.types
  let defaults ← left.defaults.mergeAgreeing Value.same .incompatibleDefaults right.defaults
  let description ←
    left.description.mergeAgreeing (· == ·) .incompatibleDescriptions right.description
  return {
    literal := left.literal.overlay right.literal
    free := left.free ++ right.free
    tables := left.tables ++ right.tables
    tables2d := left.tables2d ++ right.tables2d
    types, description, defaults
    choices := mergeChoices left.choices right.choices
    common := none
    parameters := left.parameters.union right.parameters }

end ParameterSet

end PartCatalog
