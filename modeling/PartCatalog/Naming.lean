/-
# Naming -- the display name of a part

A naming pairs a template with the parameters that fill its placeholders in order;
there are as many of the one as of the other. `name` fills the template from the
values of a part and fails on the first parameter without a value.
-/
import PartCatalog.NameMap
import PartCatalog.Naming.Template
import PartCatalog.ResolveError

set_option autoImplicit false

namespace PartCatalog

/-- A template and the parameters for its placeholders. -/
structure Naming where
  template : String
  substitute : List String
  segments : List Segment
  balanced : Template.placeholderCount segments = substitute.length

namespace Naming

/-- The naming of a `{template, substitute?}` element. -/
def ofNode (node : Node) : Declaration.Result Naming := do
  let entries ← Declaration.fields "naming" ["template"] ["substitute"] node
  let template ← Declaration.string "naming" "template" (← Declaration.field "naming" entries "template")
  let substitute ← match Node.field? entries "substitute" with
    | some list => Declaration.strings "naming" "substitute" list
    | none => .ok []
  let segments ← (Template.parse template).mapError (.malformed "naming")
  let placeholders := Template.placeholderCount segments
  if balanced : placeholders = substitute.length then
    return { template, substitute, segments, balanced }
  else .error (.malformed "naming" (.placeholderCount placeholders substitute.length))

/-- Fill the placeholders of the pieces with the parameters in order. -/
def fill (values : NameMap Value) :
    List Segment → List String → Except ResolveError String
  | [], _ => .ok ""
  | .text s :: segments, names => (fill values segments names).map (s ++ ·)
  | .placeholder _ :: _, [] => .ok ""
  | .placeholder conversion :: segments, name :: names =>
    match values.get? name with
    | none => .error (.uncollected name)
    | some value => (fill values segments names).map (conversion.render value ++ ·)

/-- The name of a part with these values. -/
def name (naming : Naming) (values : NameMap Value) : Except ResolveError String :=
  fill values naming.segments naming.substitute

end Naming

end PartCatalog
