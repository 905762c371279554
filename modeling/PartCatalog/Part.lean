/-
# Parts -- a class with a value for every parameter

A part is shown with the name its class gives it and, if a base draws it, with the
statement that does so, as JSON or as YAML with the same keys in the same order.
-/
import PartCatalog.ParameterSet.Json
import PartCatalog.Yaml.Mapping

set_option autoImplicit false

namespace PartCatalog

/-- One part of a class. -/
structure Part where
  class_ : String
  name : String
  values : NameMap Value
  incantation : Option String

namespace Part

def toJson (part : Part) : Json := .object <|
  [("class", .string part.class_), ("name", .string part.name),
    ("values", Json.ofValues part.values)] ++
  (part.incantation.map fun s => ("incantation", Json.string s)).toList

def toYaml (part : Part) : String := Yaml.documentText <|
  [("class", .value (.text part.class_)), ("name", .value (.text part.name)),
    ("values", .values part.values)] ++
  (part.incantation.map fun s => ("incantation", Yaml.Field.value (.text s))).toList

end Part

end PartCatalog
