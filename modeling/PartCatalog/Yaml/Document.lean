/-
# Documents -- YAML texts as nodes

A local tag, one that starts with an exclamation mark, stays on the node; other
tags of a collection are dropped. No mapping has one key twice.
-/
import PartCatalog.Yaml.Scalar
import PartCatalog.Yaml.Tree

set_option autoImplicit false

namespace PartCatalog.Yaml

/-- The name of a local tag. -/
def localTag? (tag : Option String) : Option String :=
  match tag with
  | none => none
  | some t =>
    match t.toList with
    | '!' :: _ => some (Node.tagName (Node.tagName t))
    | _ => none

/-- A node under its local tag, if it has one. -/
def withTag (tag : Option String) (node : Node) : Node :=
  match localTag? tag with
  | some name => .tagged name node
  | none => node

/-- The node of a scalar. -/
def scalarNode? (tag : Option String) (plain : Bool) (text : String) : Option Node :=
  let untagged := if plain then plainNode? text else some (.str text)
  match tag, localTag? tag with
  | some t, none => taggedNode? t text
  | _, _ => untagged.map (withTag tag)

/-- Whether no key occurs twice. -/
def distinctKeys : List (Node × Node) → Bool
  | [] => true
  | (key, _) :: rest => !(rest.any fun e => e.1.same key) && distinctKeys rest

mutual

/-- The node of a tree. -/
def Tree.node? : Tree → Option Node
  | .scalar tag plain text => scalarNode? tag plain text
  | .sequence tag items => (itemNodes? items).map fun xs => withTag tag (.seq xs)
  | .mapping tag entries =>
    match entryNodes? entries with
    | none => none
    | some es => if distinctKeys es then some (withTag tag (.map es)) else none

/-- The nodes of the items of a sequence. -/
def itemNodes? : List Tree → Option (List Node)
  | [] => some []
  | item :: rest =>
    match Tree.node? item, itemNodes? rest with
    | some x, some xs => some (x :: xs)
    | _, _ => none

/-- The nodes of the entries of a mapping. -/
def entryNodes? : List (Tree × Tree) → Option (List (Node × Node))
  | [] => some []
  | (key, value) :: rest =>
    match Tree.node? key, Tree.node? value, entryNodes? rest with
    | some k, some v, some es => some ((k, v) :: es)
    | _, _, _ => none

end

/-- The documents of a text as nodes. -/
def documents? (s : String) : Option (List Node) := do
  (← Tree.documents? s).mapM Tree.node?

end PartCatalog.Yaml
