/-
# Trees -- YAML documents with their aliases replaced

Anchors are numbered in the order of their names; an anchor given again takes the
number that a new name would have, and a new name after that takes it too. An alias
stands for the last node with its number, which may be around the alias: at most
128 collections are read into each other, and for each event of the document at
most a hundred aliases are followed.
-/
import PartCatalog.Yaml.Event

set_option autoImplicit false

namespace PartCatalog.Yaml

/-- A document without aliases. -/
inductive Tree where
  | scalar (tag : Option String) (plain : Bool) (text : String)
  | sequence (tag : Option String) (items : List Tree)
  | mapping (tag : Option String) (entries : List (Tree × Tree))

namespace Tree

instance : Inhabited Tree := ⟨.scalar none true ""⟩

/-! ## Numbering anchors -/

/-- Give a name a number, in its place if it has one. -/
def putNumber (name : String) (number : Nat) : List (String × Nat) → List (String × Nat)
  | [] => [(name, number)]
  | (other, n) :: rest =>
    if other = name then (other, number) :: rest else (other, n) :: putNumber name number rest

/-- The number of an anchor, if there is one, and the numbers after it. -/
def numberAnchor (known : List (String × Nat)) :
    Option String → Option Nat × List (String × Nat)
  | none => (none, known)
  | some name => (some known.length, putNumber name known.length known)

/-- The events with numbers for names; an alias must name an anchor before it. -/
def number (known : List (String × Nat)) :
    List (Event String) → Option (List (Event Nat))
  | [] => some []
  | e :: rest =>
    match e with
    | .alias name => do
      let n ← known.lookup name
      return .alias n :: (← number known rest)
    | .scalar anchor tag plain text => do
      let (n, known) := numberAnchor known anchor
      return .scalar n tag plain text :: (← number known rest)
    | .sequenceStart anchor tag => do
      let (n, known) := numberAnchor known anchor
      return .sequenceStart n tag :: (← number known rest)
    | .mappingStart anchor tag => do
      let (n, known) := numberAnchor known anchor
      return .mappingStart n tag :: (← number known rest)
    | .sequenceEnd => do return .sequenceEnd :: (← number known rest)
    | .mappingEnd => do return .mappingEnd :: (← number known rest)

/-- The number of the anchor of an event. -/
def anchor? : Event Nat → Option Nat
  | .scalar n .. | .sequenceStart n _ | .mappingStart n _ => n
  | _ => none

/-- For each number the events from the last node with it. -/
def targets : List (Event Nat) → List (Nat × List (Event Nat))
  | [] => []
  | e :: rest =>
    let later := targets rest
    match anchor? e with
    | some n => if (later.lookup n).isSome then later else (n, e :: rest) :: later
    | none => later

/-! ## Building -/

/-- A document being built: where aliases lead, and how many may be followed. -/
structure Source where
  targets : List (Nat × List (Event Nat))
  maxJumps : Nat

/-- What a reader of a part needs and leaves: the aliases followed so far, and the
events. -/
abbrev Position : Type := Nat × List (Event Nat)

/-- The items up to the end of a sequence. -/
def items (item : Position → Option (Tree × Position)) :
    Nat → Position → Option (List Tree × Position)
  | 0, _ => none
  | _ + 1, (jumps, .sequenceEnd :: rest) => some ([], jumps, rest)
  | fuel + 1, at_ => do
    let (x, next) ← item at_
    let (xs, next) ← items item fuel next
    return (x :: xs, next)

/-- The entries up to the end of a mapping. -/
def entries (item : Position → Option (Tree × Position)) :
    Nat → Position → Option (List (Tree × Tree) × Position)
  | 0, _ => none
  | _ + 1, (jumps, .mappingEnd :: rest) => some ([], jumps, rest)
  | fuel + 1, at_ => do
    let (k, next) ← item at_
    let (v, next) ← item next
    let (es, next) ← entries item fuel next
    return ((k, v) :: es, next)

/-- Follow an alias: where it leads, and the events after it. -/
def follow (source : Source) : Position → Option (Position × Option (List (Event Nat)))
  | (jumps, .alias n :: rest) => do
    let target ← source.targets.lookup n
    if source.maxJumps < jumps + 1 then none else return ((jumps + 1, target), some rest)
  | at_ => some (at_, none)

/-- The node at a position, with as many collections in each other as `depth` says. -/
def build (source : Source) : Nat → Position → Option (Tree × Position)
  | depth, at_ => do
    let ((jumps, events), after) ← follow source at_
    match events with
    | .scalar _ tag plain text :: rest => return (.scalar tag plain text, jumps, after.getD rest)
    | .sequenceStart _ tag :: rest =>
      match depth with
      | 0 => none
      | depth + 1 =>
        let (xs, jumps, rest) ← items (build source depth) (rest.length + 1) (jumps, rest)
        return (.sequence tag xs, jumps, after.getD rest)
    | .mappingStart _ tag :: rest =>
      match depth with
      | 0 => none
      | depth + 1 =>
        let (es, jumps, rest) ← entries (build source depth) (rest.length + 1) (jumps, rest)
        return (.mapping tag es, jumps, after.getD rest)
    | _ => none

/-- The largest number of collections in each other. -/
def maxDepth : Nat := 128

/-- The tree of a document. -/
def ofEvents? (events : List (Event String)) : Option Tree := do
  let numbered ← number [] events
  let (tree, _) ← build ⟨targets numbered, 100 * numbered.length⟩ maxDepth (0, numbered)
  return tree

/-- The documents of a text. A stream without a document has one that is empty. -/
def documents? (s : String) : Option (List Tree) := do
  match ← Event.documents? s with
  | [] => return [default]
  | documents => documents.mapM ofEvents?

end Tree

end PartCatalog.Yaml
