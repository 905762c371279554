/-
# Events -- the nodes of YAML documents in the order they are written

The events of a document are those of its one node; a collection has an event at
its start and one at its end, with those of its items between them. A missing node
is an empty plain scalar. Tags are whole here: their handles have been looked up
among those the document declares. The type of a reference is a parameter, a name
as written or a number given later.
-/
import PartCatalog.Yaml.Token

set_option autoImplicit false

namespace PartCatalog.Yaml

/-- An event, with references to nodes of type `Ref`. -/
inductive Event (Ref : Type) where
  | alias (target : Ref)
  | scalar (anchor : Option Ref) (tag : Option String) (plain : Bool) (text : String)
  | sequenceStart (anchor : Option Ref) (tag : Option String)
  | sequenceEnd
  | mappingStart (anchor : Option Ref) (tag : Option String)
  | mappingEnd

/-- The tag handles of a document and what they stand for. -/
abbrev Handles : Type := List (String × String)

/-- What is left to read, and the events read. -/
abbrev Read : Type := List Token × Array (Event String)

/-! ## Properties of a node -/

/-- The anchor and the tag before a node, in either order. -/
def properties : List Token → Option String × Option (String × String) × List Token
  | .anchor a :: .tag h s :: rest => (some a, some (h, s), rest)
  | .tag h s :: .anchor a :: rest => (some a, some (h, s), rest)
  | .anchor a :: rest => (some a, none, rest)
  | .tag h s :: rest => (none, some (h, s), rest)
  | rest => (none, none, rest)

/-- A tag with its handle replaced by what it stands for. -/
def wholeTag? (handles : Handles) : Option (String × String) → Option (Option String)
  | none => some none
  | some (handle, suffix) =>
    if handle.isEmpty then some (some suffix)
    else (handles.lookup handle).map fun expansion => some (expansion ++ suffix)

/-- The event of a node that is not there. -/
def missing : Event String := .scalar none none true ""

/-! ## Nodes -/

mutual

/-- One node. `block` allows block collections, and `indentless` a block sequence
whose dashes stand at the column of the mapping it is a value of. -/
def node (handles : Handles) : Nat → Bool → Bool → Read → Option Read
  | 0, _, _, _ => none
  | fuel + 1, block, indentless, (tokens, events) =>
    match tokens with
    | .alias name :: rest => some (rest, events.push (.alias name))
    | _ =>
      let (anchor, written, rest) := properties tokens
      match wholeTag? handles written with
      | none => none
      | some tag =>
        match rest with
        | .scalar plain text :: rest =>
          let tag := if tag = some "!" then none else tag
          some (rest, events.push (.scalar anchor tag plain text))
        | .flowSequenceStart :: rest =>
          flowSequence handles fuel true (rest, events.push (.sequenceStart anchor tag))
        | .flowMappingStart :: rest =>
          flowMapping handles fuel true (rest, events.push (.mappingStart anchor tag))
        | .blockEntry :: _ =>
          if indentless then
            indentlessSequence handles fuel (rest, events.push (.sequenceStart anchor tag))
          else if anchor.isSome || tag.isSome then
            some (rest, events.push (.scalar anchor tag true ""))
          else none
        | .blockSequenceStart :: after =>
          if block then
            blockSequence handles fuel (after, events.push (.sequenceStart anchor tag))
          else if anchor.isSome || tag.isSome then
            some (rest, events.push (.scalar anchor tag true ""))
          else none
        | .blockMappingStart :: after =>
          if block then
            blockMapping handles fuel (after, events.push (.mappingStart anchor tag))
          else if anchor.isSome || tag.isSome then
            some (rest, events.push (.scalar anchor tag true ""))
          else none
        | _ =>
          if anchor.isSome || tag.isSome then some (rest, events.push (.scalar anchor tag true ""))
          else none

/-- The items of a block sequence and its end. -/
def blockSequence (handles : Handles) : Nat → Read → Option Read
  | 0, _ => none
  | fuel + 1, (tokens, events) =>
    match tokens with
    | .blockEntry :: rest =>
      match rest with
      | .blockEntry :: _ | .blockEnd :: _ => blockSequence handles fuel (rest, events.push missing)
      | _ => (node handles fuel true false (rest, events)).bind (blockSequence handles fuel)
    | .blockEnd :: rest => some (rest, events.push .sequenceEnd)
    | _ => none

/-- The items of a sequence without a block of its own. -/
def indentlessSequence (handles : Handles) : Nat → Read → Option Read
  | 0, _ => none
  | fuel + 1, (tokens, events) =>
    match tokens with
    | .blockEntry :: rest =>
      match rest with
      | .blockEntry :: _ | .key :: _ | .value :: _ | .blockEnd :: _ =>
        indentlessSequence handles fuel (rest, events.push missing)
      | _ => (node handles fuel true false (rest, events)).bind (indentlessSequence handles fuel)
    | _ => some (tokens, events.push .sequenceEnd)

/-- The keys of a block mapping, each with its value, and the end. -/
def blockMapping (handles : Handles) : Nat → Read → Option Read
  | 0, _ => none
  | fuel + 1, (tokens, events) =>
    match tokens with
    | .key :: rest =>
      match rest with
      | .key :: _ | .value :: _ | .blockEnd :: _ =>
        blockMappingValue handles fuel (rest, events.push missing)
      | _ => (node handles fuel true true (rest, events)).bind (blockMappingValue handles fuel)
    | .blockEnd :: rest => some (rest, events.push .mappingEnd)
    | _ => none

/-- The value of a key in a block mapping, and the keys after it. -/
def blockMappingValue (handles : Handles) : Nat → Read → Option Read
  | 0, _ => none
  | fuel + 1, (tokens, events) =>
    match tokens with
    | .value :: rest =>
      match rest with
      | .key :: _ | .value :: _ | .blockEnd :: _ =>
        blockMapping handles fuel (rest, events.push missing)
      | _ => (node handles fuel true true (rest, events)).bind (blockMapping handles fuel)
    | _ => blockMapping handles fuel (tokens, events.push missing)

/-- The items of a flow sequence and its end. A key in it makes a mapping of one
entry. -/
def flowSequence (handles : Handles) : Nat → Bool → Read → Option Read
  | 0, _, _ => none
  | fuel + 1, first, (tokens, events) =>
    let items? : Option (List Token) :=
      match first, tokens with
      | _, .flowSequenceEnd :: _ | true, _ => some tokens
      | false, .flowEntry :: rest => some rest
      | false, _ => none
    match items? with
    | none => none
    | some (.flowSequenceEnd :: rest) => some (rest, events.push .sequenceEnd)
    | some (.key :: rest) =>
      (flowPair handles fuel (rest, events.push (.mappingStart none none))).bind
        (flowSequence handles fuel false)
    | some items =>
      (node handles fuel false false (items, events)).bind (flowSequence handles fuel false)

/-- The one entry of a mapping in a flow sequence. Where its key is missing, the
token after the key mark is lost. -/
def flowPair (handles : Handles) : Nat → Read → Option Read
  | 0, _ => none
  | fuel + 1, (tokens, events) =>
    let key? : Option Read :=
      match tokens with
      | .value :: rest | .flowEntry :: rest | .flowSequenceEnd :: rest =>
        some (rest, events.push missing)
      | _ => node handles fuel false false (tokens, events)
    match key? with
    | none => none
    | some (.value :: rest, events) =>
      match rest with
      | .flowEntry :: _ | .flowSequenceEnd :: _ =>
        some (rest, (events.push missing).push .mappingEnd)
      | _ =>
        (node handles fuel false false (rest, events)).map fun (rest, events) =>
          (rest, events.push .mappingEnd)
    | some (rest, events) => some (rest, (events.push missing).push .mappingEnd)

/-- The entries of a flow mapping and its end. A node without a key mark is a key
without a value. -/
def flowMapping (handles : Handles) : Nat → Bool → Read → Option Read
  | 0, _, _ => none
  | fuel + 1, first, (tokens, events) =>
    let items? : Option (List Token) :=
      match first, tokens with
      | _, .flowMappingEnd :: _ | true, _ => some tokens
      | false, .flowEntry :: rest => some rest
      | false, _ => none
    match items? with
    | none => none
    | some (.flowMappingEnd :: rest) => some (rest, events.push .mappingEnd)
    | some (.key :: rest) =>
      match rest with
      | .value :: _ | .flowEntry :: _ | .flowMappingEnd :: _ =>
        flowMappingValue handles fuel (rest, events.push missing)
      | _ => (node handles fuel false false (rest, events)).bind (flowMappingValue handles fuel)
    | some items =>
      (node handles fuel false false (items, events)).bind fun (rest, events) =>
        flowMapping handles fuel false (rest, events.push missing)

/-- The value of a key in a flow mapping, and the entries after it. -/
def flowMappingValue (handles : Handles) : Nat → Read → Option Read
  | 0, _ => none
  | fuel + 1, (tokens, events) =>
    match tokens with
    | .value :: rest =>
      match rest with
      | .flowEntry :: _ | .flowMappingEnd :: _ =>
        flowMapping handles fuel false (rest, events.push missing)
      | _ => (node handles fuel false false (rest, events)).bind (flowMapping handles fuel false)
    | _ => flowMapping handles fuel false (tokens, events.push missing)

end

/-! ## Documents -/

/-- The handles that every document has. -/
def defaultHandles : Handles := [("!", "!"), ("!!", "tag:yaml.org,2002:")]

/-- The directives of a document: at most one version, which must be 1.1 or 1.2, and
no handle twice. -/
def directives (versioned : Bool) (handles : Handles) : List Token → Option (Handles × List Token)
  | .directive (.version major minor) :: rest =>
    if !versioned && major = 1 && (minor = 1 || minor = 2) then directives true handles rest
    else none
  | .directive (.tag handle expansion) :: rest =>
    if (handles.lookup handle).isSome then none
    else directives versioned (handles ++ [(handle, expansion)]) rest
  | rest => some (handles ++ defaultHandles, rest)

/-- The documents of the tokens. Only the first may do without `---`. -/
def documents (nodeFuel : Nat) : Nat → Bool → List Token → Option (List (Array (Event String)))
  | 0, _, _ => none
  | fuel + 1, first, tokens => do
    let tokens := if first then tokens else tokens.dropWhile fun
      | .documentEnd => true
      | _ => false
    let isBare := match tokens with
      | .directive _ :: _ | .documentStart :: _ | .streamEnd :: _ => false
      | _ => first
    match tokens with
    | [] => none
    | .streamEnd :: _ => return []
    | _ =>
      let (rest, events) ←
        if isBare then node defaultHandles nodeFuel true false (tokens, #[])
        else
          match directives false [] tokens with
          | some (handles, .documentStart :: rest) =>
            match rest with
            | .directive _ :: _ | .documentStart :: _ | .documentEnd :: _ | .streamEnd :: _ =>
              some (rest, #[missing])
            | _ => node handles nodeFuel true false (rest, #[])
          | _ => none
      let rest := match rest with
        | .documentEnd :: rest => rest
        | rest => rest
      return events :: (← documents nodeFuel fuel false rest)

/-- The documents of a text as events, if the text is a YAML stream. Every call
takes a token or is followed by one that does, so four units of fuel for each token
are enough. -/
def Event.documents? (s : String) : Option (List (List (Event String))) := do
  let tokens ← Token.scan? s
  return (← documents (4 * tokens.length + 8) (tokens.length + 1) true tokens).map (·.toList)

end PartCatalog.Yaml
