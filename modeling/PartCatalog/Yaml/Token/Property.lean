/-
# Node properties and directives -- anchors, tags, `%YAML` and `%TAG`

A tag is written with a handle and a suffix, or whole between angle brackets; in a
suffix, `%` and two hexadecimal digits stand for one byte of a character.
-/
import PartCatalog.Yaml.Token.Scalar

set_option autoImplicit false

namespace PartCatalog.Yaml

/-! ## Anchors -/

/-- Whether a character may follow the name of an anchor. -/
def endsAnchor (c : Char) : Bool :=
  isBlankOrEnd c || c == '?' || c == ':' || c == ',' || c == ']' || c == '\x7d' || c == '%' ||
    c == '@' || c.toNat == 0x60

/-- The name of an anchor or an alias, from after its indicator. -/
def scanAnchor (src : List Glyph) : Option (String × List Glyph) :=
  let (name, rest) := span isWord src
  if name.isEmpty || !endsAnchor (charAt rest 0) then none
  else some (String.ofList name, rest)

/-! ## Tags -/

/-- A character of a tag suffix; a verbatim tag has a few more. -/
def isUriChar (verbatim : Bool) (c : Char) : Bool :=
  isWord c || [';', '/', '?', ':', '@', '&', '=', '+', '$', '.', '%', '!', '~', '*', '\'',
    '(', ')'].contains c || (verbatim && (c == ',' || c == '[' || c == ']'))

/-- The number of bytes of a character, from its first byte. -/
def utf8Length? (byte : Nat) : Option Nat :=
  if byte < 0x80 then some 1
  else if byte / 0x20 = 0x6 then some 2
  else if byte / 0x10 = 0xE then some 3
  else if byte / 0x08 = 0x1E then some 4
  else none

/-- A byte written as `%` and two digits. -/
def escapedByte? : List Char → Option (Nat × List Char)
  | '%' :: a :: b :: rest => do return (16 * (← Text.hexDigit? a) + (← Text.hexDigit? b), rest)
  | _ => none

/-- The bytes after the first of an escaped character, put to its value. -/
def moreBytes? : Nat → Nat → List Char → Option (Nat × List Char)
  | 0, value, cs => some (value, cs)
  | n + 1, value, cs => do
    let (byte, rest) ← escapedByte? cs
    if byte / 0x40 = 0x2 then moreBytes? n (0x40 * value + byte % 0x40) rest else none

/-- The text of a tag suffix, its escapes resolved. One unit of fuel is taken for
each character. -/
def unescape? : Nat → List Char → Option (List Char)
  | 0, cs => if cs.isEmpty then some [] else none
  | fuel + 1, cs =>
    match cs with
    | [] => some []
    | '%' :: _ => do
      let (first, rest) ← escapedByte? cs
      let length ← utf8Length? first
      let value := if length = 1 then first else first % Nat.pow 2 (7 - length)
      let (value, rest) ← moreBytes? (length - 1) value rest
      return (← charOfNumber? value) :: (← unescape? fuel rest)
    | c :: rest => do return c :: (← unescape? fuel rest)

/-- The suffix of a tag that follows `head` characters of it. -/
def scanUri (verbatim : Bool) (head : List Char) (src : List Glyph) :
    Option (String × List Glyph) := do
  let (cs, rest) := span (isUriChar verbatim) src
  if head.isEmpty && cs.isEmpty then none
  else return (String.ofList (head.tail ++ (← unescape? cs.length cs)), rest)

/-- The handle of a tag: an exclamation mark, perhaps a word and another mark. -/
def scanHandle (src : List Glyph) : Option (List Char × List Glyph) :=
  if charAt src 0 == '!' then
    let (word, rest) := span isWord src.tail
    if charAt rest 0 == '!' then some ('!' :: word ++ ['!'], rest.tail)
    else some ('!' :: word, rest)
  else none

/-- Whether a handle ends in a mark of its own. -/
def isFullHandle (handle : List Char) : Bool :=
  1 < handle.length && handle.getLast? == some '!'

/-- A tag as its handle and suffix. The handle is empty for a tag written whole. -/
def scanTag (flow : Bool) (src : List Glyph) : Option (String × String × List Glyph) := do
  let (handle, suffix, rest) ←
    if charAt src 1 == '<' then do
      let (suffix, rest) ← scanUri true [] src.tail.tail
      if charAt rest 0 == '>' then some ("", suffix, rest.tail) else none
    else do
      let (handle, rest) ← scanHandle src
      if isFullHandle handle then
        let (suffix, rest) ← scanUri false [] rest
        some (String.ofList handle, suffix, rest)
      else
        let (suffix, rest) ← scanUri false handle rest
        if suffix.isEmpty then some ("", "!", rest) else some ("!", suffix, rest)
  if isBlankOrEnd (charAt rest 0) || (flow && charAt rest 0 == ',') then
    return (handle, suffix, rest)
  else none

/-! ## Directives -/

/-- A directive at the head of a document. -/
inductive Directive where
  | version (major minor : Nat)
  | tag (handle expansion : String)

/-- A number of at most nine digits. -/
def scanNumber (src : List Glyph) : Option (Nat × List Glyph) :=
  let (ds, rest) := span Char.isDigit src
  if ds.isEmpty || 9 < ds.length then none
  else some (ds.foldl (fun n c => 10 * n + (c.toNat - '0'.toNat)) 0, rest)

/-- A directive, from after its percent sign to the end of its line. -/
def scanDirective (src : List Glyph) : Option (Directive × List Glyph) := do
  let (name, rest) := span isWord src
  if !isBlankOrEnd (charAt rest 0) then none
  else
    let (_, rest) := span isBlank rest
    match String.ofList name with
    | "YAML" =>
      let (major, rest) ← scanNumber rest
      if charAt rest 0 != '.' then none
      else
        let (minor, rest) ← scanNumber rest.tail
        return (.version major minor, ← endOfLine? rest)
    | "TAG" =>
      let (handle, rest) ← scanHandle rest
      if handle != ['!'] && !isFullHandle handle then none
      else if !isBlank (charAt rest 0) then none
      else
        let (_, rest) := span isBlank rest
        let (expansion, rest) ← scanUri true [] rest
        if !isBlankOrEnd (charAt rest 0) then none
        else return (.tag (String.ofList handle) expansion, ← endOfLine? rest)
    | _ => none

end PartCatalog.Yaml
