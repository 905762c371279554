/-
# Scalars in a YAML stream -- plain, quoted and block texts

Lines of a plain or quoted scalar are folded: one break becomes a space, further
ones stand for themselves, and blanks around a break are dropped. A block scalar
keeps its lines, or folds those that neither they nor their neighbours indent.
Each scanner returns the text and the glyphs after it.
-/
import PartCatalog.Text.Hexadecimal
import PartCatalog.Yaml.Glyph

set_option autoImplicit false

namespace PartCatalog.Yaml

/-- What a folded scalar has gathered: its text so far and, since the last
character of it, blanks or line breaks. All texts are in reverse. `broken` says
that a line has ended, be it by an escaped break, which leaves no `firstBreak`. -/
structure Folding where
  text : List Char
  blanks : List Char
  broken : Bool
  firstBreak : Option Char
  moreBreaks : List Char

namespace Folding

def start : Folding := ⟨[], [], false, none, []⟩

/-- Take in a space or a tab. -/
def blank (f : Folding) (c : Char) : Folding :=
  if f.broken then f else { f with blanks := c :: f.blanks }

/-- Take in a line break. -/
def lineBreak (f : Folding) (c : Char) : Folding :=
  if f.broken then { f with moreBreaks := c :: f.moreBreaks }
  else { f with blanks := [], broken := true, firstBreak := some c }

/-- Take in an escaped line break. -/
def escapedBreak (f : Folding) : Folding := { f with broken := true }

/-- Bring blanks and breaks into the text. -/
def join (f : Folding) : Folding :=
  let between :=
    if f.broken then
      if f.firstBreak == some '\n' then
        if f.moreBreaks.isEmpty then [' '] else f.moreBreaks
      else f.moreBreaks ++ f.firstBreak.toList
    else f.blanks
  { start with text := between ++ f.text }

/-- Take in a character of the text. -/
def char (f : Folding) (c : Char) : Folding :=
  let f := f.join
  { f with text := c :: f.text }

def result (f : Folding) : String := String.ofList f.text.reverse

end Folding

/-! ## Plain scalars -/

/-- Whether a colon in a flow collection is followed by what may not follow it. -/
def isBadFlowColon (src : List Glyph) : Bool :=
  let next := charAt src 1
  charAt src 0 == ':' && (next == ',' || next == '?' || next == '[' || next == ']' ||
    next == '\x7b' || next == '\x7d')

/-- Whether a plain scalar ends at this character. -/
def endsPlain (flow : Bool) (src : List Glyph) : Bool :=
  let c := charAt src 0
  (c == ':' && isBlankOrEnd (charAt src 1)) ||
    (flow && (c == ',' || c == '[' || c == ']' || c == '\x7b' || c == '\x7d'))

/-- A plain scalar, which continues on lines of at least the given column. `gap`
says that blanks or breaks came just before. -/
def scanPlain (flow : Bool) (column : Int) (f : Folding) (gap : Bool) :
    List Glyph → Option (Folding × List Glyph)
  | [] => some (f, [])
  | g :: rest =>
    let c := g.char
    if isBlank c then
      if f.broken && (g.column : Int) < column && c == '\t' then none
      else scanPlain flow column (f.blank c) true rest
    else if isBreak c then scanPlain flow column (f.lineBreak c) true rest
    else if isEnd c then some (f, g :: rest)
    else if gap && ((!flow && (g.column : Int) < column) || c == '#' ||
        isDocumentIndicator (g :: rest)) then some (f, g :: rest)
    else if flow && isBadFlowColon (g :: rest) then none
    else if endsPlain flow (g :: rest) then some (f, g :: rest)
    else scanPlain flow column (f.char c) false rest

/-! ## Quoted scalars -/

/-- The character of a number, unless it is a surrogate or too large. -/
def charOfNumber? (n : Nat) : Option Char :=
  if n.isValidChar then some (Char.ofNat n) else none

/-- A single-quoted scalar from after its opening quote. -/
def scanSingle (f : Folding) : List Glyph → Option (Folding × List Glyph)
  | [] => none
  | g :: rest =>
    let c := g.char
    if isEnd c then none
    else if isBlank c then scanSingle (f.blank c) rest
    else if isBreak c then scanSingle (f.lineBreak c) rest
    else if isDocumentIndicator (g :: rest) then none
    else if c == '\'' then
      match rest with
      | h :: after =>
        if h.char == '\'' then scanSingle (f.char '\'') after else some (f.join, rest)
      | [] => some (f.join, rest)
    else scanSingle (f.char c) rest

/-- The character that an escape letter stands for. -/
def escape? (c : Char) : Option Char :=
  match c with
  | '0' => some (Char.ofNat 0)
  | 'a' => some (Char.ofNat 7)
  | 'b' => some (Char.ofNat 8)
  | 't' => some '\t'
  | '\t' => some '\t'
  | 'n' => some '\n'
  | 'v' => some (Char.ofNat 11)
  | 'f' => some (Char.ofNat 12)
  | 'r' => some '\r'
  | 'e' => some (Char.ofNat 27)
  | ' ' => some ' '
  | '"' => some '"'
  | '/' => some '/'
  | '\\' => some '\\'
  | 'N' => some (Char.ofNat 0x85)
  | '_' => some (Char.ofNat 0xA0)
  | 'L' => some (Char.ofNat 0x2028)
  | 'P' => some (Char.ofNat 0x2029)
  | _ => none

/-- The number of digits after an escape letter for a character number. -/
def escapeDigits? (c : Char) : Option Nat :=
  match c with
  | 'x' => some 2
  | 'u' => some 4
  | 'U' => some 8
  | _ => none

/-- A double-quoted scalar from after its opening quote. `digits` is a character
number being read: how many digits are missing, and its value so far. -/
def scanDouble (f : Folding) (digits : Option (Nat × Nat)) :
    List Glyph → Option (Folding × List Glyph)
  | [] => none
  | g :: rest =>
    let c := g.char
    match digits with
    | some (missing, value) =>
      match Text.hexDigit? c with
      | none => none
      | some d =>
        let value := 16 * value + d
        if missing ≤ 1 then
          match charOfNumber? value with
          | none => none
          | some x => scanDouble (f.char x) none rest
        else scanDouble f (some (missing - 1, value)) rest
    | none =>
      if isEnd c then none
      else if isBlank c then scanDouble (f.blank c) none rest
      else if isBreak c then scanDouble (f.lineBreak c) none rest
      else if isDocumentIndicator (g :: rest) then none
      else if c == '"' then some (f.join, rest)
      else if c == '\\' then
        match rest with
        | [] => none
        | h :: after =>
          if isBreak h.char then scanDouble f.join.escapedBreak none after
          else match escape? h.char with
            | some x => scanDouble (f.char x) none after
            | none =>
              match escapeDigits? h.char with
              | some n => scanDouble f (some (n, 0)) after
              | none => none
      else scanDouble (f.char c) none rest

/-! ## Block scalars -/

/-- What happens to the line breaks at the end of a block scalar. -/
inductive Chomping where
  | strip
  | clip
  | keep
deriving DecidableEq

/-- The header of a block scalar: its chomping, and the indentation if given. -/
def blockHeader? (src : List Glyph) : Option (Chomping × Option Nat × List Glyph) :=
  let chomping? (c : Char) : Option Chomping :=
    if c == '+' then some .keep else if c == '-' then some .strip else none
  let c := charAt src 0
  match chomping? c with
  | some chomping =>
    let d := charAt src.tail 0
    if d == '0' then none
    else if d.isDigit then some (chomping, some (d.toNat - '0'.toNat), src.tail.tail)
    else some (chomping, none, src.tail)
  | none =>
    if c == '0' then none
    else if c.isDigit then
      let indent := some (c.toNat - '0'.toNat)
      match chomping? (charAt src.tail 0) with
      | some chomping => some (chomping, indent, src.tail.tail)
      | none => some (.clip, indent, src.tail)
    else some (.clip, none, src)

/-- Pass over the indentation of lines up to the next that is not empty. The answer
has the deepest column seen and the breaks passed, in reverse. -/
def blockBreaks (indent : Option Nat) (deepest : Nat) (breaks : List Char) :
    List Glyph → Option (Nat × List Char × List Glyph)
  | [] => some (deepest, breaks, [])
  | g :: rest =>
    let shallow := match indent with
      | none => true
      | some n => g.column < n
    if shallow && g.char == ' ' then blockBreaks indent deepest breaks rest
    else
      let deepest := max deepest g.column
      if shallow && g.char == '\t' then none
      else if isBreak g.char then blockBreaks indent deepest (g.char :: breaks) rest
      else some (deepest, breaks, g :: rest)

/-- The state of a block scalar between lines: the text, the break that ended the
last line and the breaks after it, all in reverse, and whether that line was
indented further. -/
structure BlockLines where
  text : List Char
  lastBreak : List Char
  breaks : List Char
  indented : Bool

/-- The lines of a block scalar of a given indentation. One line is taken for each
unit of fuel, so the number of glyphs is enough. -/
def blockLines (literal : Bool) (indent : Nat) : Nat → BlockLines → List Glyph →
    Option (BlockLines × List Glyph)
  | 0, _, _ => none
  | fuel + 1, b, src =>
    let g := here src
    if g.column != indent || isEnd g.char then some (b, src)
    else
      let indented := isBlank g.char
      let folds := !literal && b.lastBreak == ['\n'] && !b.indented && !indented
      let between :=
        if folds then (if b.breaks.isEmpty then [' '] else b.breaks)
        else b.breaks ++ b.lastBreak
      let (line, src) := span (fun c => !isBreakOrEnd c) src
      let text := line.reverse ++ (between ++ b.text)
      let lastBreak := if isBreak (charAt src 0) then [charAt src 0] else []
      let src := if lastBreak.isEmpty then src else src.tail
      match blockBreaks (some indent) 0 [] src with
      | none => none
      | some (_, breaks, src) =>
        blockLines literal indent fuel ⟨text, lastBreak, breaks, indented⟩ src

/-- A block scalar from after its indicator, inside a block of the given
indentation. -/
def scanBlock (literal : Bool) (outer : Int) (src : List Glyph) :
    Option (String × List Glyph) := do
  let (chomping, increment, src) ← blockHeader? src
  let src ← endOfLine? src
  let given := increment.map fun n => (if 0 ≤ outer then outer.toNat else 0) + n
  let (deepest, breaks, src) ← blockBreaks given 0 [] src
  let indent := given.getD (max deepest (max (outer + 1) 1).toNat)
  let (b, src) ← blockLines literal indent (src.length + 1) ⟨[], [], breaks, false⟩ src
  let text := match chomping with
    | .strip => b.text
    | .clip => b.lastBreak ++ b.text
    | .keep => b.breaks ++ (b.lastBreak ++ b.text)
  return (String.ofList text.reverse, src)

end PartCatalog.Yaml
