/-
# Tokens -- the marks and texts of a YAML stream

Indentation becomes explicit: a block collection has a token at its start and one
at its end. A key without a question mark is only recognised at its colon, so each
text that may turn out to be one is remembered, and the key token is put in before
it then; such a key is on one line and not longer than 1024 characters. Where a
key must follow, for a line starts at the indentation of a block, its absence is
an error.
-/
import PartCatalog.Yaml.Token.Property

set_option autoImplicit false

namespace PartCatalog.Yaml

/-- A token. The two texts of a tag are its handle and its suffix. -/
inductive Token where
  | directive (d : Directive)
  | documentStart
  | documentEnd
  | blockSequenceStart
  | blockMappingStart
  | blockEnd
  | flowSequenceStart
  | flowSequenceEnd
  | flowMappingStart
  | flowMappingEnd
  | blockEntry
  | flowEntry
  | key
  | value
  | alias (name : String)
  | anchor (name : String)
  | tag (handle suffix : String)
  | scalar (plain : Bool) (text : String)
  | streamEnd

/-- A token that may turn out to be a key: its number, where it stands, and whether
it has to be one. -/
structure KeyCandidate where
  number : Nat
  place : Glyph
  required : Bool

/-- The state between tokens. There is one place for a key candidate for the block
level and one for each open flow collection, the innermost first. -/
structure Scanner where
  tokens : Array Token
  indent : Int
  outerIndents : List Int
  keyAllowed : Bool
  candidates : List (Option KeyCandidate)

namespace Scanner

def start : Scanner := ⟨#[], -1, [], true, [none]⟩

/-- Whether a flow collection is open. -/
def inFlow (s : Scanner) : Bool := 1 < s.candidates.length

def emit (s : Scanner) (t : Token) : Scanner := { s with tokens := s.tokens.push t }

def allowKey (s : Scanner) (allowed : Bool) : Scanner := { s with keyAllowed := allowed }

/-! ## Indentation -/

/-- Close the blocks that are indented deeper than a column. -/
def closeBlocks (s : Scanner) (column : Int) : Scanner :=
  if s.inFlow then s
  else
    let rec close (tokens : Array Token) (indent : Int) : List Int → Scanner
      | [] => { s with tokens := tokens, indent := indent, outerIndents := [] }
      | outer :: outers =>
        if column < indent then close (tokens.push .blockEnd) outer outers
        else { s with tokens := tokens, indent := indent, outerIndents := outer :: outers }
    close s.tokens s.indent s.outerIndents

/-- Open a block at a column if it is deeper than the current one; its token comes
before the token of the given number. -/
def openBlock (s : Scanner) (column : Nat) (number : Nat) (t : Token) : Scanner :=
  if !s.inFlow && s.indent < column then
    { s with
      tokens := s.tokens.insertIdxIfInBounds number t
      indent := column
      outerIndents := s.indent :: s.outerIndents }
  else s

/-! ## Key candidates -/

/-- Give up the innermost candidate, which must not be required. -/
def dropCandidate (s : Scanner) : Option Scanner :=
  match s.candidates with
  | some c :: outer => if c.required then none else some { s with candidates := none :: outer }
  | _ => some s

/-- Give up the candidates that are on an earlier line or too far back. -/
def dropStale (s : Scanner) (place : Glyph) : Option Scanner := do
  let fresh ← s.candidates.mapM fun
    | none => some none
    | some c =>
      if c.place.line < place.line || c.place.index + 1024 < place.index then
        if c.required then none else some none
      else some (some c)
  return { s with candidates := fresh }

/-- Remember the next token as a candidate if a key may stand here. -/
def saveCandidate (s : Scanner) (place : Glyph) : Option Scanner :=
  if s.keyAllowed then do
    let s ← s.dropCandidate
    let required := !s.inFlow && s.indent == place.column
    return { s with candidates := some ⟨s.tokens.size, place, required⟩ :: s.candidates.tail }
  else some s

/-! ## Tokens of one character -/

/-- The start of a flow collection. -/
def openFlow (s : Scanner) (place : Glyph) (t : Token) : Option Scanner := do
  let s ← s.saveCandidate place
  return ({ s with candidates := none :: s.candidates, keyAllowed := true }).emit t

/-- The end of a flow collection. -/
def closeFlow (s : Scanner) (t : Token) : Option Scanner := do
  let s ← s.dropCandidate
  let candidates := if s.inFlow then s.candidates.tail else s.candidates
  return ({ s with candidates := candidates, keyAllowed := false }).emit t

/-- A comma in a flow collection. -/
def flowEntry (s : Scanner) : Option Scanner := do
  return ((← s.dropCandidate).allowKey true).emit .flowEntry

/-- A dash before an item. In a flow collection it is left for the events to refuse. -/
def blockEntry (s : Scanner) (place : Glyph) : Option Scanner := do
  let s ←
    if s.inFlow then some s
    else if s.keyAllowed then some (s.openBlock place.column s.tokens.size .blockSequenceStart)
    else none
  return ((← s.dropCandidate).allowKey true).emit .blockEntry

/-- A question mark before a key. -/
def explicitKey (s : Scanner) (place : Glyph) : Option Scanner := do
  let s ←
    if s.inFlow then some s
    else if s.keyAllowed then some (s.openBlock place.column s.tokens.size .blockMappingStart)
    else none
  let s ← s.dropCandidate
  return (s.allowKey !s.inFlow).emit .key

/-- A colon before a value. The innermost candidate, if there is one, is its key. -/
def valueMark (s : Scanner) (place : Glyph) : Option Scanner :=
  match s.candidates with
  | some c :: outer =>
    let s := { s with
      tokens := s.tokens.insertIdxIfInBounds c.number .key
      candidates := none :: outer }
    let s := s.openBlock c.place.column c.number .blockMappingStart
    some ((s.allowKey false).emit .value)
  | _ => do
    let s ←
      if s.inFlow then some s
      else if s.keyAllowed then some (s.openBlock place.column s.tokens.size .blockMappingStart)
      else none
    return (s.allowKey !s.inFlow).emit .value

/-- Close all blocks before a directive, a document indicator or the end. -/
def endDocument (s : Scanner) : Option Scanner := do
  return (← (s.closeBlocks (-1)).dropCandidate).allowKey false

/-! ## Between tokens -/

/-- Pass over blanks, comments and line breaks. A new line in a block allows a key;
a tab is passed over only where no key is allowed. -/
def skipBetween (flow : Bool) (allowed comment : Bool) : List Glyph → Bool × List Glyph
  | [] => (allowed, [])
  | g :: rest =>
    let c := g.char
    if isBreak c then skipBetween flow (allowed || !flow) false rest
    else if isEnd c then (allowed, g :: rest)
    else if comment || (g.column == 0 && isByteOrderMark c) || c == ' ' ||
        (c == '\t' && (flow || !allowed)) then skipBetween flow allowed comment rest
    else if c == '#' then skipBetween flow allowed true rest
    else (allowed, g :: rest)

/-! ## Single tokens -/

/-- Whether a plain scalar may start with these characters. -/
def startsPlain (flow : Bool) (src : List Glyph) : Bool :=
  let c := charAt src 0
  let next := charAt src 1
  let indicators := ['-', '?', ':', ',', '[', ']', '\x7b', '\x7d', '#', '&', '*', '!', '|',
    '>', '\'', '"', '%', '@', Char.ofNat 0x60]
  !(isBlankOrEnd c || indicators.contains c) ||
    (c == '-' && !isBlank next) ||
    (!flow && (c == '?' || c == ':') && !isBlankOrEnd next)

/-- The token at the head of the glyphs, and the glyphs after it. -/
def next (s : Scanner) (src : List Glyph) : Option (Scanner × List Glyph) := do
  let place := here src
  let c := charAt src 0
  let blankAfter := isBlankOrEnd (charAt src 1)
  let flow := s.inFlow
  let scalar (s : Scanner) (plain : Bool) (r : Folding × List Glyph) : Scanner × List Glyph :=
    ((s.allowKey false).emit (.scalar plain r.1.result), r.2)
  if place.column == 0 && c == '%' then
    let s ← s.endDocument
    let (d, rest) ← scanDirective src.tail
    return (s.emit (.directive d), rest)
  else if isIndicator '-' src then return ((← s.endDocument).emit .documentStart, src.drop 3)
  else if isIndicator '.' src then return ((← s.endDocument).emit .documentEnd, src.drop 3)
  else if c == '[' then return (← s.openFlow place .flowSequenceStart, src.tail)
  else if c == '\x7b' then return (← s.openFlow place .flowMappingStart, src.tail)
  else if c == ']' then return (← s.closeFlow .flowSequenceEnd, src.tail)
  else if c == '\x7d' then return (← s.closeFlow .flowMappingEnd, src.tail)
  else if c == ',' then return (← s.flowEntry, src.tail)
  else if c == '-' && blankAfter then return (← s.blockEntry place, src.tail)
  else if c == '?' && (flow || blankAfter) then return (← s.explicitKey place, src.tail)
  else if c == ':' && (flow || blankAfter) then return (← s.valueMark place, src.tail)
  else if c == '*' then
    let s ← s.saveCandidate place
    let (name, rest) ← scanAnchor src.tail
    return ((s.allowKey false).emit (.alias name), rest)
  else if c == '&' then
    let s ← s.saveCandidate place
    let (name, rest) ← scanAnchor src.tail
    return ((s.allowKey false).emit (.anchor name), rest)
  else if c == '!' then
    let s ← s.saveCandidate place
    let (handle, suffix, rest) ← scanTag flow src
    return ((s.allowKey false).emit (.tag handle suffix), rest)
  else if !flow && (c == '|' || c == '>') then
    let s ← s.dropCandidate
    let (text, rest) ← scanBlock (c == '|') s.indent src.tail
    return ((s.allowKey true).emit (.scalar false text), rest)
  else if c == '\'' then
    return scalar (← s.saveCandidate place) false (← scanSingle .start src.tail)
  else if c == '"' then
    return scalar (← s.saveCandidate place) false (← scanDouble .start none src.tail)
  else if startsPlain flow src then
    let s ← s.saveCandidate place
    let (f, rest) ← scanPlain flow (s.indent + 1) .start false src
    let s := if f.broken then s.allowKey true else s.allowKey false
    return (s.emit (.scalar true f.result), rest)
  else none

/-- All tokens of the glyphs. Each token takes a glyph or more, so as much fuel as
there are glyphs is enough. -/
def scan : Nat → Scanner → List Glyph → Option (Array Token)
  | 0, _, _ => none
  | fuel + 1, s, src => do
    let (allowed, src) := skipBetween s.inFlow s.keyAllowed false src
    let place := here src
    let s ← ({ s with keyAllowed := allowed }).dropStale place
    let s := s.closeBlocks place.column
    if isEnd place.char then return ((← s.endDocument).emit .streamEnd).tokens
    else
      let (s, src) ← s.next src
      scan fuel s src

end Scanner

/-- The tokens of a text, if it has any legal reading so far. -/
def Token.scan? (s : String) : Option (List Token) := do
  let src ← glyphs? s
  return (← Scanner.scan (src.length + 1) .start src).toList

end PartCatalog.Yaml
