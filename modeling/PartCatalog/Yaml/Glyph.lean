/-
# Glyphs -- the characters of a YAML stream with their places

A stream is read as a list of characters, each with its place; a line break is one
glyph however it was written, and the list ends with the glyph of the end of the
stream. So a scanner never counts: the place of what it reads next is that of the
first glyph left.
-/
set_option autoImplicit false

namespace PartCatalog.Yaml

/-- A character and its place: how many characters precede it in the stream, its
line, and how many precede it in the line. -/
structure Glyph where
  char : Char
  index : Nat
  line : Nat
  column : Nat

/-- The character that stands for the end of the stream. It is no legal character. -/
def endChar : Char := Char.ofNat 0

/-- Whether a character may occur in a stream. -/
def isLegal (c : Char) : Bool :=
  let n := c.toNat
  n == 0x09 || n == 0x0A || n == 0x0D || (0x20 ≤ n && n ≤ 0x7E) || n == 0x85 ||
  (0xA0 ≤ n && n ≤ 0xD7FF) || (0xE000 ≤ n && n ≤ 0xFFFD) || 0x10000 ≤ n

/-! ## Classes -/

/-- The break characters that are kept as they are. -/
def isSeparator (c : Char) : Bool := c.toNat == 0x2028 || c.toNat == 0x2029

/-- A line break, after breaks have been made alike. -/
def isBreak (c : Char) : Bool := c == '\n' || isSeparator c

/-- A space or a tab. -/
def isBlank (c : Char) : Bool := c == ' ' || c == '\t'

def isEnd (c : Char) : Bool := c == endChar
def isBreakOrEnd (c : Char) : Bool := isBreak c || isEnd c
def isBlankOrEnd (c : Char) : Bool := isBlank c || isBreakOrEnd c

/-- A character of a handle, an anchor or a directive name. -/
def isWord (c : Char) : Bool := c.isAlphanum || c == '_' || c == '-'

/-- The mark that may open a line and is passed over there. -/
def isByteOrderMark (c : Char) : Bool := c.toNat == 0xFEFF

/-! ## Placing -/

/-- The glyphs of the characters from a place onwards. -/
def place (index line column : Nat) : List Char → List Glyph
  | [] => [⟨endChar, index, line, column⟩]
  | '\r' :: '\n' :: rest => ⟨'\n', index, line, column⟩ :: place (index + 2) (line + 1) 0 rest
  | c :: rest =>
    if c == '\r' || c == '\n' || c.toNat == 0x85 then
      ⟨'\n', index, line, column⟩ :: place (index + 1) (line + 1) 0 rest
    else if isSeparator c then
      ⟨c, index, line, column⟩ :: place (index + 1) (line + 1) 0 rest
    else ⟨c, index, line, column⟩ :: place (index + 1) line (column + 1) rest

/-- The glyphs of a text, if all its characters are legal. -/
def glyphs? (s : String) : Option (List Glyph) :=
  if s.toList.all isLegal then some (place 0 0 0 s.toList) else none

/-! ## Looking ahead -/

/-- The character `n` glyphs ahead. -/
def charAt (src : List Glyph) (n : Nat) : Char := (src[n]?.map (·.char)).getD endChar

/-- The place of the next glyph. -/
def here (src : List Glyph) : Glyph := src.headD ⟨endChar, 0, 0, 0⟩

/-- The characters up to the first glyph that fails a test, and the glyphs from it. -/
def span (p : Char → Bool) (src : List Glyph) : List Char × List Glyph :=
  ((src.takeWhile fun g => p g.char).map (·.char), src.dropWhile fun g => p g.char)

/-- Whether a line starts here with a document indicator of this character. -/
def isIndicator (c : Char) (src : List Glyph) : Bool :=
  (here src).column == 0 && charAt src 0 == c && charAt src 1 == c && charAt src 2 == c &&
    isBlankOrEnd (charAt src 3)

/-- Whether a line starts here with `---` or `...`. -/
def isDocumentIndicator (src : List Glyph) : Bool := isIndicator '-' src || isIndicator '.' src

/-- Pass over blanks and a comment to the end of the line, and over its break. -/
def endOfLine? (src : List Glyph) : Option (List Glyph) :=
  let (_, src) := span isBlank src
  let src := if charAt src 0 == '#' then (span (fun c => !isBreakOrEnd c) src).2 else src
  if isBreak (charAt src 0) then some src.tail
  else if isEnd (charAt src 0) then some src
  else none

end PartCatalog.Yaml
