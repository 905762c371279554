/-
# Styles -- how a text is written as a scalar

A text is written plain if a reader takes the plain scalar for this very text and
nothing in it means something else. Otherwise it is quoted, with single quotes if it
can be, or else with double quotes and escapes. A text of several lines is a literal
block if a block can hold it. Words that older readers take for bools are quoted too.
-/
import PartCatalog.Yaml.Glyph
import PartCatalog.Yaml.Scalar

set_option autoImplicit false

namespace PartCatalog.Yaml

/-- A way to write a scalar. -/
inductive Style where
  | plain
  | singleQuoted
  | doubleQuoted
  | literal
deriving DecidableEq, Repr

/-! ## What a text contains -/

/-- A line break, however it is written. -/
def isAnyBreak (c : Char) : Bool := isBreak c || c == '\r' || c.toNat == 0x85

/-- Whether a character is written as it is. -/
def isPrintable (c : Char) : Bool :=
  isLegal c && c != '\t' && c != '\r' && c.toNat != 0x85 && !isByteOrderMark c && !isEnd c

/-- Whether some character and the one after it pass a test. -/
def hasPair (p : Char → Char → Bool) : List Char → Bool
  | a :: b :: rest => p a b || hasPair p (b :: rest)
  | _ => false

/-- Whether a space and a line break meet in this order. -/
def hasSpaceBeforeBreak : List Char → Bool := hasPair fun a b => a == ' ' && isBreak b

/-- Whether a line break and a space meet in this order. -/
def hasBreakBeforeSpace : List Char → Bool := hasPair fun a b => isBreak a && b == ' '

def isBackquote (c : Char) : Bool := c.toNat == 0x60

/-- Whether no plain scalar starts with a character. -/
def isIndicatorChar (c : Char) : Bool :=
  isBackquote c ||
  ['#', ',', '[', ']', '\x7b', '\x7d', '&', '*', '!', '|', '>', '\'', '"', '%', '@'].contains c

/-- Whether a text starts like something that is no plain scalar. -/
def startsSpecially : List Char → Bool
  | '-' :: '-' :: '-' :: _ => true
  | '.' :: '.' :: '.' :: _ => true
  | c :: rest =>
    isIndicatorChar c ||
      ((c == '?' || c == ':' || c == '-') && (rest.head?.all (· == ' ')))
  | [] => false

/-- Whether a key would end or a comment would start inside a plain text. -/
def isInterrupted (cs : List Char) : Bool :=
  hasPair (fun a b => a == ':' && b == ' ') cs || cs.getLast? == some ':' ||
    hasPair (fun a b => a == ' ' && b == '#') cs

/-! ## Which styles a text can have -/

def canBePlain (cs : List Char) : Bool :=
  cs.all (fun c => isPrintable c && !isAnyBreak c) && cs.head? != some ' ' &&
    cs.getLast? != some ' ' && !startsSpecially cs && !isInterrupted cs

def canBeSingleQuoted (cs : List Char) : Bool :=
  cs.all isPrintable && !hasSpaceBeforeBreak cs && !hasBreakBeforeSpace cs

def canBeLiteral (cs : List Char) : Bool :=
  cs.all isPrintable && !hasSpaceBeforeBreak cs && cs.getLast? != some ' '

/-- The words that stand for a bool in older documents. -/
def formerBoolWords : List String :=
  ["y", "Y", "yes", "Yes", "YES", "n", "N", "no", "No", "NO", "true", "True", "TRUE",
    "false", "False", "FALSE", "on", "On", "ON", "off", "Off", "OFF"]

/-- Whether a plain scalar would be read as this text, by older readers too. -/
def readsAsText (s : String) : Bool :=
  !formerBoolWords.contains s && !hasNeedlessZero s &&
    match plainNode? s with
    | some (.str _) => true
    | _ => false

/-- The style that suits a text, whether or not the text can have it. -/
def suitingStyle (s : String) : Style :=
  if s.toList.contains '\n' then .literal
  else if readsAsText s then .plain
  else .singleQuoted

/-- The style of a text: the one that suits it, or the next more careful one. -/
def styleOf (s : String) : Style :=
  let cs := s.toList
  let quoted := if canBeSingleQuoted cs then Style.singleQuoted else .doubleQuoted
  match suitingStyle s with
  | .plain => if canBePlain cs then .plain else quoted
  | .literal => if canBeLiteral cs then .literal else .doubleQuoted
  | _ => quoted

/-! ## Writing -/

def spaces (n : Nat) : List Char := List.replicate n ' '

/-- Hexadecimal digits, filled up with zeros. -/
def hexDigits (width n : Nat) : List Char :=
  let ds := (Nat.toDigits 16 n).map Char.toUpper
  List.replicate (width - ds.length) '0' ++ ds

/-- The escape of a character, without its backslash. -/
def escapeCode (c : Char) : List Char :=
  match c.toNat with
  | 0x00 => ['0']
  | 0x07 => ['a']
  | 0x08 => ['b']
  | 0x09 => ['t']
  | 0x0A => ['n']
  | 0x0B => ['v']
  | 0x0C => ['f']
  | 0x0D => ['r']
  | 0x1B => ['e']
  | 0x22 => ['"']
  | 0x5C => ['\\']
  | 0x85 => ['N']
  | 0x2028 => ['L']
  | 0x2029 => ['P']
  | n =>
    if n ≤ 0xFF then 'x' :: hexDigits 2 n
    else if n ≤ 0xFFFF then 'u' :: hexDigits 4 n
    else 'U' :: hexDigits 8 n

/-- A character between double quotes. -/
def escaped (c : Char) : List Char :=
  if isPrintable c && !isAnyBreak c && c != '"' && c != '\\' then [c] else '\\' :: escapeCode c

/-- A character between single quotes. -/
def doubled (c : Char) : List Char := if c == '\'' then ['\'', '\''] else [c]

/-- Lines at an indentation. An empty line is not indented. -/
def indented (indent : Nat) (write : Char → List Char) (atStart : Bool) :
    List Char → List Char
  | [] => []
  | c :: rest =>
    if isBreak c then c :: indented indent write true rest
    else (if atStart then spaces indent else []) ++ write c ++ indented indent write false rest

/-- Whether a text ends at the start of a line. -/
def endsLine (cs : List Char) : Bool := cs.getLast?.any isBreak

/-- How the last line breaks of a literal block are kept: all, one or none. -/
def chomping (cs : List Char) : List Char :=
  match cs.reverse with
  | [] => ['-']
  | [c] => if isBreak c then ['+'] else ['-']
  | c :: d :: _ => if !isBreak c then ['-'] else if isBreak d then ['+'] else []

/-- The first line of a literal block. The indentation is given where it cannot be
seen. -/
def literalHeader (cs : List Char) : List Char :=
  let indentation := if cs.head?.any fun c => c == ' ' || isBreak c then ['2'] else []
  '|' :: (indentation ++ chomping cs ++ ['\n'])

/-- A text in a style, its further lines at an indentation. -/
def textChars (indent : Nat) (s : String) : List Char :=
  let cs := s.toList
  match styleOf s with
  | .plain => cs
  | .singleQuoted =>
    let closing := (if endsLine cs then spaces indent else []) ++ ['\'']
    '\'' :: (indented indent doubled false cs ++ closing)
  | .doubleQuoted => '"' :: (cs.flatMap escaped ++ ['"'])
  | .literal => literalHeader cs ++ indented indent (fun c => [c]) true cs

end PartCatalog.Yaml
