/-
# Values in JSON -- written by their shape, read by their shape

A value is written as null, a bool, a number or a string, and read back from just
those; a type is written as its label. `readValue?` and `readType?` take a whole
text, blanks around it allowed.
-/
import PartCatalog.Json.Basic
import PartCatalog.Json.Number
import PartCatalog.ParameterType
import PartCatalog.Text.Hexadecimal

set_option autoImplicit false

namespace PartCatalog

/-- The JSON text of a value. -/
def Value.toJson : Value → Json
  | .absent => .null
  | .bool b => .bool b
  | .number x => .number x
  | .text s => .string s

namespace Json

/-- Blanks between the parts of a JSON text. -/
def isBlank (c : Char) : Bool := c = ' ' || c = '\n' || c = '\t' || c = '\r'

def skipBlanks (cs : List Char) : List Char := cs.dropWhile isBlank

/-- The number of four hexadecimal digits. -/
def hexFour? (a b c d : Char) : Option Nat := do
  return (((← Text.hexDigit? a) * 16 + (← Text.hexDigit? b)) * 16 + (← Text.hexDigit? c)) * 16 +
    (← Text.hexDigit? d)

/-- The character of a two-unit escape: a high and a low surrogate. -/
def pairChar? (high low : Nat) : Option Char :=
  if 0xDC00 ≤ low ∧ low ≤ 0xDFFF then
    some (Char.ofNat (0x10000 + (high - 0xD800) * 0x400 + (low - 0xDC00)))
  else none

/-- The character of an escape letter. -/
def letterEscape? (c : Char) : Option Char :=
  if c = '"' ∨ c = '\\' ∨ c = '/' then some c
  else if c = 'b' then some (Char.ofNat 8)
  else if c = 'f' then some (Char.ofNat 12)
  else if c = 'n' then some '\n'
  else if c = 'r' then some '\r'
  else if c = 't' then some '\t'
  else none

/-- The characters of a string up to its closing quote, and what follows. -/
def readChars? : List Char → Option (List Char × List Char)
  | [] => none
  | '"' :: rest => some ([], rest)
  | '\\' :: 'u' :: a :: b :: c :: d :: rest =>
    match hexFour? a b c d with
    | none => none
    | some n =>
      if 0xDC00 ≤ n ∧ n ≤ 0xDFFF then none
      else if 0xD800 ≤ n ∧ n ≤ 0xDBFF then
        match rest with
        | '\\' :: 'u' :: e :: f :: g :: h :: after => do
          let x ← pairChar? n (← hexFour? e f g h)
          let (xs, rest) ← readChars? after
          return (x :: xs, rest)
        | _ => none
      else (readChars? rest).map fun (xs, rest) => (Char.ofNat n :: xs, rest)
  | '\\' :: c :: rest =>
    match letterEscape? c with
    | none => none
    | some x => (readChars? rest).map fun (xs, rest) => (x :: xs, rest)
  | c :: rest =>
    if c.toNat < 32 ∨ c = '\\' then none
    else (readChars? rest).map fun (xs, rest) => (c :: xs, rest)

/-- The string at the head of the characters, and the characters after it. -/
def readString? : List Char → Option (String × List Char)
  | '"' :: rest => (readChars? rest).map fun (xs, rest) => (String.ofList xs, rest)
  | _ => none

/-- The value at the head of the characters, and the characters after it. -/
def readScalar? : List Char → Option (Value × List Char)
  | 'n' :: 'u' :: 'l' :: 'l' :: rest => some (.absent, rest)
  | 't' :: 'r' :: 'u' :: 'e' :: rest => some (.bool true, rest)
  | 'f' :: 'a' :: 'l' :: 's' :: 'e' :: rest => some (.bool false, rest)
  | '"' :: rest => (readString? ('"' :: rest)).map fun (s, rest) => (.text s, rest)
  | cs => (readNumber? cs).map fun (x, rest) => (.number x, rest)

/-- The value that a text denotes. -/
def readValue? (s : String) : Option Value := do
  let (value, rest) ← readScalar? (skipBlanks s.toList)
  if skipBlanks rest = [] then some value else none

/-- A label, alone or as the only member of an object with the value null. -/
def readLabel? (cs : List Char) : Option (String × List Char) :=
  match cs with
  | '\x7b' :: rest => do
    let (label, rest) ← readString? (skipBlanks rest)
    match skipBlanks rest with
    | ':' :: rest =>
      match skipBlanks rest with
      | 'n' :: 'u' :: 'l' :: 'l' :: rest =>
        match skipBlanks rest with
        | '\x7d' :: rest => some (label, rest)
        | _ => none
      | _ => none
    | _ => none
  | _ => readString? cs

/-- The type that a text denotes. -/
def readType? (s : String) : Option ParameterType := do
  let (label, rest) ← readLabel? (skipBlanks s.toList)
  if skipBlanks rest = [] then ParameterType.ofLabel? label else none

end Json

end PartCatalog
