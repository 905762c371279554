/-
# Reading doubles -- decimal text to the nearest double

The grammar is an optional sign, then `inf`, `infinity` or `nan` in any case, or
a decimal: digits with at most one point and at least one digit, and an optional
exponent `e` or `E` with an optional sign and at least one digit. Nothing may
stand before or after.
-/
import PartCatalog.Binary64.Basic

set_option autoImplicit false

namespace PartCatalog

/-- The natural number that a list of decimal digits denotes. -/
def digitsValue (ds : List Char) : Nat :=
  ds.foldl (fun n c => 10 * n + (c.toNat - '0'.toNat)) 0

namespace Binary64

/-- A leading sign taken off: whether it is a minus, and what follows. -/
def splitSign : List Char → Bool × List Char
  | '-' :: rest => (true, rest)
  | '+' :: rest => (false, rest)
  | cs => (false, cs)

/-- A digit string with optional sign, as an integer. -/
def readSigned? (cs : List Char) : Option Int :=
  let (negative, ds) := splitSign cs
  if ds ≠ [] ∧ ds.all Char.isDigit then
    some (if negative then -(digitsValue ds) else digitsValue ds)
  else none

/-- The exponent part: nothing, or `e` and a signed digit string. -/
def readExponent? : List Char → Option Int
  | [] => some 0
  | c :: rest => if c = 'e' ∨ c = 'E' then readSigned? rest else none

/-- The digits before the point, those after it, and what follows them. -/
def splitDecimal (cs : List Char) : List Char × List Char × List Char :=
  let whole := cs.takeWhile Char.isDigit
  match cs.dropWhile Char.isDigit with
  | '.' :: rest => (whole, rest.takeWhile Char.isDigit, rest.dropWhile Char.isDigit)
  | rest => (whole, [], rest)

/-- An unsigned decimal. -/
def readDecimal? (negative : Bool) (cs : List Char) : Option Binary64 :=
  let (whole, fraction, rest) := splitDecimal cs
  if whole = [] ∧ fraction = [] then none
  else (readExponent? rest).map fun e =>
    ofDecimal negative (digitsValue (whole ++ fraction)) (e - fraction.length)

/-- The double that a text denotes, if it is in the grammar. -/
def ofChars? (cs : List Char) : Option Binary64 :=
  let (negative, body) := splitSign cs
  let word := String.ofList (body.map Char.toLower)
  if word = "inf" ∨ word = "infinity" then some (.infinite negative)
  else if word = "nan" then some .nan
  else readDecimal? negative body

/-- The double that a text denotes, if it is in the grammar. -/
def ofText? (s : String) : Option Binary64 := ofChars? s.toList

end Binary64

end PartCatalog
