/-
# Layouts -- how a double is written

All layouts write the shortest digits; they differ in where positional notation
ends, whether a whole number keeps a fraction, the form of the exponent, and the
words for what is not finite. Each use in the library is one value of `Layout`.
-/
import PartCatalog.Binary64.Shortest

set_option autoImplicit false

namespace PartCatalog

/-- Decimal digits of a natural number. -/
def natChars (n : Nat) : List Char := Nat.toDigits 10 n

/-- Decimal digits of an integer, a minus before a negative one. -/
def intChars (n : Int) : List Char :=
  if n < 0 then '-' :: natChars n.natAbs else natChars n.natAbs

/-- The choices of a way to write doubles. A number in scientific notation with
exponent `k` is written positionally if `positional k` holds. -/
structure Layout where
  tie : DecimalTie
  positional : Int → Bool
  keepsFraction : Bool
  exponentPlus : Bool
  exponentDigits : Nat
  nan : String
  infinity : String
  negativeInfinity : String

namespace Layout

/-- Digits without an exponent: zeros fill up to the point on either side. -/
def positionalChars (keepsFraction : Bool) (d : Decimal) : List Char :=
  let ds := natChars d.digits
  if 0 ≤ d.exponent then
    ds ++ List.replicate d.exponent.toNat '0' ++ (if keepsFraction then ['.', '0'] else [])
  else
    let places := (-d.exponent).toNat
    if places < ds.length then
      ds.take (ds.length - places) ++ '.' :: ds.drop (ds.length - places)
    else '0' :: '.' :: (List.replicate (places - ds.length) '0' ++ ds)

/-- An exponent: its sign, and digits filled up with zeros. -/
def exponentChars (plus : Bool) (width : Nat) (k : Int) : List Char :=
  let ds := natChars k.natAbs
  (if k < 0 then ['-'] else if plus then ['+'] else [])
    ++ List.replicate (width - ds.length) '0' ++ ds

/-- One digit, the others after a point, and the exponent. -/
def scientificChars (layout : Layout) (d : Decimal) (k : Int) : List Char :=
  let significand :=
    match natChars d.digits with
    | first :: second :: rest => first :: '.' :: second :: rest
    | ds => ds
  significand ++ 'e' :: exponentChars layout.exponentPlus layout.exponentDigits k

/-- The exponent of a decimal in scientific notation. -/
def scientificExponent (d : Decimal) : Int :=
  d.exponent + (natChars d.digits).length - 1

/-- A decimal without sign. -/
def decimalChars (layout : Layout) (d : Decimal) : List Char :=
  let k := scientificExponent d
  if d.digits = 0 ∨ layout.positional k then positionalChars layout.keepsFraction d
  else layout.scientificChars d k

/-- The text of a double. -/
def chars (layout : Layout) : Binary64 → List Char
  | .nan => layout.nan.toList
  | .infinite neg => (if neg then layout.negativeInfinity else layout.infinity).toList
  | .finite neg m p h =>
    (if neg then ['-'] else []) ++
      layout.decimalChars (Binary64.shortest layout.tie (.finite neg m p h))

/-- The text of a double. -/
def text (layout : Layout) (x : Binary64) : String := String.ofList (layout.chars x)

/-- Plain digits, never an exponent and no fraction on a whole number. -/
def plain : Layout where
  tie := .up
  positional _ := true
  keepsFraction := false
  exponentPlus := false
  exponentDigits := 1
  nan := "NaN"
  infinity := "inf"
  negativeInfinity := "-inf"

/-- Always a fraction or an exponent, as names show a number in running text:
positional from `1e-4` to below `1e16`, exponents signed and of two digits. -/
def name : Layout where
  tie := .up
  positional k := -4 ≤ k && k < 16
  keepsFraction := true
  exponentPlus := true
  exponentDigits := 2
  nan := "nan"
  infinity := "inf"
  negativeInfinity := "-inf"

/-- Document numbers: always a fraction or an exponent, positional from `1e-5` to
below `1e16`. -/
def document : Layout where
  tie := .even
  positional k := -5 ≤ k && k < 16
  keepsFraction := true
  exponentPlus := false
  exponentDigits := 1
  nan := ".nan"
  infinity := ".inf"
  negativeInfinity := "-.inf"

/-- JSON numbers: as in documents, with a sign on every exponent. What is not
finite has no JSON number and is written as `null`. -/
def json : Layout where
  tie := .even
  positional k := -5 ≤ k && k < 16
  keepsFraction := true
  exponentPlus := true
  exponentDigits := 1
  nan := "null"
  infinity := "null"
  negativeInfinity := "null"

end Layout

end PartCatalog
