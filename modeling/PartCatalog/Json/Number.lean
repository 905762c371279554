/-
# JSON numbers -- digits kept in 64 bits, then scaled

The digits of a number are gathered into a significand as long as it fits 64 bits;
further digits before the point count only by their place, further digits after it
not at all. The significand and the power of ten are doubles, and one product or
quotient joins them, so the result may differ from the nearest double in its last
bit. A number that would be infinite is refused.
-/
import PartCatalog.Binary64.Reader

set_option autoImplicit false

namespace PartCatalog.Json

/-- The largest significand. -/
def maxSignificand : Nat := Nat.pow 2 64 - 1

/-- Add digits while the significand fits; what does not fit any more is left. -/
def gather (significand : Nat) : List Char → Nat × List Char
  | [] => (significand, [])
  | c :: rest =>
    let next := 10 * significand + (c.toNat - '0'.toNat)
    if next ≤ maxSignificand then gather next rest else (significand, c :: rest)

/-- The double nearest to a power of ten. -/
def powerOfTen (n : Nat) : Binary64 := Binary64.ofDecimal false 1 n

/-- A quotient by a power of ten. Beyond `10 ^ 308` it is taken in steps; a
significand of 64 bits is zero after three. -/
def scaleDown (x : Binary64) (n : Nat) : Nat → Binary64
  | 0 => Binary64.zero false
  | steps + 1 =>
    if n ≤ 308 then x.div (powerOfTen n)
    else if x.units = 0 then x
    else scaleDown (x.div (powerOfTen 308)) (n - 308) steps

/-- `significand · 10 ^ exponent`, unless that is infinite. -/
def scale? (significand : Nat) (exponent : Int) : Option Binary64 :=
  let x := Binary64.ofInt significand
  if exponent < 0 then some (scaleDown x exponent.natAbs 5)
  else if exponent ≤ 308 then
    let y := x.mul (powerOfTen exponent.toNat)
    if y.isFinite then some y else none
  else if significand = 0 then some x
  else none

/-- A number with its sign set. -/
def withSign (negative : Bool) : Binary64 → Binary64
  | .nan => .nan
  | .infinite _ => .infinite negative
  | .finite _ m p h => .finite negative m p h

/-- Digits before the point have no leading zero, unless they are one zero. -/
def isWhole (ds : List Char) : Bool :=
  match ds with
  | [] => false
  | ['0'] => true
  | '0' :: _ => false
  | _ => true

/-! ## Reading -/

/-- A minus taken off: whether there is one, and what follows. -/
def splitMinus : List Char → Bool × List Char
  | '-' :: rest => (true, rest)
  | cs => (false, cs)

/-- The digits after a point, if there is a point, and what follows them. -/
def splitFraction : List Char → Option (List Char) × List Char
  | '.' :: rest => (some (rest.takeWhile Char.isDigit), rest.dropWhile Char.isDigit)
  | cs => (none, cs)

/-- Whether the exponent is negative and its digits, if there is an exponent, and what
follows it. -/
def splitPower : List Char → Option (Bool × List Char) × List Char
  | [] => (none, [])
  | c :: rest =>
    if c = 'e' ∨ c = 'E' then
      let (negative, digits) := Binary64.splitSign rest
      (some (negative, digits.takeWhile Char.isDigit), digits.dropWhile Char.isDigit)
    else (none, c :: rest)

/-- The exponent that was split off. -/
def powerValue : Option (Bool × List Char) → Int
  | none => 0
  | some (negative, digits) => if negative then -(digitsValue digits) else digitsValue digits

/-- The number of digits before and after a point and an exponent. -/
def ofParts? (whole fraction : List Char) (power : Int) : Option Binary64 :=
  let (wholeSignificand, dropped) := gather 0 whole
  let (significand, droppedFraction) := gather wholeSignificand fraction
  let places : Int := dropped.length - (fraction.length - droppedFraction.length)
  scale? significand (places + power)

/-- The number at the head of the characters, and the characters after it. A point and
an exponent have at least one digit behind them. -/
def readNumber? (cs : List Char) : Option (Binary64 × List Char) :=
  let (negative, body) := splitMinus cs
  let whole := body.takeWhile Char.isDigit
  let (fraction, afterFraction) := splitFraction (body.dropWhile Char.isDigit)
  let (power, afterNumber) := splitPower afterFraction
  if !isWhole whole || fraction.any List.isEmpty || power.any (·.2.isEmpty) then none
  else (ofParts? whole (fraction.getD []) (powerValue power)).map fun x =>
    (withSign negative x, afterNumber)

end PartCatalog.Json
