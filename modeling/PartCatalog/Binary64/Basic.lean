/-
# Double-precision numbers -- values, comparison, and rounding of an exact ratio

A finite number is `significand · 2 ^ scale` units of the smallest positive
double, `2 ^ -1074`; `Canonical` leaves one such pair for each magnitude, so
equal numbers of equal sign are equal terms. All arithmetic is exact on natural
numbers, and `round` is the one place where precision is lost: it takes a sign
and a ratio to the nearest double, a tie going to the even significand, and
what lies beyond the largest double to an infinity.
-/
set_option autoImplicit false

namespace PartCatalog

/-- The one significand and scale chosen for a magnitude. -/
def Binary64.Canonical (significand scale : Nat) : Prop :=
  significand < Nat.pow 2 53 ∧ (Nat.pow 2 52 ≤ significand ∨ scale = 0) ∧ scale ≤ 2045

instance (m p : Nat) : Decidable (Binary64.Canonical m p) :=
  inferInstanceAs (Decidable (_ ∧ _ ∧ _))

/-- A double-precision number; `finite neg m p` is `± m · 2 ^ (p - 1074)`. -/
inductive Binary64 where
  | nan
  | infinite (negative : Bool)
  | finite (negative : Bool) (significand scale : Nat)
      (canonical : Binary64.Canonical significand scale)
deriving DecidableEq

namespace Binary64

/-! ## Rounding -/

/-- The natural number nearest to `a / d`; halfway, the even one. -/
def nearestEven (a d : Nat) : Nat :=
  let q := a / d
  let r := a % d
  if 2 * r < d then q
  else if d < 2 * r then q + 1
  else if q % 2 = 0 then q else q + 1

/-- The number with this significand and scale, or the infinity of its sign
where no double is that large. -/
def pack (negative : Bool) (significand scale : Nat) : Binary64 :=
  if h : Canonical significand scale then .finite negative significand scale h
  else .infinite negative

/-- The double nearest to `± a / d` units, where `d` is positive. The scale is
chosen so that the quotient has 53 binary digits; rounding up to `2 ^ 53` moves
on to the next scale. -/
def roundUnits (negative : Bool) (a d : Nat) : Binary64 :=
  let scale := Nat.log2 (a / d) - 52
  let m := nearestEven a (d * Nat.pow 2 scale)
  if m = Nat.pow 2 53 then pack negative (Nat.pow 2 52) (scale + 1) else pack negative m scale

/-- The double nearest to `± num / den`, where `den` is positive. -/
def round (negative : Bool) (num den : Nat) : Binary64 :=
  roundUnits negative (num * Nat.pow 2 1074) den

theorem canonical_zero : Canonical 0 0 := by decide

/-- The zero of a sign. -/
def zero (negative : Bool) : Binary64 := .finite negative 0 0 canonical_zero

/-- The double nearest to an integer. -/
def ofInt (n : Int) : Binary64 := round (n < 0) n.natAbs 1

instance : Inhabited Binary64 := ⟨zero false⟩

/-! ## Decimals -/

/-- The number of decimal digits of a natural number. -/
def decimalLength (n : Nat) : Nat := (Nat.toDigits 10 n).length

/-- The double nearest to `± digits · 10 ^ exponent`. A decimal from `10 ^ 311` up
is infinite and one below `10 ^ -330` is zero, so neither power is computed. -/
def ofDecimal (negative : Bool) (digits : Nat) (exponent : Int) : Binary64 :=
  let top : Int := exponent + decimalLength digits
  if digits = 0 ∨ top < -330 then zero negative
  else if 311 < top then .infinite negative
  else if 0 ≤ exponent then round negative (digits * Nat.pow 10 exponent.toNat) 1
  else round negative digits (Nat.pow 10 (-exponent).toNat)

/-! ## Classes and comparison -/

def isNaN : Binary64 → Bool
  | .nan => true
  | _ => false

def isFinite : Binary64 → Bool
  | .finite .. => true
  | _ => false

/-- Whether the sign is set, also of a zero. -/
def isNegative : Binary64 → Bool
  | .nan => false
  | .infinite neg => neg
  | .finite neg .. => neg

/-- The magnitude of a finite number in units of `2 ^ -1074`. -/
def units : Binary64 → Nat
  | .finite _ m p _ => m * Nat.pow 2 p
  | _ => 0

/-- The place of a number on the line: an infinity is beyond all finite numbers,
and both zeros are at zero. -/
def rank : Binary64 → Int
  | .nan => 0
  | .infinite neg => if neg then -(Nat.pow 2 2099 : Int) else Nat.pow 2 2099
  | .finite neg m p _ => if neg then -(m * Nat.pow 2 p : Nat) else (m * Nat.pow 2 p : Nat)

/-- Numeric equality: not-a-number equals nothing, the two zeros are equal. -/
def numEq (x y : Binary64) : Bool := !x.isNaN && !y.isNaN && x.rank == y.rank

/-- Numeric order: not-a-number is in no order with anything. -/
def numLt (x y : Binary64) : Bool := !x.isNaN && !y.isNaN && decide (x.rank < y.rank)

/-- The magnitude rounded down to a natural number, of a finite number. -/
def wholePart (x : Binary64) : Nat := x.units / Nat.pow 2 1074

/-! ## Truncation to a machine integer -/

/-- The integer part as a signed 64-bit integer, the nearest bound for what lies
outside and zero for not-a-number. -/
def toInt64 : Binary64 → Int
  | .nan => 0
  | .infinite neg => if neg then -(Nat.pow 2 63 : Int) else (Nat.pow 2 63 - 1 : Nat)
  | .finite neg m p h =>
    let whole := wholePart (.finite neg m p h)
    if neg then -(min whole (Nat.pow 2 63) : Nat) else (min whole (Nat.pow 2 63 - 1) : Nat)

/-! ## Products and quotients -/

/-- The product, rounded. -/
def mul : Binary64 → Binary64 → Binary64
  | .finite a m p _, .finite b n q _ =>
    round (a != b) (m * Nat.pow 2 p * (n * Nat.pow 2 q)) (Nat.pow 2 1074 * Nat.pow 2 1074)
  | .nan, _ => .nan
  | _, .nan => .nan
  | x, y =>
    if x.rank = 0 ∨ y.rank = 0 then .nan else .infinite (x.isNegative != y.isNegative)

/-- The quotient, rounded; a quotient by zero is infinite, zero by zero and
infinity by infinity are not a number. -/
def div : Binary64 → Binary64 → Binary64
  | .finite a m p _, .finite b n q _ =>
    if n = 0 then if m = 0 then .nan else .infinite (a != b)
    else round (a != b) (m * Nat.pow 2 p) (n * Nat.pow 2 q)
  | .infinite a, .finite b .. => .infinite (a != b)
  | .finite a .., .infinite b => zero (a != b)
  | _, _ => .nan

end Binary64

end PartCatalog
