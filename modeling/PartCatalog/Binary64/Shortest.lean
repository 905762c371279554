/-
# Shortest decimals -- the fewest digits that read back as a double

The points `d · 10 ^ e` form a grid for each `e`. `shortest` walks from coarse to
fine grids and takes the first on which one of the two neighbours of the number
reads back as that number; of two such neighbours the nearer, and halfway the one
that the tie rule names. Seventeen significant digits always suffice, so the last
answer, all digits of the exact value, is never reached by a finite number; it is
there to make the search total, and it reads back too.
-/
import PartCatalog.Binary64.Basic

set_option autoImplicit false

namespace PartCatalog

/-- The decimal `digits · 10 ^ exponent`. -/
structure Decimal where
  digits : Nat
  exponent : Int
deriving DecidableEq, Repr

/-- Which of two decimals at equal distance is taken. -/
inductive DecimalTie where
  | up
  | even
deriving DecidableEq, Repr

namespace Binary64

/-- A magnitude of `units` as the ratio whose whole part counts the steps of the
grid `10 ^ e` below it. -/
def gridRatio (units : Nat) (e : Int) : Nat × Nat :=
  if 0 ≤ e then (units, Nat.pow 2 1074 * Nat.pow 10 e.toNat)
  else (units * Nat.pow 10 (-e).toNat, Nat.pow 2 1074)

/-- The neighbour on the grid `10 ^ e` that reads back as the positive number
`x`, if one does. -/
def neighbour? (tie : DecimalTie) (x : Binary64) (e : Int) : Option Nat :=
  let (num, den) := gridRatio x.units e
  let low := num / den
  let twice := 2 * (num % den)
  let readsBack (d : Nat) : Bool := ofDecimal false d e = x
  if readsBack low then
    if readsBack (low + 1) then
      if twice < den then some low
      else if den < twice then some (low + 1)
      else match tie with
        | .up => some (low + 1)
        | .even => some (if low % 2 = 0 then low else low + 1)
    else some low
  else if readsBack (low + 1) then some (low + 1)
  else none

/-- The first grid from `10 ^ e` downwards with a neighbour that reads back,
trying as many grids as `count` says. -/
def searchGrids (tie : DecimalTie) (x : Binary64) : Nat → Int → Decimal
  | 0, _ => ⟨x.units * Nat.pow 5 1074, -1074⟩
  | count + 1, e =>
    match neighbour? tie x e with
    | some d => ⟨d, e⟩
    | none => searchGrids tie x count (e - 1)

/-- A power of ten that is no smaller than a positive magnitude, and less than a
hundred times as large. -/
def coarsest (units : Nat) : Int :=
  if Nat.pow 2 1074 ≤ units then decimalLength (units / Nat.pow 2 1074)
  else 1 - (decimalLength (Nat.pow 2 1074 / units) : Int)

/-- The magnitude of a finite number. -/
def abs : Binary64 → Binary64
  | .finite _ m p h => .finite false m p h
  | .infinite _ => .infinite false
  | .nan => .nan

/-- The decimal with the fewest digits that reads back as the magnitude of a
finite number. -/
def shortest (tie : DecimalTie) (x : Binary64) : Decimal :=
  if x.units = 0 then ⟨0, 0⟩ else searchGrids tie x.abs 20 (coarsest x.units)

end Binary64

end PartCatalog
