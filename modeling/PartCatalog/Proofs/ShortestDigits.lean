/-
# Shortest digits -- seventeen of them always suffice

A ratio whose distance from a double is less than the `2 ^ 54`th part of that double is rounded
to it, also where the doubles below stand closer than those above (`roundUnits_of_near`).  On
the grid seventeen places below the coarsest one a double has at least `10 ^ 16` steps, so the
nearer of its two neighbours is as close as that and reads back (`neighbour?_coarsest_ne_none`).
So the search for the shortest digits ends on that grid at the latest, and never takes all
digits of the exact value (`exists_neighbour_shortest`); and since a double has no more than
`10 ^ 17` steps there and fewer on every coarser grid, the digits it finds fit a machine word
(`shortest_digits_le`).
-/
import PartCatalog.Proofs.NumberReading

set_option autoImplicit false

namespace PartCatalog.Binary64

/-! ## Ratios near a double -/

/-- A ratio less than half a step away from a natural number is rounded to it. -/
theorem nearestEven_of_near {a d m : Nat} (above : 2 * (m * d) < 2 * a + d)
    (below : 2 * a < 2 * (m * d) + d) : nearestEven a d = m := by
  have positive : 0 < d := by omega
  have rest : a % d < d := Nat.mod_lt a positive
  have parts : a / d * d + a % d = a := Nat.div_add_mod' a d
  have atMost : a / d ≤ m := by
    by_contra more
    have steps : (m + 1) * d ≤ a / d * d := Nat.mul_le_mul_right d (by omega)
    rw [Nat.succ_mul] at steps
    omega
  have atLeast : m ≤ a / d + 1 := by
    by_contra fewer
    have steps : (a / d + 2) * d ≤ m * d := Nat.mul_le_mul_right d (by omega)
    rw [Nat.add_mul] at steps
    omega
  unfold nearestEven
  dsimp only
  rcases Nat.lt_or_ge (a / d) m with down | up
  · have isNext : a / d + 1 = m := by omega
    have steps : (a / d + 1) * d = a / d * d + d := Nat.succ_mul ..
    rw [isNext] at steps
    rw [if_neg (by omega), if_pos (by omega), isNext]
  · have same : a / d = m := by omega
    rw [same] at parts ⊢
    exact if_pos (by omega)

/-- Where the magnitude of a ratio lies tells the scale that rounding chooses for it. -/
theorem scale_of_bounds {a d scale : Nat} (positive : 0 < d)
    (low : scale = 0 ∨ 2 ^ 52 * (d * 2 ^ scale) ≤ a) (high : a < 2 ^ 53 * (d * 2 ^ scale)) :
    Nat.log2 (a / d) - 52 = scale := by
  have below : a / d < 2 ^ (53 + scale) := by
    rw [Nat.div_lt_iff_lt_mul positive, Nat.pow_add, Nat.mul_assoc, Nat.mul_comm (2 ^ scale)]
    exact high
  rcases low with rfl | low
  · by_cases zero : a / d = 0
    · rw [zero, Nat.log2_zero]
    · have short : Nat.log2 (a / d) < 53 := (Nat.log2_lt zero).2 below
      omega
  · have above : 2 ^ (52 + scale) ≤ a / d := by
      rw [Nat.le_div_iff_mul_le positive, Nat.pow_add, Nat.mul_assoc, Nat.mul_comm (2 ^ scale)]
      exact low
    have nonzero : a / d ≠ 0 := Nat.ne_of_gt (Nat.lt_of_lt_of_le (Nat.two_pow_pos _) above)
    have long : 52 + scale ≤ Nat.log2 (a / d) := (Nat.le_log2 nonzero).2 above
    have short : Nat.log2 (a / d) < 53 + scale := (Nat.log2_lt nonzero).2 below
    omega

/-- **A ratio near a double is rounded to it.** -/
theorem roundUnits_of_near {a d significand scale : Nat} (negative : Bool)
    (canonical : Canonical significand scale) (positive : 0 < d)
    (above : 2 ^ 54 * a < (2 ^ 54 + 1) * (significand * (d * 2 ^ scale)))
    (below : (2 ^ 54 - 1) * (significand * (d * 2 ^ scale)) < 2 ^ 54 * a) :
    roundUnits negative a d = pack negative significand scale := by
  obtain ⟨small, normal, -⟩ := canonical
  have small : significand < 2 ^ 53 := small
  have most : (significand + 1) * (d * 2 ^ scale) ≤ 2 ^ 53 * (d * 2 ^ scale) :=
    Nat.mul_le_mul_right _ small
  rw [Nat.succ_mul] at most
  have nearest : nearestEven a (d * 2 ^ scale) = significand := nearestEven_of_near (by omega) (by omega)
  by_cases stays : scale = 0 ∨ 2 ^ 52 * (d * 2 ^ scale) ≤ a
  · have isScale := scale_of_bounds positive stays (by omega)
    simp only [roundUnits, isScale, Nat.pow_eq, nearest]
    exact if_neg (Nat.ne_of_lt small)
  · -- Below a power of two the steps are half as long, and rounding comes back up to it.
    obtain ⟨scaled, under⟩ := not_or.1 stays
    obtain ⟨finer, rfl⟩ := Nat.exists_eq_add_one_of_ne_zero scaled
    have leading : 2 ^ 52 ≤ significand := normal.resolve_right scaled
    have least : 2 ^ 52 * (d * 2 ^ (finer + 1)) ≤ significand * (d * 2 ^ (finer + 1)) :=
      Nat.mul_le_mul_right _ leading
    have isLeast : significand = 2 ^ 52 := by
      by_contra more
      have next : (2 ^ 52 + 1) * (d * 2 ^ (finer + 1)) ≤ significand * (d * 2 ^ (finer + 1)) :=
        Nat.mul_le_mul_right _ (by omega)
      rw [Nat.succ_mul] at next
      omega
    have halved : d * 2 ^ (finer + 1) = 2 * (d * 2 ^ finer) := by
      rw [Nat.pow_succ, ← Nat.mul_assoc, Nat.mul_comm _ 2]
    rw [isLeast, halved] at above below
    rw [halved] at under
    have isScale : Nat.log2 (a / d) - 52 = finer := scale_of_bounds positive (.inr (by omega)) (by omega)
    have carried : nearestEven a (d * 2 ^ finer) = 2 ^ 53 := nearestEven_of_near (by omega) (by omega)
    simp only [roundUnits, isScale, Nat.pow_eq, carried, if_true, isLeast]

/-! ## Decimals near a double -/

variable {x : Binary64} {digits units : Nat} {e : Int}

/-- The parts of an exponent stand on the two sides of the ratio. -/
theorem gridRatio_eq (units : Nat) (e : Int) :
    gridRatio units e = (units * 10 ^ (-e).toNat, Nat.pow 2 1074 * 10 ^ e.toNat) := by
  unfold gridRatio
  generalize Nat.pow 2 1074 = one
  simp only [Nat.pow_eq]
  split
  · next whole =>
    have noPlaces : (-e).toNat = 0 := by omega
    rw [noPlaces, Nat.pow_zero, Nat.mul_one]
  · next fraction =>
    have noPower : e.toNat = 0 := by omega
    rw [noPower, Nat.pow_zero, Nat.mul_one]

theorem gridRatio_pos (units : Nat) (e : Int) : 0 < (gridRatio units e).2 := by
  have ratio := gridRatio_eq units e
  generalize 1074 = k at ratio
  rw [ratio]
  exact Nat.mul_pos (Nat.two_pow_pos k) (Nat.pow_pos (by decide))

/-- A decimal is rounded as the ratio of its steps on its grid to the steps that one unit has
there. -/
theorem ofDecimal_eq_roundUnits (units digits : Nat) (e : Int) :
    ofDecimal false digits e = roundUnits false (digits * (gridRatio units e).2) (10 ^ (-e).toNat) := by
  have ratio := gridRatio_eq units e
  rw [ofDecimal_eq_round]
  unfold round
  generalize 1074 = k at ratio ⊢
  rw [ratio, Nat.mul_assoc, Nat.mul_comm (10 ^ e.toNat), Nat.pow_eq]

/-- On a grid on which a double has `10 ^ 16` steps, a decimal no more than half a step away from it
is read as the double. -/
theorem ofDecimal_of_near (nonzero : x.units ≠ 0)
    (fine : 10 ^ 16 * (gridRatio x.units e).2 ≤ (gridRatio x.units e).1)
    (below : 2 * (gridRatio x.units e).1 ≤ 2 * (digits * (gridRatio x.units e).2) + (gridRatio x.units e).2)
    (above : 2 * (digits * (gridRatio x.units e).2) ≤ 2 * (gridRatio x.units e).1 + (gridRatio x.units e).2) :
    ofDecimal false digits e = x.abs := by
  have someSteps := gridRatio_pos x.units e
  have isNumber : (gridRatio x.units e).1 = x.units * 10 ^ (-e).toNat := by rw [gridRatio_eq]
  have positive : 0 < 10 ^ (-e).toNat := Nat.pow_pos (by decide)
  rw [ofDecimal_eq_roundUnits x.units]
  generalize 10 ^ (-e).toNat = c at isNumber positive ⊢
  obtain ⟨negative, m, p, canonical, rfl⟩ := exists_eq_finite (isFinite_of_units nonzero)
  have isDouble : pack false m p = (finite negative m p canonical).abs := dif_pos canonical
  have scaled : (finite negative m p canonical).units * c = m * (c * 2 ^ p) := by
    show m * 2 ^ p * c = m * (c * 2 ^ p)
    rw [Nat.mul_assoc, Nat.mul_comm c]
  rw [isNumber, scaled] at fine above below
  rw [← isDouble]
  apply roundUnits_of_near false canonical positive
  · omega
  · omega

/-! ## Grids -/

theorem units_of_one_pos : 0 < Nat.pow 2 1074 := by
  generalize 1074 = k
  exact Nat.two_pow_pos k

theorem units_of_power_pos (a : Nat) : 0 < Nat.pow 2 1074 * 10 ^ a := by
  generalize 1074 = k
  exact Nat.mul_pos (Nat.two_pow_pos k) (Nat.pow_pos (by decide))

/-- A number of units over the grid of an exponent is the number itself over a power of ten, on
whichever sides the two parts of the exponent stand. -/
theorem gridRatio_cross (units : Nat) {a b : Nat} (isExponent : e = (a : Int) - b) :
    (gridRatio units e).1 * (Nat.pow 2 1074 * 10 ^ a) = units * 10 ^ b * (gridRatio units e).2 := by
  rw [gridRatio_eq]
  generalize Nat.pow 2 1074 = one
  have places : (-e).toNat + a = b + e.toNat := by omega
  calc units * 10 ^ (-e).toNat * (one * 10 ^ a) = units * one * 10 ^ ((-e).toNat + a) := by rw [Nat.pow_add]; ac_rfl
    _ = units * one * 10 ^ (b + e.toNat) := by rw [places]
    _ = units * 10 ^ b * (one * 10 ^ e.toNat) := by rw [Nat.pow_add]; ac_rfl

/-- A number of units lies between two powers of ten that follow each other, and the larger of
them is the coarsest grid. -/
theorem exists_coarsest_eq (nonzero : units ≠ 0) :
    ∃ a b : Nat, coarsest units = (a : Int) - b ∧ units * 10 ^ b ≤ Nat.pow 2 1074 * 10 ^ a ∧
      Nat.pow 2 1074 * 10 ^ a ≤ 10 * (units * 10 ^ b) := by
  have positive : 0 < units := Nat.pos_of_ne_zero nonzero
  have somePower := units_of_one_pos
  unfold coarsest
  generalize Nat.pow 2 1074 = one at somePower ⊢
  split
  · next large =>
    obtain ⟨someDigits, least, most⟩ := decimalLength_bounds (Nat.div_pos large somePower)
    rw [Nat.le_div_iff_mul_le somePower] at least
    rw [Nat.div_lt_iff_lt_mul somePower] at most
    obtain ⟨k, isLength⟩ := Nat.exists_eq_add_one_of_ne_zero (Nat.ne_of_gt someDigits)
    rw [isLength] at least most ⊢
    refine ⟨k + 1, 0, by omega, ?_, ?_⟩
    · rw [Nat.pow_zero, Nat.mul_one, Nat.mul_comm one]
      exact Nat.le_of_lt most
    · rw [Nat.pow_zero, Nat.mul_one, Nat.pow_succ, ← Nat.mul_assoc, Nat.mul_comm _ 10, Nat.mul_comm one]
      exact Nat.mul_le_mul_left 10 least
  · next small =>
    have below : units ≤ one := Nat.le_of_lt (Nat.not_le.1 small)
    obtain ⟨someDigits, least, most⟩ := decimalLength_bounds (Nat.div_pos below positive)
    rw [Nat.le_div_iff_mul_le positive] at least
    rw [Nat.div_lt_iff_lt_mul positive] at most
    obtain ⟨k, isLength⟩ := Nat.exists_eq_add_one_of_ne_zero (Nat.ne_of_gt someDigits)
    rw [isLength] at least most ⊢
    refine ⟨1, k + 1, by omega, ?_, ?_⟩
    · rw [Nat.pow_one, Nat.pow_succ, ← Nat.mul_assoc, Nat.mul_comm units]
      exact Nat.mul_le_mul_right 10 least
    · rw [Nat.pow_one, Nat.mul_comm one, Nat.mul_comm units]
      exact Nat.mul_le_mul_left 10 (Nat.le_of_lt most)

/-- On the grid seventeen places below the coarsest one a number has at least `10 ^ 16` steps. -/
theorem gridRatio_coarsest (nonzero : units ≠ 0) :
    10 ^ 16 * (gridRatio units (coarsest units - 17)).2 ≤ (gridRatio units (coarsest units - 17)).1 := by
  obtain ⟨a, b, isCoarsest, -, least⟩ := exists_coarsest_eq nonzero
  have cross := gridRatio_cross units (a := a) (b := b + 17) (e := coarsest units - 17) (by omega)
  have positive := units_of_power_pos a
  generalize gridRatio units (coarsest units - 17) = ratio at cross ⊢
  generalize Nat.pow 2 1074 * 10 ^ a = power at least cross positive
  have next : 10 ^ (b + 17) = 10 ^ 16 * 10 * 10 ^ b := by
    rw [Nat.pow_add, Nat.mul_comm, Nat.pow_succ 10 16]
  refine Nat.le_of_mul_le_mul_right ?_ positive
  calc 10 ^ 16 * ratio.2 * power = ratio.2 * (10 ^ 16 * power) := by ac_rfl
    _ ≤ ratio.2 * (10 ^ 16 * (10 * (units * 10 ^ b))) := Nat.mul_le_mul_left _ (Nat.mul_le_mul_left _ least)
    _ = units * 10 ^ (b + 17) * ratio.2 := by rw [next]; ac_rfl
    _ = ratio.1 * power := cross.symm

/-- On that grid and the coarser ones it has at most `10 ^ 17` of them. -/
theorem gridRatio_le (nonzero : units ≠ 0) (notFiner : coarsest units - 17 ≤ e) :
    (gridRatio units e).1 ≤ 10 ^ 17 * (gridRatio units e).2 := by
  obtain ⟨a, b, isCoarsest, most, -⟩ := exists_coarsest_eq nonzero
  obtain ⟨steps, isGrid⟩ := Int.le.dest notFiner
  have cross := gridRatio_cross units (a := a + steps) (b := b + 17) (e := e) (by omega)
  have positive := units_of_power_pos (a + steps)
  have shorter : 10 ^ a ≤ 10 ^ (a + steps) := Nat.pow_le_pow_right (by decide) (Nat.le_add_right a steps)
  generalize gridRatio units e = ratio at cross ⊢
  generalize Nat.pow 2 1074 = one at most cross positive
  refine Nat.le_of_mul_le_mul_right ?_ positive
  calc ratio.1 * (one * 10 ^ (a + steps)) = units * 10 ^ (b + 17) * ratio.2 := cross
    _ = 10 ^ 17 * ratio.2 * (units * 10 ^ b) := by rw [Nat.pow_add]; ac_rfl
    _ ≤ 10 ^ 17 * ratio.2 * (one * 10 ^ a) := Nat.mul_le_mul_left _ most
    _ ≤ 10 ^ 17 * ratio.2 * (one * 10 ^ (a + steps)) := Nat.mul_le_mul_left _ (Nat.mul_le_mul_left _ shorter)

/-- On the grid seventeen places below the coarsest one a neighbour reads back. -/
theorem neighbour?_coarsest_ne_none (tie : DecimalTie) (nonzero : x.units ≠ 0) :
    neighbour? tie x.abs (coarsest x.units - 17) ≠ none := by
  intro isNone
  obtain ⟨lowApart, highApart⟩ := neighbour?_eq_none_iff.1 isNone
  rw [units_abs] at lowApart highApart
  have fine := gridRatio_coarsest nonzero
  have positive := gridRatio_pos x.units (coarsest x.units - 17)
  have near := fun digits => @ofDecimal_of_near x digits (coarsest x.units - 17) nonzero fine
  generalize gridRatio x.units (coarsest x.units - 17) = ratio at *
  have rest : ratio.1 % ratio.2 < ratio.2 := Nat.mod_lt ratio.1 positive
  have parts : ratio.1 / ratio.2 * ratio.2 + ratio.1 % ratio.2 = ratio.1 := Nat.div_add_mod' ratio.1 ratio.2
  have next : (ratio.1 / ratio.2 + 1) * ratio.2 = ratio.1 / ratio.2 * ratio.2 + ratio.2 := Nat.succ_mul ..
  by_cases lower : 2 * (ratio.1 % ratio.2) ≤ ratio.2
  · apply lowApart
    apply near (ratio.1 / ratio.2) <;> omega
  · apply highApart
    apply near (ratio.1 / ratio.2 + 1) <;> omega

/-- **The shortest digits of a double are digits of a neighbour**: the search never runs out. -/
theorem exists_neighbour_shortest (tie : DecimalTie) (nonzero : x.units ≠ 0) :
    coarsest x.units - 17 ≤ (shortest tie x).exponent ∧
      neighbour? tie x.abs (shortest tie x).exponent = some (shortest tie x).digits := by
  have isNeighbour : neighbour? tie x.abs (coarsest x.units - (17 : Nat)) ≠ none :=
    neighbour?_coarsest_ne_none tie nonzero
  obtain ⟨d, e, notFiner, found, searched⟩ := exists_searchGrids (show 17 < 20 by decide) isNeighbour
  rw [shortest, if_neg nonzero, searched]
  exact ⟨notFiner, found⟩

/-- A neighbour on a grid is one of the two steps around the number. -/
theorem neighbour?_le {tie : DecimalTie} {d : Nat} (found : neighbour? tie x e = some d) :
    d ≤ (gridRatio x.units e).1 / (gridRatio x.units e).2 + 1 := by
  unfold neighbour? at found
  dsimp only at found
  cases tie <;> grind

/-- **Seventeen digits suffice.**  The shortest digits of a double fit a machine word. -/
theorem shortest_digits_le (tie : DecimalTie) (x : Binary64) : (shortest tie x).digits ≤ 10 ^ 17 + 1 := by
  by_cases zero : x.units = 0
  · rw [shortest_of_units_eq_zero zero]
    exact Nat.zero_le _
  · obtain ⟨notFiner, found⟩ := exists_neighbour_shortest tie zero
    have atMost := neighbour?_le found
    rw [units_abs] at atMost
    have steps := gridRatio_le zero notFiner
    rw [Nat.mul_comm] at steps
    have few := Nat.div_le_of_le_mul steps
    omega

end PartCatalog.Binary64
