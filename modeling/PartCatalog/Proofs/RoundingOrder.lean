/-
# The order of rounding -- a larger ratio is rounded to no smaller double

Rounding to the nearest natural number keeps the order of ratios (`nearestEven_mono`), and at the
scale chosen for it a ratio is rounded to 53 binary digits, so what is rounded at a finer scale
does not pass what is rounded at a coarser one (`roundedUnits_mono`).

A double other than zero is what its magnitude and its shortest decimal are rounded to
(`rounds_magnitude`, `rounds_shortest`).  So both are on the same side of a power of ten, if the
power is the shortest decimal of a double itself (`NearPower.scientificExponent_lt_iff`): the
exponent by which a layout chooses its notation is that of rounded digits, and still tells the
order of the number that is written.
-/
import Mathlib.Algebra.Order.Field.Power
import Mathlib.Algebra.Order.Field.Rat
import Mathlib.Data.Nat.Cast.Order.Field
import Mathlib.Tactic.FieldSimp
import Mathlib.Tactic.LinearCombination
import Mathlib.Tactic.Positivity
import PartCatalog.Proofs.ShortestDigits

set_option autoImplicit false

namespace PartCatalog

namespace Binary64

/-! ## Ratios -/

/-- What is rounded to a natural number is no more than half a step away from it. -/
theorem nearestEven_bounds (a : Nat) {d : Nat} (positive : 0 < d) :
    2 * (nearestEven a d * d) ≤ 2 * a + d ∧ 2 * a ≤ 2 * (nearestEven a d * d) + d := by
  have rest : a % d < d := Nat.mod_lt a positive
  have parts : a / d * d + a % d = a := Nat.div_add_mod' a d
  have next : (a / d + 1) * d = a / d * d + d := Nat.succ_mul ..
  unfold nearestEven
  dsimp only
  split_ifs <;> omega

/-- A larger ratio has no smaller natural number nearest to it. -/
theorem nearestEven_mono {a d a' d' : Nat} (positive : 0 < d) (positive' : 0 < d') (le : a * d' ≤ a' * d) :
    nearestEven a d ≤ nearestEven a' d' := by
  rcases Nat.eq_or_lt_of_le le with same | less
  · have scaled := nearestEven_mul_right a d positive'
    rw [same, Nat.mul_comm d, nearestEven_mul_right a' d' positive] at scaled
    exact Nat.le_of_eq scaled.symm
  · by_contra above
    have low := Nat.mul_le_mul_right d' (nearestEven_bounds a positive).1
    have high := Nat.mul_le_mul_right d (nearestEven_bounds a' positive').2
    have step := Nat.mul_le_mul_right (d * d') (Nat.lt_of_not_le above)
    generalize nearestEven a d = n at low step
    generalize nearestEven a' d' = n' at high step
    -- All products are over the common denominator.
    have low' : 2 * (n * (d * d')) ≤ 2 * (a * d') + d * d' := by
      calc 2 * (n * (d * d')) = 2 * (n * d) * d' := by ac_rfl
        _ ≤ (2 * a + d) * d' := low
        _ = 2 * (a * d') + d * d' := by rw [Nat.add_mul, Nat.mul_assoc]
    have high' : 2 * (a' * d) ≤ 2 * (n' * (d * d')) + d * d' := by
      calc 2 * (a' * d) = 2 * a' * d := (Nat.mul_assoc ..).symm
        _ ≤ (2 * (n' * d') + d') * d := high
        _ = 2 * (n' * (d * d')) + d * d' := by rw [Nat.add_mul]; ac_rfl
    rw [Nat.succ_mul] at step
    omega

/-- The magnitude that a ratio of units is rounded to, however large. -/
def roundedUnits (a d : Nat) : Nat :=
  let scale := Nat.log2 (a / d) - 52
  nearestEven a (d * 2 ^ scale) * 2 ^ scale

theorem units_roundUnits {negative : Bool} {a d : Nat} (finite : (roundUnits negative a d).isFinite = true) :
    (roundUnits negative a d).units = roundedUnits a d := by
  unfold roundUnits roundedUnits at *
  simp only [Nat.pow_eq] at finite ⊢
  generalize Nat.log2 (a / d) - 52 = scale at finite ⊢
  split at finite
  · next carried =>
    rw [if_pos carried, units_pack (isFinite_pack_iff.1 finite), carried, Nat.pow_succ 2 scale,
      Nat.mul_comm (2 ^ scale), ← Nat.mul_assoc]
  · next notCarried =>
    rw [if_neg notCarried, units_pack (isFinite_pack_iff.1 finite)]

theorem nearestEven_le_of_le {a d n : Nat} (positive : 0 < d) (le : a ≤ n * d) : nearestEven a d ≤ n := by
  have mono := nearestEven_mono positive positive (Nat.mul_le_mul_right d le)
  rwa [nearestEven_mul n positive] at mono

theorem le_nearestEven_of_le {a d n : Nat} (positive : 0 < d) (le : n * d ≤ a) : n ≤ nearestEven a d := by
  have mono := nearestEven_mono positive positive (Nat.mul_le_mul_right d le)
  rwa [nearestEven_mul n positive] at mono

/-- Rounding at the scale of a ratio gives no more than 53 binary digits. -/
theorem nearestEven_le_pow (a : Nat) {d : Nat} (positive : 0 < d) :
    nearestEven a (d * 2 ^ (Nat.log2 (a / d) - 52)) ≤ 2 ^ 53 := by
  refine nearestEven_le_of_le (Nat.mul_pos positive (Nat.two_pow_pos _)) (Nat.le_of_lt ?_)
  have below : a / d < 2 ^ (53 + (Nat.log2 (a / d) - 52)) :=
    Nat.lt_of_lt_of_le Nat.lt_log2_self (Nat.pow_le_pow_right (by decide) (by omega))
  rwa [Nat.div_lt_iff_lt_mul positive, Nat.pow_add, Nat.mul_assoc, Nat.mul_comm (2 ^ _) d] at below

/-- Above the finest scale a ratio has 53 binary digits. -/
theorem pow_mul_le_of_scaled (a : Nat) {d : Nat} (positive : 0 < d) (scaled : 0 < Nat.log2 (a / d) - 52) :
    2 ^ 52 * (d * 2 ^ (Nat.log2 (a / d) - 52)) ≤ a := by
  have nonzero : a / d ≠ 0 := by
    intro zero
    rw [zero, Nat.log2_zero] at scaled
    omega
  have above := Nat.log2_self_le nonzero
  have split : Nat.log2 (a / d) = 52 + (Nat.log2 (a / d) - 52) := by omega
  rw [Nat.le_div_iff_mul_le positive, split, Nat.pow_add, Nat.mul_assoc, Nat.mul_comm (2 ^ _) d] at above
  exact above

/-- Above the finest scale it gives no fewer. -/
theorem pow_le_nearestEven {a d : Nat} (positive : 0 < d) (scaled : 52 < Nat.log2 (a / d)) :
    2 ^ 52 ≤ nearestEven a (d * 2 ^ (Nat.log2 (a / d) - 52)) :=
  le_nearestEven_of_le (Nat.mul_pos positive (Nat.two_pow_pos _)) (pow_mul_le_of_scaled a positive (by omega))

/-- **A larger ratio is rounded to no smaller magnitude**, also across scales. -/
theorem roundedUnits_mono {a d a' d' : Nat} (positive : 0 < d) (positive' : 0 < d') (le : a * d' ≤ a' * d) :
    roundedUnits a d ≤ roundedUnits a' d' := by
  have quotients : a / d ≤ a' / d' := by
    rw [Nat.le_div_iff_mul_le positive']
    refine Nat.le_of_mul_le_mul_right ?_ positive
    calc a / d * d' * d = a / d * d * d' := Nat.mul_right_comm ..
      _ ≤ a * d' := Nat.mul_le_mul_right d' (Nat.div_mul_le_self a d)
      _ ≤ a' * d := le
  have logs : Nat.log2 (a / d) ≤ Nat.log2 (a' / d') := by
    by_cases zero : a / d = 0
    · rw [zero, Nat.log2_zero]
      exact Nat.zero_le _
    · have nonzero : a' / d' ≠ 0 := Nat.ne_of_gt (Nat.lt_of_lt_of_le (Nat.pos_of_ne_zero zero) quotients)
      exact (Nat.le_log2 nonzero).2 (Nat.le_trans (Nat.log2_self_le zero) quotients)
  have most := nearestEven_le_pow a positive
  have least := @pow_le_nearestEven a' d' positive'
  unfold roundedUnits
  dsimp only
  rcases Nat.eq_or_lt_of_le (Nat.sub_le_sub_right logs 52) with same | coarser
  · rw [same]
    generalize Nat.log2 (a' / d') - 52 = scale
    refine Nat.mul_le_mul_right _ (nearestEven_mono ?_ ?_ ?_)
    · exact Nat.mul_pos positive (Nat.two_pow_pos scale)
    · exact Nat.mul_pos positive' (Nat.two_pow_pos scale)
    · rw [← Nat.mul_assoc, ← Nat.mul_assoc]
      exact Nat.mul_le_mul_right _ le
  · have least := least (by omega)
    generalize Nat.log2 (a / d) - 52 = scale at most coarser ⊢
    generalize Nat.log2 (a' / d') - 52 = scale' at least coarser ⊢
    calc nearestEven a (d * 2 ^ scale) * 2 ^ scale ≤ 2 ^ 53 * 2 ^ scale := Nat.mul_le_mul_right _ most
      _ = 2 ^ (53 + scale) := (Nat.pow_add ..).symm
      _ ≤ 2 ^ (52 + scale') := Nat.pow_le_pow_right (by decide) (by omega)
      _ = 2 ^ 52 * 2 ^ scale' := Nat.pow_add ..
      _ ≤ nearestEven a' (d' * 2 ^ scale') * 2 ^ scale' := Nat.mul_le_mul_right _ least

end Binary64

/-! ## Exact values -/

/-- The number that a decimal denotes. -/
def Decimal.value (d : Decimal) : ℚ := d.digits * 10 ^ d.exponent

/-- A decimal lies between the power of ten of its exponent in scientific notation and the next. -/
theorem Decimal.value_bounds {d : Decimal} (nonzero : d.digits ≠ 0) :
    10 ^ Layout.scientificExponent d ≤ d.value ∧ d.value < 10 ^ (Layout.scientificExponent d + 1) := by
  obtain ⟨someDigits, least, most⟩ := Binary64.decimalLength_bounds (Nat.pos_of_ne_zero nonzero)
  have isLength : (natChars d.digits).length = Binary64.decimalLength d.digits := rfl
  have positive : (0 : ℚ) < 10 ^ d.exponent := by positivity
  have low : ((10 ^ (Binary64.decimalLength d.digits - 1) : Nat) : ℚ) ≤ d.digits := Nat.cast_le.2 least
  have high : (d.digits : ℚ) < (10 ^ Binary64.decimalLength d.digits : Nat) := Nat.cast_lt.2 most
  rw [Nat.cast_pow, Nat.cast_ofNat, ← zpow_natCast] at low high
  rw [Layout.scientificExponent, isLength, Decimal.value]
  generalize Binary64.decimalLength d.digits = places at someDigits low high ⊢
  have first : d.exponent + places - 1 = ((places - 1 : Nat) : ℤ) + d.exponent := by omega
  have next : ((places - 1 : Nat) : ℤ) + d.exponent + 1 = places + d.exponent := by omega
  rw [first, next, zpow_add₀ (by norm_num), zpow_add₀ (by norm_num)]
  exact ⟨mul_le_mul_of_nonneg_right low positive.le, mul_lt_mul_of_pos_right high positive⟩

namespace Binary64

/-- The units of the number one. -/
def one : Nat := Nat.pow 2 1074

/-- The magnitude of a finite number. -/
def magnitude (x : Binary64) : ℚ := x.units / one

theorem round_eq_roundUnits (negative : Bool) (num den : Nat) :
    round negative num den = roundUnits negative (num * one) den := by
  unfold round one
  rfl

theorem one_pos : 0 < one := by
  unfold one
  exact units_of_one_pos

theorem one_pos_rat : (0 : ℚ) < one := Nat.cast_pos.2 one_pos

theorem magnitude_mul_one (x : Binary64) : x.magnitude * one = x.units :=
  div_mul_cancel₀ _ one_pos_rat.ne'

variable {tie : DecimalTie} {x y : Binary64} {q q' : ℚ} {j : ℤ}

theorem isFinite_abs (x : Binary64) : x.abs.isFinite = x.isFinite := by
  cases x <;> rfl

/-- Whether the magnitude of a double is what a number, no less than zero, is rounded to. -/
def Rounds (q : ℚ) (x : Binary64) : Prop :=
  ∃ a c : Nat, 0 < c ∧ (a : ℚ) / c = q * one ∧ x.abs = roundUnits false a c

theorem units_of_abs_eq {a c : Nat} (finite : x.isFinite = true) (rounded : x.abs = roundUnits false a c) :
    x.units = roundedUnits a c := by
  rw [← isFinite_abs, rounded] at finite
  rw [← units_abs, rounded, units_roundUnits finite]

/-- Larger numbers are rounded to no smaller magnitudes. -/
theorem Rounds.units_le (rounds : Rounds q x) (rounds' : Rounds q' y) (finite : x.isFinite = true)
    (finite' : y.isFinite = true) (le : q ≤ q') : x.units ≤ y.units := by
  obtain ⟨a, c, positive, isRatio, rounded⟩ := rounds
  obtain ⟨a', c', positive', isRatio', rounded'⟩ := rounds'
  have cross : (a : ℚ) / c ≤ a' / c' := by
    rw [isRatio, isRatio']
    exact mul_le_mul_of_nonneg_right le one_pos_rat.le
  rw [div_le_div_iff₀ (Nat.cast_pos.2 positive) (Nat.cast_pos.2 positive')] at cross
  rw [units_of_abs_eq finite rounded, units_of_abs_eq finite' rounded']
  exact roundedUnits_mono positive positive' (by exact_mod_cast cross)

/-- A magnitude is its own rounding. -/
theorem roundUnits_units (finite : x.isFinite = true) : roundUnits false x.units 1 = x.abs := by
  obtain ⟨negative, m, p, canonical, rfl⟩ := exists_eq_finite finite
  have exact := roundUnits_exact false canonical Nat.one_pos
  rwa [Nat.mul_one, pack, dif_pos canonical] at exact

theorem rounds_magnitude (finite : x.isFinite = true) : Rounds x.magnitude x := by
  refine ⟨x.units, 1, Nat.one_pos, ?_, (roundUnits_units finite).symm⟩
  rw [magnitude_mul_one, Nat.cast_one, div_one]

/-- A decimal that is read as a number other than zero is neither too small nor too large. -/
theorem decimal_bounds {digits : Nat} {e : ℤ} (nonzero : (ofDecimal false digits e).units ≠ 0) :
    digits ≠ 0 ∧ -330 ≤ e + decimalLength digits ∧ e + decimalLength digits ≤ 311 := by
  unfold ofDecimal at nonzero
  dsimp only at nonzero
  split at nonzero
  · exact absurd (Nat.zero_mul _) nonzero
  · next notSmall =>
    split at nonzero
    · exact absurd rfl nonzero
    · omega

/-- A decimal is rounded as a ratio of units. -/
theorem exists_ratio (d : Decimal) :
    ∃ a c : Nat, 0 < c ∧ (a : ℚ) / c = d.value * one ∧ ofDecimal false d.digits d.exponent = roundUnits false a c := by
  refine ⟨d.digits * 10 ^ d.exponent.toNat * one, 10 ^ (-d.exponent).toNat, Nat.pow_pos (by decide), ?_,
    (ofDecimal_eq_round ..).trans (round_eq_roundUnits ..)⟩
  have isExponent : d.exponent = (d.exponent.toNat : ℤ) - (-d.exponent).toNat := by omega
  rw [Decimal.value]
  generalize d.exponent.toNat = up at isExponent ⊢
  generalize (-d.exponent).toNat = down at isExponent ⊢
  rw [isExponent, zpow_sub₀ (by norm_num), zpow_natCast, zpow_natCast]
  simp only [Nat.cast_mul, Nat.cast_pow, Nat.cast_ofNat]
  -- The unit is kept as a variable, so that nothing computes it.
  generalize (one : ℚ) = unit
  field_simp

/-- A number is the rounding of what it is read from. -/
theorem rounds_value {d : Decimal} (readsBack : ofDecimal false d.digits d.exponent = x.abs) : Rounds d.value x := by
  obtain ⟨a, c, positive, isRatio, rounded⟩ := exists_ratio d
  exact ⟨a, c, positive, isRatio, readsBack.symm.trans rounded⟩

/-- So is a number other than zero the rounding of its shortest decimal. -/
theorem rounds_shortest (tie : DecimalTie) (nonzero : x.units ≠ 0) : Rounds (shortest tie x).value x :=
  rounds_value (ofDecimal_of_neighbour? (exists_neighbour_shortest tie nonzero).2)

/-! ## Powers of ten -/

theorem magnitude_lt_magnitude_iff : x.magnitude < y.magnitude ↔ x.units < y.units := by
  rw [magnitude, magnitude, div_lt_div_iff_of_pos_right one_pos_rat, Nat.cast_lt]

/-- The shortest decimal of a magnitude is known by its units. -/
theorem shortest_eq_of_units_eq (finite : x.isFinite = true) (finite' : y.isFinite = true)
    (same : x.units = y.units) : shortest tie x = shortest tie y := by
  rw [shortest, shortest, ← roundUnits_units finite, ← roundUnits_units finite', same]

/-- Whether a power of ten is the shortest decimal of a double that is no smaller than it. -/
structure NearPower (tie : DecimalTie) (y : Binary64) (j : ℤ) : Prop where
  nonzero : y.units ≠ 0
  shown : shortest tie y = ⟨1, j⟩
  least : one * 10 ^ j.toNat ≤ y.units * 10 ^ (-j).toNat

namespace NearPower

theorem le_magnitude (power : NearPower tie y j) : 10 ^ j ≤ y.magnitude := by
  have least : (one : ℚ) * 10 ^ j.toNat ≤ y.units * 10 ^ (-j).toNat := by exact_mod_cast power.least
  have isExponent : j = (j.toNat : ℤ) - (-j).toNat := by omega
  rw [magnitude, le_div_iff₀ one_pos_rat, isExponent, zpow_sub₀ (by norm_num), zpow_natCast, zpow_natCast,
    div_mul_eq_mul_div, div_le_iff₀ (by positivity), mul_comm]
  exact least

theorem rounds (power : NearPower tie y j) : Rounds (10 ^ j) y := by
  have rounds := rounds_shortest tie power.nonzero
  rwa [power.shown, Decimal.value, Nat.cast_one, one_mul] at rounds

theorem scientificExponent_shortest (power : NearPower tie y j) :
    Layout.scientificExponent (shortest tie y) = j := by
  have one : (natChars 1).length = 1 := rfl
  rw [power.shown, Layout.scientificExponent, one]
  exact add_sub_cancel_right j 1

/-- A magnitude is below a power of ten if it is below the double nearest to it. -/
theorem magnitude_lt_iff (power : NearPower tie y j) (finite : x.isFinite = true) :
    x.magnitude < 10 ^ j ↔ x.units < y.units := by
  constructor
  · intro below
    exact magnitude_lt_magnitude_iff.1 (below.trans_le power.le_magnitude)
  · intro fewer
    by_contra reached
    have atLeast := power.rounds.units_le (rounds_magnitude finite) (isFinite_of_units power.nonzero) finite
      (not_lt.1 reached)
    exact Nat.not_lt.2 atLeast fewer

/-- **The exponent of the shortest decimal tells the order of a magnitude and a power of ten**:
digits that are rounded up do not reach a power that the number itself does not reach. -/
theorem scientificExponent_lt_iff (power : NearPower tie y j) (nonzero : x.units ≠ 0) :
    Layout.scientificExponent (shortest tie x) < j ↔ x.magnitude < 10 ^ j := by
  have finite := isFinite_of_units nonzero
  have finite' := isFinite_of_units power.nonzero
  have rounds := rounds_shortest tie nonzero
  have someDigits : (shortest tie x).digits ≠ 0 := shortest_digits_ne_zero nonzero
  obtain ⟨low, high⟩ := Decimal.value_bounds someDigits
  rw [power.magnitude_lt_iff finite]
  constructor
  · intro below
    have le := high.le.trans (zpow_le_zpow_right₀ (by norm_num) (show _ + 1 ≤ j by omega))
    refine Nat.lt_of_le_of_ne (rounds.units_le power.rounds finite finite' le) fun same => ?_
    rw [shortest_eq_of_units_eq finite finite' same, power.scientificExponent_shortest] at below
    exact lt_irrefl j below
  · intro fewer
    by_contra reached
    have le := (zpow_le_zpow_right₀ (by norm_num) (not_lt.1 reached)).trans low
    exact Nat.not_lt.2 (power.rounds.units_le rounds finite' finite le) fewer

/-- Names write numbers positionally between these two powers of ten. -/
theorem neg_four : NearPower .up (ofDecimal false 1 (-4)) (-4) :=
  ⟨by decide +kernel, by decide +kernel, by decide +kernel⟩

theorem sixteen : NearPower .up (ofDecimal false 1 16) 16 :=
  ⟨by decide +kernel, by decide +kernel, by decide +kernel⟩

end NearPower

end Binary64

end PartCatalog
