/-
# Laws of rounding -- what the double nearest to a ratio is

A rounded number has the sign that was asked for, and its magnitude does not depend on
the sign (`exists_pack_of_roundUnits`).  A magnitude that leaves nothing over at its scale
is its own rounding (`roundUnits_of_dvd`), and rounding does not take a magnitude below a
power of two that it has reached (`pow_le_units_roundUnits`).  So every integer below
`2 ^ 53` is a double (`units_ofInt`), and no other natural number is rounded to one of
them (`eq_of_round_eq_ofInt`).  The rounding of a ratio does not depend on the terms it is given in
(`round_mul_right`); beyond all doubles it is the infinity of its sign (`round_of_large`), and
below half a unit zero (`roundUnits_of_small`).  A decimal is rounded as the ratio it stands for,
whatever is cut short on the way for the sake of speed (`ofDecimal_eq_round`).
-/
import Mathlib.Algebra.Ring.Nat
import PartCatalog.Binary64.Shortest

set_option autoImplicit false

namespace PartCatalog.Binary64

/-! ## Finite numbers -/

theorem exists_eq_finite {x : Binary64} (finite : x.isFinite = true) :
    ∃ negative significand scale canonical, x = .finite negative significand scale canonical := by
  cases x with
  | nan => cases finite
  | infinite negative => cases finite
  | finite negative significand scale canonical => exact ⟨negative, significand, scale, canonical, rfl⟩

theorem isFinite_of_units {x : Binary64} (nonzero : x.units ≠ 0) : x.isFinite = true := by
  cases x with
  | nan => exact absurd rfl nonzero
  | infinite negative => exact absurd rfl nonzero
  | finite negative significand scale canonical => rfl

/-! ## Packing -/

theorem isNaN_pack (negative : Bool) (significand scale : Nat) :
    (pack negative significand scale).isNaN = false := by
  unfold pack
  split <;> rfl

theorem isNegative_pack (negative : Bool) (significand scale : Nat) :
    (pack negative significand scale).isNegative = negative := by
  unfold pack
  split <;> rfl

theorem abs_pack (negative : Bool) (significand scale : Nat) :
    (pack negative significand scale).abs = pack false significand scale := by
  unfold pack
  split <;> rfl

theorem rank_pack_nonneg (significand scale : Nat) : 0 ≤ (pack false significand scale).rank := by
  unfold pack
  split
  · exact Int.natCast_nonneg _
  · exact Int.natCast_nonneg _

theorem units_pack {negative : Bool} {significand scale : Nat} (canonical : Canonical significand scale) :
    (pack negative significand scale).units = significand * 2 ^ scale := by
  rw [pack, dif_pos canonical]
  rfl

theorem isFinite_pack_iff {negative : Bool} {significand scale : Nat} :
    (pack negative significand scale).isFinite = true ↔ Canonical significand scale := by
  unfold pack
  split
  · next canonical => exact iff_of_true rfl canonical
  · next notCanonical => exact iff_of_false Bool.false_ne_true notCanonical

/-- What is rounded is packed, and the sign has no part in the choice of the magnitude. -/
theorem exists_pack_of_roundUnits (a d : Nat) :
    ∃ significand scale, ∀ negative, roundUnits negative a d = pack negative significand scale := by
  unfold roundUnits
  dsimp only
  split <;> exact ⟨_, _, fun _ => rfl⟩

/-! ## Exact rounding -/

theorem nearestEven_mul (q : Nat) {d : Nat} (positive : 0 < d) : nearestEven (q * d) d = q := by
  simp [nearestEven, Nat.mul_div_cancel q positive, positive]

theorem div_le_nearestEven (a d : Nat) : a / d ≤ nearestEven a d := by
  unfold nearestEven
  dsimp only
  split_ifs <;> omega

/-- A multiple of the step between the doubles around it is one of them. -/
theorem roundUnits_of_dvd {negative : Bool} {a : Nat} (exact : 2 ^ (Nat.log2 a - 52) ∣ a)
    (fits : Nat.log2 a ≤ 2097) :
    (roundUnits negative a 1).isFinite = true ∧ (roundUnits negative a 1).units = a := by
  obtain ⟨q, quotient⟩ := exact
  generalize isScale : Nat.log2 a - 52 = scale at quotient
  have step : 0 < 2 ^ scale := Nat.two_pow_pos scale
  have multiple : a = q * 2 ^ scale := by rw [quotient, Nat.mul_comm]
  have below : q < 2 ^ 53 := by
    have digits : a < 2 ^ (scale + 53) :=
      Nat.lt_of_lt_of_le Nat.lt_log2_self (Nat.pow_le_pow_right (by decide) (by omega))
    rw [multiple, Nat.pow_add, Nat.mul_comm (2 ^ scale)] at digits
    exact Nat.lt_of_mul_lt_mul_right digits
  have normal : 2 ^ 52 ≤ q ∨ scale = 0 := by
    rcases Nat.lt_or_ge (Nat.log2 a) 52 with small | large
    · exact .inr (by omega)
    · have nonzero : a ≠ 0 := by
        rintro rfl
        simp at large
      have leading : 2 ^ (52 + scale) ≤ a := (Nat.le_log2 nonzero).1 (by omega)
      rw [multiple, Nat.pow_add] at leading
      exact .inl (Nat.le_of_mul_le_mul_right leading step)
  have canonical : Canonical q scale := ⟨below, normal, by omega⟩
  have rounded : roundUnits negative a 1 = pack negative q scale := by
    have nearest : nearestEven a (1 * Nat.pow 2 scale) = q := by
      rw [Nat.one_mul, Nat.pow_eq, multiple, nearestEven_mul q step]
    simp only [roundUnits, Nat.div_one, isScale, nearest]
    exact if_neg (Nat.ne_of_lt below)
  rw [rounded, units_pack canonical, pack, dif_pos canonical]
  exact ⟨rfl, multiple.symm⟩

/-- Rounding does not fall below a power of two, if it stays finite. -/
theorem pow_le_units_roundUnits {negative : Bool} {a t : Nat} (normal : 52 ≤ t) (reached : 2 ^ t ≤ a)
    (finite : (roundUnits negative a 1).isFinite = true) : 2 ^ t ≤ (roundUnits negative a 1).units := by
  have nonzero : a ≠ 0 := Nat.ne_of_gt (Nat.lt_of_lt_of_le (Nat.two_pow_pos t) reached)
  have above : t ≤ Nat.log2 a := (Nat.le_log2 nonzero).2 reached
  obtain ⟨scale, isLog⟩ := Nat.exists_eq_add_of_le (Nat.le_trans normal above)
  have isScale : Nat.log2 a - 52 = scale := by omega
  have leading : 2 ^ 52 ≤ nearestEven a (1 * Nat.pow 2 scale) := by
    refine Nat.le_trans ?_ (div_le_nearestEven _ _)
    rw [Nat.one_mul, Nat.pow_eq, Nat.le_div_iff_mul_le (Nat.two_pow_pos scale), ← Nat.pow_add, ← isLog]
    exact Nat.log2_self_le nonzero
  have least : 2 ^ t ≤ 2 ^ 52 * 2 ^ scale := by
    rw [← Nat.pow_add, ← isLog]
    exact Nat.pow_le_pow_right (by decide) above
  simp only [roundUnits, Nat.div_one, isScale] at finite ⊢
  split at finite
  · next carried =>
    rw [if_pos carried, units_pack (isFinite_pack_iff.1 finite)]
    calc 2 ^ t ≤ 2 ^ 52 * 2 ^ scale := least
      _ ≤ Nat.pow 2 52 * 2 ^ (scale + 1) :=
        Nat.mul_le_mul_left _ (Nat.pow_le_pow_right (by decide) (Nat.le_succ scale))
  · next notCarried =>
    rw [if_neg notCarried, units_pack (isFinite_pack_iff.1 finite)]
    exact Nat.le_trans least (Nat.mul_le_mul_right _ leading)

/-! ## Ratios -/

/-- Rounding a ratio is no matter of the terms it is written in. -/
theorem nearestEven_mul_right (a d : Nat) {c : Nat} (positive : 0 < c) :
    nearestEven (a * c) (d * c) = nearestEven a d := by
  have below : ∀ x y : Nat, 2 * (x * c) < y * c ↔ 2 * x < y := fun x y => by
    rw [← Nat.mul_assoc]
    exact Nat.mul_lt_mul_right positive
  have above : ∀ x y : Nat, y * c < 2 * (x * c) ↔ y < 2 * x := fun x y => by
    rw [← Nat.mul_assoc]
    exact Nat.mul_lt_mul_right positive
  simp only [nearestEven, Nat.mul_div_mul_right a d positive, Nat.mul_mod_mul_right, below, above]

theorem round_mul_right (negative : Bool) (num den : Nat) {c : Nat} (positive : 0 < c) :
    round negative (num * c) (den * c) = round negative num den := by
  have scaled : num * c * Nat.pow 2 1074 = num * Nat.pow 2 1074 * c := Nat.mul_right_comm ..
  have step : ∀ scale, den * c * Nat.pow 2 scale = den * Nat.pow 2 scale * c := fun scale =>
    Nat.mul_right_comm ..
  simp only [round, roundUnits, scaled, step, Nat.mul_div_mul_right _ _ positive,
    nearestEven_mul_right _ _ positive]

/-- What is too large for the scales is rounded to an infinity. -/
theorem round_of_large (negative : Bool) {num den t : Nat} (positive : 0 < den) (large : 2 ^ t * den ≤ num)
    (beyond : 1024 ≤ t) : round negative num den = .infinite negative := by
  unfold round
  generalize unit : 1074 = k
  have leading : 2 ^ (t + k) ≤ num * Nat.pow 2 k / den := by
    rw [Nat.le_div_iff_mul_le positive, Nat.pow_add, Nat.mul_right_comm]
    exact Nat.mul_le_mul_right _ large
  have nonzero : num * Nat.pow 2 k / den ≠ 0 := Nat.ne_of_gt (Nat.lt_of_lt_of_le (Nat.two_pow_pos _) leading)
  have log : t + k ≤ Nat.log2 (num * Nat.pow 2 k / den) := (Nat.le_log2 nonzero).2 leading
  have notCanonical : ∀ significand scale, 2045 < scale → pack negative significand scale = .infinite negative :=
    fun significand scale outside => dif_neg fun canonical => Nat.not_le.2 outside canonical.2.2
  unfold roundUnits
  dsimp only
  split
  · exact notCanonical _ _ (by omega)
  · exact notCanonical _ _ (by omega)

/-- What is less than half a unit is rounded to zero. -/
theorem roundUnits_of_small (negative : Bool) {a d : Nat} (small : 2 * a < d) :
    roundUnits negative a d = zero negative := by
  have noUnits : a / d = 0 := Nat.div_eq_of_lt (by omega)
  have rest : a % d = a := Nat.mod_eq_of_lt (by omega)
  have nearest : nearestEven a d = 0 := by simp [nearestEven, noUnits, rest, small]
  have finest : d * Nat.pow 2 0 = d := Nat.mul_one d
  simp only [roundUnits, noUnits, Nat.log2_zero, Nat.zero_sub, finest, nearest]
  rfl

/-! ## Integers -/

/-- A magnitude of no more than 53 binary digits is its own rounding. -/
theorem units_roundUnits_mul_pow (negative : Bool) {n k : Nat} (small : n < 2 ^ 53) (fits : k ≤ 2045) :
    (roundUnits negative (n * Nat.pow 2 k) 1).isFinite = true ∧
      (roundUnits negative (n * Nat.pow 2 k) 1).units = n * Nat.pow 2 k := by
  simp only [Nat.pow_eq]
  have digits : n * 2 ^ k < 2 ^ (53 + k) := by
    rw [Nat.pow_add]
    exact Nat.mul_lt_mul_of_pos_right small (Nat.two_pow_pos k)
  have log : Nat.log2 (n * 2 ^ k) < 53 + k := by
    by_cases zero : n * 2 ^ k = 0
    · rw [zero, Nat.log2_zero]
      omega
    · exact (Nat.log2_lt zero).2 digits
  have scale : Nat.log2 (n * 2 ^ k) - 52 ≤ k := by omega
  exact roundUnits_of_dvd (Nat.dvd_trans (Nat.pow_dvd_pow 2 scale) (Nat.dvd_mul_left _ _)) (by omega)

/-- No larger multiple of the unit is rounded to such a magnitude. -/
theorem eq_of_roundUnits_mul_pow {m n k : Nat} (small : n < 2 ^ 53) (fits : k ≤ 2045)
    (same : roundUnits false (m * Nat.pow 2 k) 1 = roundUnits false (n * Nat.pow 2 k) 1) : m = n := by
  obtain ⟨finite, exact⟩ := units_roundUnits_mul_pow false small fits
  rcases Nat.lt_or_ge m (2 ^ 53) with less | large
  · have exact' := (units_roundUnits_mul_pow false less fits).2
    rw [same, exact] at exact'
    exact (Nat.mul_right_cancel (Nat.two_pow_pos k) exact').symm
  · have reached : 2 ^ (53 + k) ≤ m * Nat.pow 2 k := by
      rw [Nat.pow_add]
      exact Nat.mul_le_mul_right _ large
    rw [← same] at finite
    have bound := pow_le_units_roundUnits (by omega) reached finite
    rw [same, exact, Nat.pow_add] at bound
    exact absurd (Nat.le_of_mul_le_mul_right bound (Nat.two_pow_pos k)) (Nat.not_le.2 small)

theorem ofInt_natCast (n : Nat) : ofInt n = round false n 1 := by
  have sign : decide ((n : Int) < 0) = false := by simp
  rw [ofInt, sign, Int.natAbs_natCast]

theorem isNaN_ofInt (n : Int) : (ofInt n).isNaN = false := by
  obtain ⟨significand, scale, packed⟩ := exists_pack_of_roundUnits (n.natAbs * Nat.pow 2 1074) 1
  rw [ofInt, round, packed, isNaN_pack]

theorem isNegative_ofInt (n : Int) : (ofInt n).isNegative = decide (n < 0) := by
  obtain ⟨significand, scale, packed⟩ := exists_pack_of_roundUnits (n.natAbs * Nat.pow 2 1074) 1
  rw [ofInt, round, packed, isNegative_pack]

theorem abs_ofInt (n : Int) : (ofInt n).abs = ofInt n.natAbs := by
  obtain ⟨significand, scale, packed⟩ := exists_pack_of_roundUnits (n.natAbs * Nat.pow 2 1074) 1
  rw [ofInt_natCast, ofInt, round, round, packed, packed, abs_pack]

/-- An integer of no more than 53 binary digits is a double. -/
theorem units_ofInt {n : Int} (small : n.natAbs < 2 ^ 53) :
    (ofInt n).isFinite = true ∧ (ofInt n).units = n.natAbs * Nat.pow 2 1074 := by
  rw [ofInt, round]
  generalize unit : 1074 = k
  exact units_roundUnits_mul_pow _ small (by omega)

theorem units_ofInt_eq_zero_iff {n : Int} (small : n.natAbs < 2 ^ 53) : (ofInt n).units = 0 ↔ n = 0 := by
  rw [(units_ofInt small).2]
  generalize unit : 1074 = k
  have positive : Nat.pow 2 k ≠ 0 := Nat.ne_of_gt (Nat.two_pow_pos k)
  rw [Nat.mul_eq_zero, or_iff_left positive, Int.natAbs_eq_zero]

theorem wholePart_ofInt {n : Int} (small : n.natAbs < 2 ^ 53) : (ofInt n).wholePart = n.natAbs := by
  rw [wholePart, (units_ofInt small).2]
  generalize unit : 1074 = k
  exact Nat.mul_div_cancel _ (Nat.two_pow_pos k)

/-- No other natural number is rounded to an integer with so few digits. -/
theorem eq_of_round_eq_ofInt {m n : Nat} (small : n < 2 ^ 53) (same : round false m 1 = ofInt n) :
    m = n := by
  rw [ofInt_natCast] at same
  exact eq_of_roundUnits_mul_pow small (by decide) same

/-! ## Decimals -/

theorem decimalLength_le_iff {n k : Nat} (someDigits : 0 < k) : decimalLength n ≤ k ↔ n < 10 ^ k :=
  Nat.length_toDigits_le_iff (by decide) someDigits

theorem decimalLength_bounds {n : Nat} (positive : 0 < n) :
    0 < decimalLength n ∧ 10 ^ (decimalLength n - 1) ≤ n ∧ n < 10 ^ decimalLength n := by
  have some_ : 0 < decimalLength n := List.length_pos_iff.2 Nat.toDigits_ne_nil
  refine ⟨some_, ?_, (decimalLength_le_iff some_).1 (Nat.le_refl _)⟩
  rcases Nat.eq_zero_or_pos (decimalLength n - 1) with one | more
  · rw [one]
    exact positive
  · refine Nat.le_of_not_lt fun less => ?_
    have shorter : decimalLength n ≤ decimalLength n - 1 := (decimalLength_le_iff more).2 less
    omega

section Bounds

variable (negative : Bool) {digits : Nat} {e : Int}

-- The bounds from which no power is computed are beyond all doubles.  Below they are written with
-- variables for the exponents, so that nothing computes their powers either.

theorem round_of_tiny (tiny : digits = 0 ∨ e + decimalLength digits < -330) :
    round negative (digits * 10 ^ e.toNat) (10 ^ (-e).toNat) = zero negative := by
  unfold round
  generalize isUnit : 1074 = k
  rw [Nat.pow_eq]
  apply roundUnits_of_small
  rcases Nat.eq_zero_or_pos digits with rfl | positive
  · rw [Nat.zero_mul, Nat.zero_mul, Nat.mul_zero]
    exact Nat.pow_pos (by decide)
  · have below := (decimalLength_bounds positive).2.2
    have noPower : e.toNat = 0 := by omega
    have bound : 2 * 2 ^ k ≤ 10 ^ (k - 744) := by
      rw [← isUnit]
      decide +kernel
    have places : decimalLength digits + (k - 744) ≤ (-e).toNat := by omega
    rw [noPower, Nat.pow_zero, Nat.mul_one]
    calc 2 * (digits * 2 ^ k) = digits * (2 * 2 ^ k) := Nat.mul_left_comm ..
      _ ≤ digits * 10 ^ (k - 744) := Nat.mul_le_mul_left _ bound
      _ < 10 ^ decimalLength digits * 10 ^ (k - 744) := Nat.mul_lt_mul_of_pos_right below (Nat.pow_pos (by decide))
      _ = 10 ^ (decimalLength digits + (k - 744)) := (Nat.pow_add ..).symm
      _ ≤ 10 ^ (-e).toNat := Nat.pow_le_pow_right (by decide) places

theorem round_of_huge (positive : 0 < digits) (huge : 311 < e + decimalLength digits) :
    round negative (digits * 10 ^ e.toNat) (10 ^ (-e).toNat) = .infinite negative := by
  obtain ⟨someDigits, least, -⟩ := decimalLength_bounds positive
  obtain ⟨t, isPower⟩ : ∃ t, t = 1024 := ⟨_, rfl⟩
  have bound : 2 ^ t ≤ 10 ^ (t - 713) := by
    rw [isPower]
    decide +kernel
  have places : t - 713 + (-e).toNat ≤ decimalLength digits - 1 + e.toNat := by omega
  refine round_of_large negative (Nat.pow_pos (by decide)) ?_ (Nat.le_of_eq isPower.symm)
  calc 2 ^ t * 10 ^ (-e).toNat ≤ 10 ^ (t - 713) * 10 ^ (-e).toNat := Nat.mul_le_mul_right _ bound
    _ = 10 ^ (t - 713 + (-e).toNat) := (Nat.pow_add ..).symm
    _ ≤ 10 ^ (decimalLength digits - 1 + e.toNat) := Nat.pow_le_pow_right (by decide) places
    _ = 10 ^ (decimalLength digits - 1) * 10 ^ e.toNat := Nat.pow_add ..
    _ ≤ digits * 10 ^ e.toNat := Nat.mul_le_mul_right _ least

end Bounds

/-- **A decimal is rounded as the ratio it is**, whether or not its power is computed. -/
theorem ofDecimal_eq_round (negative : Bool) (digits : Nat) (e : Int) :
    ofDecimal negative digits e = round negative (digits * 10 ^ e.toNat) (10 ^ (-e).toNat) := by
  unfold ofDecimal
  dsimp only
  split
  · next tiny => exact (round_of_tiny negative tiny).symm
  · next notTiny =>
    split
    · next huge => exact (round_of_huge negative (by omega) huge).symm
    · split
      · next whole =>
        have noPlaces : (-e).toNat = 0 := by omega
        rw [noPlaces, Nat.pow_zero, Nat.pow_eq]
      · next fraction =>
        have noPower : e.toNat = 0 := by omega
        rw [noPower, Nat.pow_zero, Nat.mul_one, Nat.pow_eq]

/-- A natural number, as a decimal without exponent, is read as the double nearest to it. -/
theorem ofDecimal_whole (negative : Bool) (n : Nat) : ofDecimal negative n 0 = round negative n 1 := by
  rw [ofDecimal_eq_round]
  exact congrArg (round negative · 1) (Nat.mul_one n)

theorem ofDecimal_fraction (negative : Bool) (digits places : Nat) :
    ofDecimal negative digits (-places) = round negative digits (10 ^ places) := by
  have noPower : (-(places : Int)).toNat = 0 := by omega
  have isPlaces : (-(-(places : Int))).toNat = places := by omega
  rw [ofDecimal_eq_round, noPower, isPlaces, Nat.pow_zero, Nat.mul_one]

end PartCatalog.Binary64
