/-
# Nearest doubles -- what a number is rounded to, told without rounding

`IsNearest` says which double is the nearest to a number, ties and overflow included, and mentions
no step of the rounding.  A double is a multiple of the step at which a ratio is rounded, or it is
below all doubles that have this step (`multiple_or_below`), and then the least of those is nearer.
So it is enough that rounding finds the nearest multiple (`apart_nearestEven_le`), and that it
reaches the power of two after the largest double exactly from halfway on
(`pow_le_roundedUnits_iff`): a ratio is rounded to the nearest double (`isNearest_roundUnits`).

There is one nearest double (`IsNearest.unique`), since of two neighbours one has an odd
significand.  So `isNearest_value_iff` says all there is to say of the double that a decimal denotes.
-/
import Mathlib.Tactic.Linarith
import PartCatalog.Proofs.RoundingOrder

set_option autoImplicit false

namespace PartCatalog.Binary64

variable {a d s : Nat} {x y : Binary64} {q : ℚ}

/-! ## Steps -/

/-- How far a magnitude of `units` is from the ratio `a / d`, in parts of a unit over `d`. -/
def apart (a d units : Nat) : Nat := ((units * d : Nat) - a : Int).natAbs

/-- No natural number is nearer to a ratio than the one it is rounded to. -/
theorem apart_nearestEven_le (positive : 0 < d) (n : Nat) :
    apart a d (nearestEven a d) ≤ apart a d n := by
  obtain ⟨low, high⟩ := nearestEven_bounds a positive
  unfold apart
  rcases Nat.lt_trichotomy n (nearestEven a d) with less | rfl | more
  · have step : (n + 1) * d ≤ nearestEven a d * d := Nat.mul_le_mul_right d less
    rw [Nat.succ_mul] at step
    omega
  · exact Nat.le_refl _
  · have step : (nearestEven a d + 1) * d ≤ n * d := Nat.mul_le_mul_right d more
    rw [Nat.succ_mul] at step
    omega

/-- Where another natural number is as near, the one it is rounded to is even. -/
theorem nearestEven_even_of_tie (positive : 0 < d) {n : Nat} (other : n ≠ nearestEven a d)
    (tie : apart a d n = apart a d (nearestEven a d)) : nearestEven a d % 2 = 0 := by
  have parts : a / d * d + a % d = a := Nat.div_add_mod' a d
  have next : (a / d + 1) * d = a / d * d + d := Nat.succ_mul ..
  have rest : a % d < d := Nat.mod_lt a positive
  have halfway : 2 * (a % d) = d := by
    obtain ⟨low, high⟩ := nearestEven_bounds a positive
    have isFloor : nearestEven a d = a / d ∨ nearestEven a d = a / d + 1 := by
      unfold nearestEven
      dsimp only
      split_ifs <;> simp
    have between : 2 * a + d = 2 * (nearestEven a d * d) ∨ 2 * a = 2 * (nearestEven a d * d) + d := by
      unfold apart at tie
      rcases Nat.lt_or_gt_of_ne other with less | more
      · have step : (n + 1) * d ≤ nearestEven a d * d := Nat.mul_le_mul_right d less
        rw [Nat.succ_mul] at step
        omega
      · have step : (nearestEven a d + 1) * d ≤ n * d := Nat.mul_le_mul_right d more
        rw [Nat.succ_mul] at step
        omega
    rcases isFloor with down | up
    · rw [down] at between
      omega
    · rw [up] at between
      omega
  unfold nearestEven
  dsimp only
  rw [if_neg (by omega), if_neg (by omega)]
  split <;> omega

/-- A double is a multiple of a step, or it is below the doubles that have the step. -/
theorem multiple_or_below (finite : y.isFinite = true) (s : Nat) :
    (∃ n, y.units = n * 2 ^ s) ∨ (0 < s ∧ y.units < 2 ^ 52 * 2 ^ s) := by
  obtain ⟨negative, n, r, canonical, rfl⟩ := exists_eq_finite finite
  rcases Nat.lt_or_ge r s with finer | coarser
  · obtain ⟨k, rfl⟩ := Nat.exists_eq_add_of_lt finer
    refine .inr ⟨by omega, ?_⟩
    calc n * 2 ^ r < 2 ^ 53 * 2 ^ r := Nat.mul_lt_mul_of_pos_right canonical.1 (Nat.two_pow_pos r)
      _ = 2 ^ (53 + r) := (Nat.pow_add ..).symm
      _ ≤ 2 ^ (52 + (r + k + 1)) := Nat.pow_le_pow_right (by decide) (by omega)
      _ = 2 ^ 52 * 2 ^ (r + k + 1) := Nat.pow_add ..
  · obtain ⟨k, rfl⟩ := Nat.exists_eq_add_of_le coarser
    refine .inl ⟨n * 2 ^ k, ?_⟩
    show n * 2 ^ (s + k) = n * 2 ^ k * 2 ^ s
    rw [Nat.pow_add]
    ac_rfl

theorem apart_multiple (a d n s : Nat) : apart a d (n * 2 ^ s) = apart a (d * 2 ^ s) n := by
  rw [apart, apart, Nat.mul_assoc, Nat.mul_comm d]

/-- Below the doubles with the step of a ratio none is as near as the least of them. -/
theorem apart_lt_of_below (positive : 0 < d) (below : y.units < 2 ^ 52 * 2 ^ s)
    (reached : 2 ^ 52 * (d * 2 ^ s) ≤ a) :
    apart a d (2 ^ 52 * 2 ^ s) < apart a d y.units := by
  have less : y.units * d < 2 ^ 52 * 2 ^ s * d := Nat.mul_lt_mul_of_pos_right below positive
  have same : 2 ^ 52 * 2 ^ s * d = 2 ^ 52 * (d * 2 ^ s) := by ac_rfl
  unfold apart
  rw [same] at less ⊢
  omega

/-- **No double is nearer to a ratio than what it is rounded to.** -/
theorem apart_roundedUnits_le (positive : 0 < d) (finite : y.isFinite = true) :
    apart a d (roundedUnits a d) ≤ apart a d y.units := by
  have reached := pow_mul_le_of_scaled a positive
  unfold roundedUnits
  dsimp only
  generalize Nat.log2 (a / d) - 52 = s at reached ⊢
  have step : 0 < d * 2 ^ s := Nat.mul_pos positive (Nat.two_pow_pos s)
  rw [apart_multiple]
  rcases multiple_or_below finite s with ⟨n, isMultiple⟩ | ⟨scaled, below⟩
  · rw [isMultiple, apart_multiple]
    exact apart_nearestEven_le step n
  · refine Nat.le_trans (apart_nearestEven_le step (2 ^ 52)) (Nat.le_of_lt ?_)
    rw [← apart_multiple]
    exact apart_lt_of_below positive below (reached scaled)

/-- Where another double is as near, the significand is even. -/
theorem even_of_apart_eq (positive : 0 < d) (finite : y.isFinite = true) (other : y.units ≠ roundedUnits a d)
    (tie : apart a d y.units = apart a d (roundedUnits a d)) :
    nearestEven a (d * 2 ^ (Nat.log2 (a / d) - 52)) % 2 = 0 := by
  have reached := pow_mul_le_of_scaled a positive
  unfold roundedUnits at other tie
  dsimp only at other tie
  generalize Nat.log2 (a / d) - 52 = s at reached other tie ⊢
  have step : 0 < d * 2 ^ s := Nat.mul_pos positive (Nat.two_pow_pos s)
  rw [apart_multiple] at tie
  rcases multiple_or_below finite s with ⟨n, isMultiple⟩ | ⟨scaled, below⟩
  · rw [isMultiple, apart_multiple] at tie
    refine nearestEven_even_of_tie step (fun same => other ?_) tie
    rw [isMultiple, same]
  · have nearer := apart_lt_of_below positive below (reached scaled)
    rw [apart_multiple, tie] at nearer
    exact absurd (apart_nearestEven_le step (2 ^ 52)) (Nat.not_le.2 nearer)

/-! ## Overflow -/

/-- A ratio half a step below a power of two is rounded up to the power. -/
theorem roundedUnits_half {t : Nat} (half : a + 2 ^ t = 2 ^ 54 * 2 ^ t) : roundedUnits a 1 = 2 ^ (54 + t) := by
  have step : 1 * 2 ^ (t + 1) = 2 * 2 ^ t := by rw [Nat.one_mul, Nat.pow_succ, Nat.mul_comm]
  have positive : 0 < 2 ^ t := Nat.two_pow_pos t
  have isScale : Nat.log2 (a / 1) - 52 = t + 1 := by
    apply scale_of_bounds Nat.one_pos
    · rw [step]
      omega
    · rw [step]
      omega
  have odd : a = (2 ^ 54 - 1) * 2 ^ t := by
    rw [Nat.sub_mul, Nat.one_mul]
    omega
  have up : nearestEven (2 ^ 54 - 1) 2 = 2 ^ 53 := by decide
  unfold roundedUnits
  dsimp only
  rw [isScale, step, odd, nearestEven_mul_right _ _ positive, up, ← Nat.pow_add]
  congr 1
  omega

/-- What is rounded up to a power of two was at most half a step below it. -/
theorem half_of_pow_le_roundedUnits (positive : 0 < d) {t : Nat} (reached : 2 ^ (54 + t) ≤ roundedUnits a d) :
    2 ^ 54 * (2 ^ t * d) ≤ a + 2 ^ t * d := by
  have most := nearestEven_le_pow a positive
  have low := pow_mul_le_of_scaled a positive
  unfold roundedUnits at reached
  dsimp only at reached
  generalize Nat.log2 (a / d) - 52 = s at reached most low
  -- A finer scale does not go up to the power, and at a coarser one the ratio is beyond it.
  rcases Nat.lt_trichotomy s (t + 1) with finer | rfl | coarser
  · have small : nearestEven a (d * 2 ^ s) * 2 ^ s ≤ 2 ^ (53 + t) := by
      calc nearestEven a (d * 2 ^ s) * 2 ^ s ≤ 2 ^ 53 * 2 ^ s := Nat.mul_le_mul_right _ most
        _ ≤ 2 ^ 53 * 2 ^ t := Nat.mul_le_mul_left _ (Nat.pow_le_pow_right (by decide) (by omega))
        _ = 2 ^ (53 + t) := (Nat.pow_add ..).symm
    have less : 2 ^ (53 + t) < 2 ^ (54 + t) := Nat.pow_lt_pow_right (by decide) (by omega)
    omega
  · have bound := (nearestEven_bounds a (Nat.mul_pos positive (Nat.two_pow_pos (t + 1)))).1
    have carried : 2 ^ 53 ≤ nearestEven a (d * 2 ^ (t + 1)) := by
      refine Nat.le_of_mul_le_mul_right ?_ (Nat.two_pow_pos (t + 1))
      rwa [← Nat.pow_add, Nat.add_left_comm, Nat.add_comm]
    have step : d * 2 ^ (t + 1) = 2 * (2 ^ t * d) := by rw [Nat.pow_succ]; ac_rfl
    rw [step] at bound carried
    have carried := Nat.mul_le_mul_right (2 * (2 ^ t * d)) carried
    omega
  · have low := low (by omega)
    have steps : 2 ^ 2 * (2 ^ t * d) ≤ d * 2 ^ s := by
      calc 2 ^ 2 * (2 ^ t * d) = d * 2 ^ (t + 2) := by rw [Nat.pow_add]; ac_rfl
        _ ≤ d * 2 ^ s := Nat.mul_le_mul_left _ (Nat.pow_le_pow_right (by decide) coarser)
    omega

/-- A ratio is rounded up to a power of two from half a step below it on. -/
theorem pow_le_roundedUnits_iff (positive : 0 < d) (t : Nat) :
    2 ^ (54 + t) ≤ roundedUnits a d ↔ 2 ^ 54 * (2 ^ t * d) ≤ a + 2 ^ t * d := by
  refine ⟨half_of_pow_le_roundedUnits positive, fun large => ?_⟩
  obtain ⟨b, half⟩ : ∃ b, b + 2 ^ t = 2 ^ 54 * 2 ^ t :=
    ⟨_, Nat.sub_add_cancel (Nat.le_mul_of_pos_left _ (by decide))⟩
  rw [← roundedUnits_half half]
  apply roundedUnits_mono Nat.one_pos positive
  have scaled := congrArg (· * d) half
  simp only [Nat.add_mul, Nat.mul_assoc] at scaled
  omega

/-- A significand of its scale is in the range of doubles below the power of two after the largest. -/
theorem canonical_iff_lt {m p top : Nat} (isTop : top = 2044) (small : m < 2 ^ 53) (normal : 2 ^ 52 ≤ m ∨ p = 0) :
    Canonical m p ↔ m * 2 ^ p < 2 ^ (54 + top) := by
  constructor
  · intro canonical
    have inside := canonical.2.2
    calc m * 2 ^ p < 2 ^ 53 * 2 ^ p := Nat.mul_lt_mul_of_pos_right small (Nat.two_pow_pos p)
      _ = 2 ^ (53 + p) := (Nat.pow_add ..).symm
      _ ≤ 2 ^ (54 + top) := Nat.pow_le_pow_right (by decide) (by omega)
  · intro below
    refine ⟨small, normal, ?_⟩
    by_contra outside
    have large : 2 ^ (54 + top) ≤ m * 2 ^ p := by
      calc 2 ^ (54 + top) ≤ 2 ^ (52 + p) := Nat.pow_le_pow_right (by decide) (by omega)
        _ = 2 ^ 52 * 2 ^ p := Nat.pow_add ..
        _ ≤ m * 2 ^ p := Nat.mul_le_mul_right _ (normal.resolve_right (by omega))
    exact absurd below (Nat.not_lt.2 large)

/-- What is rounded is finite below the power of two after the largest double. -/
theorem isFinite_roundUnits_iff {negative : Bool} {top : Nat} (isTop : top = 2044) (positive : 0 < d) :
    (roundUnits negative a d).isFinite = true ↔ roundedUnits a d < 2 ^ (54 + top) := by
  have most := nearestEven_le_pow a positive
  have least := @pow_le_nearestEven a d positive
  unfold roundUnits roundedUnits
  dsimp only
  simp only [Nat.pow_eq]
  split
  · next carried =>
    have next : 2 ^ 52 * 2 ^ (Nat.log2 (a / d) - 52 + 1) = 2 ^ 53 * 2 ^ (Nat.log2 (a / d) - 52) := by
      rw [← Nat.pow_add, ← Nat.pow_add]
      congr 1
      omega
    rw [isFinite_pack_iff, canonical_iff_lt isTop (by decide) (.inl (Nat.le_refl _)), next, carried]
  · next notCarried =>
    have small := Nat.lt_of_le_of_ne most notCarried
    rw [isFinite_pack_iff, canonical_iff_lt isTop small]
    rcases Nat.eq_zero_or_pos (Nat.log2 (a / d) - 52) with finest | scaled
    · exact .inr finest
    · exact .inl (least (by omega))

/-! ## The nearest double -/

/-- Halfway from the largest double to the power of two after it. -/
def overflow : ℚ := 2 ^ 1024 - 2 ^ 970

/-- How far the magnitude of a double is from a number. -/
def distance (q : ℚ) (x : Binary64) : ℚ := |x.magnitude - q|

/-- Whether a double is the nearest to a number that is not negative: the infinity from halfway
beyond the largest double on, and below that a finite number than which none is nearer, with an
even significand where another is as near. -/
inductive IsNearest (q : ℚ) : Binary64 → Prop where
  | infinite (large : overflow ≤ q) : IsNearest q (.infinite false)
  | finite {m p : Nat} {canonical : Canonical m p} (small : q < overflow)
      (nearest : ∀ y : Binary64, y.isFinite = true → distance q (.finite false m p canonical) ≤ distance q y)
      (even : ∀ y : Binary64, y.isFinite = true → y.units ≠ (finite false m p canonical).units →
        distance q y = distance q (.finite false m p canonical) → m % 2 = 0) :
      IsNearest q (.finite false m p canonical)

/-- Distances are compared over the denominator of a ratio. -/
theorem distance_mul (positive : 0 < d) (isRatio : (a : ℚ) / d = q * one) (x : Binary64) :
    distance q x * (one * d) = apart a d x.units := by
  have some_ : (0 : ℚ) < d := Nat.cast_pos.2 positive
  have ratio : (a : ℚ) = q * one * d := (div_eq_iff some_.ne').1 isRatio
  have scaled : 0 ≤ (one : ℚ) * d := (mul_pos one_pos_rat some_).le
  rw [distance, ← abs_of_nonneg scaled, ← abs_mul, sub_mul, ← mul_assoc, magnitude_mul_one, ← mul_assoc, ← ratio,
    apart, Nat.cast_natAbs]
  push_cast
  rfl

theorem overflow_mul_one {top : Nat} (isTop : top = 2044) : overflow * one = 2 ^ 54 * 2 ^ top - 2 ^ top := by
  have unit : (one : ℚ) = 2 ^ 1074 := by
    unfold one
    generalize 1074 = k
    rw [Nat.pow_eq, Nat.cast_pow, Nat.cast_ofNat]
  have power : 1024 + 1074 = 54 + top := by omega
  have half : 970 + 1074 = top := by omega
  rw [overflow, sub_mul, unit, ← pow_add, ← pow_add, ← pow_add, power, half]

theorem overflow_le_iff {top : Nat} (isTop : top = 2044) (positive : 0 < d) (isRatio : (a : ℚ) / d = q * one) :
    overflow ≤ q ↔ 2 ^ 54 * (2 ^ top * d) ≤ a + 2 ^ top * d := by
  have some_ : (0 : ℚ) < d := Nat.cast_pos.2 positive
  rw [← mul_le_mul_iff_of_pos_right one_pos_rat, overflow_mul_one isTop, ← isRatio, le_div_iff₀ some_,
    ← Nat.cast_le (α := ℚ)]
  simp only [Nat.cast_mul, Nat.cast_add, Nat.cast_pow, Nat.cast_ofNat]
  rw [sub_mul, sub_le_iff_le_add, mul_assoc]

theorem distance_le_iff (positive : 0 < d) (isRatio : (a : ℚ) / d = q * one) :
    distance q x ≤ distance q y ↔ apart a d x.units ≤ apart a d y.units := by
  have scaled : (0 : ℚ) < one * d := mul_pos one_pos_rat (Nat.cast_pos.2 positive)
  rw [← mul_le_mul_iff_of_pos_right scaled, distance_mul positive isRatio, distance_mul positive isRatio,
    Nat.cast_le]

/-- A ratio that is rounded to an even number of steps has an even significand. -/
theorem exists_pack_even (a d : Nat) : ∃ m p, roundUnits false a d = pack false m p ∧
    (nearestEven a (d * 2 ^ (Nat.log2 (a / d) - 52)) % 2 = 0 → m % 2 = 0) := by
  unfold roundUnits
  dsimp only
  simp only [Nat.pow_eq]
  split
  · exact ⟨_, _, rfl, fun _ => rfl⟩
  · exact ⟨_, _, rfl, id⟩

/-- **A ratio is rounded to the nearest double.** -/
theorem isNearest_roundUnits (positive : 0 < d) (isRatio : (a : ℚ) / d = q * one) :
    IsNearest q (roundUnits false a d) := by
  -- The largest scale is kept as a variable, so that nothing computes its power.
  obtain ⟨top, isTop⟩ : ∃ top, top = 2044 := ⟨_, rfl⟩
  have isOverflow : overflow ≤ q ↔ ¬ (roundUnits false a d).isFinite = true := by
    rw [overflow_le_iff isTop positive isRatio, ← pow_le_roundedUnits_iff positive,
      isFinite_roundUnits_iff isTop positive, Nat.not_lt]
  have units := @units_roundUnits false a d
  obtain ⟨m, p, packed, parity⟩ := exists_pack_even a d
  rw [packed] at isOverflow units ⊢
  by_cases canonical : Canonical m p
  · have isFinite : pack false m p = .finite false m p canonical := dif_pos canonical
    rw [isFinite] at isOverflow units ⊢
    have units := units rfl
    constructor
    case small =>
      rw [← not_le, isOverflow]
      exact fun notFinite => notFinite rfl
    case nearest =>
      intro y finite
      rw [distance_le_iff positive isRatio, units]
      exact apart_roundedUnits_le positive finite
    case even =>
      intro y finite other tie
      refine parity (even_of_apart_eq positive finite (units ▸ other) ?_)
      rw [← units]
      exact Nat.le_antisymm ((distance_le_iff positive isRatio).1 tie.le)
        ((distance_le_iff positive isRatio).1 tie.ge)
  · have isInfinite : pack false m p = .infinite false := dif_neg canonical
    rw [isInfinite] at isOverflow ⊢
    exact .infinite (isOverflow.2 Bool.false_ne_true)

/-! ## One nearest double -/

/-- A magnitude has one significand and one scale. -/
theorem finite_eq_of_units_eq {m p n r : Nat} (canonical : Canonical m p) (canonical' : Canonical n r)
    (same : m * 2 ^ p = n * 2 ^ r) : finite false m p canonical = finite false n r canonical' := by
  have rounded := roundUnits_units (x := finite false m p canonical) rfl
  have rounded' := roundUnits_units (x := finite false n r canonical') rfl
  exact rounded.symm.trans ((congrArg (roundUnits false · 1) same).trans rounded')

/-- Between a double and the next significand of its scale there is none. -/
theorem succ_le_units {m p : Nat} (canonical : Canonical m p) (finite : y.isFinite = true)
    (less : m * 2 ^ p < y.units) : (m + 1) * 2 ^ p ≤ y.units := by
  rcases multiple_or_below finite p with ⟨n, isMultiple⟩ | ⟨scaled, below⟩
  · rw [isMultiple] at less ⊢
    exact Nat.mul_le_mul_right _ (Nat.lt_of_mul_lt_mul_right less)
  · have leading : 2 ^ 52 ≤ m := canonical.2.1.resolve_right (Nat.ne_of_gt scaled)
    have least : 2 ^ 52 * 2 ^ p ≤ m * 2 ^ p := Nat.mul_le_mul_right _ leading
    omega

theorem distance_lt_of_between {z : Binary64} (tie : distance q x = distance q y) (above : x.units < z.units)
    (below : z.units < y.units) : distance q z < distance q x := by
  have above := magnitude_lt_magnitude_iff.2 above
  have below := magnitude_lt_magnitude_iff.2 below
  unfold distance at tie ⊢
  rcases abs_eq_abs.1 tie with same | opposite
  · linarith
  · rw [abs_of_neg (show x.magnitude - q < 0 by linarith), abs_lt]
    constructor <;> linarith

/-- Of two doubles as near, one has an odd significand, or a double between them is nearer. -/
theorem not_lt_of_tie {m p n r : Nat} {canonical : Canonical m p} {canonical' : Canonical n r}
    (nearest : ∀ z : Binary64, z.isFinite = true → distance q (.finite false m p canonical) ≤ distance q z)
    (tie : distance q (.finite false m p canonical) = distance q (.finite false n r canonical'))
    (even : m % 2 = 0) (even' : n % 2 = 0) : ¬ m * 2 ^ p < n * 2 ^ r := by
  intro less
  have small : m < 2 ^ 53 := canonical.1
  have next : Canonical (m + 1) p := by
    refine ⟨?_, canonical.2.1.imp_left Nat.le_succ_of_le, canonical.2.2⟩
    show m + 1 < 2 ^ 53
    omega
  have above : m * 2 ^ p < (m + 1) * 2 ^ p := Nat.mul_lt_mul_of_pos_right (Nat.lt_succ_self m) (Nat.two_pow_pos p)
  rcases Nat.lt_or_eq_of_le (succ_le_units (y := finite false n r canonical') canonical rfl less) with between | same
  · have nearer := distance_lt_of_between (z := finite false (m + 1) p next) tie above between
    exact absurd (nearest _ rfl) (not_le.2 nearer)
  · have isNext := finite_eq_of_units_eq next canonical' same
    injection isNext
    omega

/-- **There is one nearest double.** -/
theorem IsNearest.unique (nearestX : IsNearest q x) (nearestY : IsNearest q y) : x = y := by
  cases nearestX with
  | infinite large =>
      cases nearestY with
      | infinite => rfl
      | finite small => exact absurd large (not_le.2 small)
  | @finite m p canonical small nearest even =>
      cases nearestY with
      | infinite large => exact absurd large (not_le.2 small)
      | @finite n r canonical' small' nearest' even' =>
          have tie := le_antisymm (nearest (.finite false n r canonical') rfl) (nearest' (.finite false m p canonical) rfl)
          apply finite_eq_of_units_eq
          by_contra other
          have evenX := even (.finite false n r canonical') rfl (Ne.symm other) tie.symm
          have evenY := even' (.finite false m p canonical) rfl other tie
          rcases Nat.lt_or_gt_of_ne other with less | more
          · exact not_lt_of_tie nearest tie evenX evenY less
          · exact not_lt_of_tie nearest' tie.symm evenY evenX more

/-! ## Decimals -/

theorem IsNearest.isNaN (nearest : IsNearest q x) : x.isNaN = false := by
  cases nearest <;> rfl

/-- Only from halfway beyond the largest double on is the infinity the nearest. -/
theorem IsNearest.eq_infinite_iff (nearest : IsNearest q x) : x = .infinite false ↔ overflow ≤ q := by
  cases nearest with
  | infinite large => exact iff_of_true rfl large
  | finite small => exact iff_of_false Binary64.noConfusion (not_le.2 small)

/-- **A decimal denotes the double nearest to it**, however many digits it has. -/
theorem isNearest_value_iff (decimal : Decimal) :
    IsNearest decimal.value x ↔ x = ofDecimal false decimal.digits decimal.exponent := by
  obtain ⟨a, c, positive, isRatio, rounded⟩ := exists_ratio decimal
  rw [rounded]
  have nearest := isNearest_roundUnits positive isRatio
  constructor
  · intro nearestX
    exact nearestX.unique nearest
  · rintro rfl
    exact nearest

end PartCatalog.Binary64
