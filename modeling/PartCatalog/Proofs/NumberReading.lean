/-
# Reading numbers -- the shortest digits of a double read back

The digits shown of a double were found by reading them, apart from the search that runs out:
then all digits of the double are taken, and the decimal they make is rounded exactly
(`ofDecimal_units`).  So the shortest digits denote the double they were found for, whatever
its magnitude (`ofDecimal_shortest`).  A text is a decimal before it is rounded
(`exactDecimal?`): positional notation only moves zeros between the digits and the exponent
(`exactDecimal?_positionalChars`), and rounding does not look at where they stand
(`ofDecimal_padded`).
-/
import Mathlib.Data.List.TakeWhile
import PartCatalog.Binary64.Reader
import PartCatalog.Proofs.NumberTexts

set_option autoImplicit false

namespace PartCatalog

/-- The same decimal with zeros moved from its exponent to its digits. -/
def Decimal.padded (d : Decimal) (k : Nat) : Decimal := ⟨d.digits * 10 ^ k, d.exponent - k⟩

namespace Binary64

/-- The scale that rounding chooses for a magnitude is the canonical one. -/
theorem scale_of_canonical {significand scale : Nat} (canonical : Canonical significand scale) :
    Nat.log2 (significand * 2 ^ scale) - 52 = scale := by
  obtain ⟨below, normal, -⟩ := canonical
  have below : significand < 2 ^ 53 := below
  have digits : significand * 2 ^ scale < 2 ^ (53 + scale) := by
    rw [Nat.pow_add]
    exact Nat.mul_lt_mul_of_pos_right below (Nat.two_pow_pos scale)
  by_cases zero : significand * 2 ^ scale = 0
  · rcases normal with normal | rfl
    · have positive : 0 < significand := Nat.lt_of_lt_of_le (Nat.two_pow_pos 52) normal
      exact absurd zero (Nat.ne_of_gt (Nat.mul_pos positive (Nat.two_pow_pos scale)))
    · rw [zero, Nat.log2_zero]
  · have short : Nat.log2 (significand * 2 ^ scale) < 53 + scale := (Nat.log2_lt zero).2 digits
    rcases normal with normal | rfl
    · have leading : 2 ^ (52 + scale) ≤ significand * 2 ^ scale := by
        rw [Nat.pow_add]
        exact Nat.mul_le_mul_right _ normal
      have long : 52 + scale ≤ Nat.log2 (significand * 2 ^ scale) := (Nat.le_log2 zero).2 leading
      omega
    · omega

/-- A magnitude of a double is rounded to that double, over whatever denominator. -/
theorem roundUnits_exact {significand scale d : Nat} (negative : Bool)
    (canonical : Canonical significand scale) (positive : 0 < d) :
    roundUnits negative (significand * 2 ^ scale * d) d = pack negative significand scale := by
  have nearest : nearestEven (significand * 2 ^ scale * d) (d * 2 ^ scale) = significand := by
    rw [Nat.mul_assoc, Nat.mul_comm (2 ^ scale)]
    exact nearestEven_mul significand (Nat.mul_pos positive (Nat.two_pow_pos scale))
  simp only [roundUnits, Nat.mul_div_cancel _ positive, scale_of_canonical canonical, Nat.pow_eq, nearest]
  exact if_neg (Nat.ne_of_lt canonical.1)

/-! ## Decimals -/

variable {digits : Nat} {e : Int}

/-- What a decimal denotes is packed, and its sign has no part in the magnitude. -/
theorem exists_pack_of_ofDecimal (digits : Nat) (e : Int) :
    ∃ significand scale, ∀ negative, ofDecimal negative digits e = pack negative significand scale := by
  unfold ofDecimal
  dsimp only
  split
  · exact ⟨0, 0, fun _ => rfl⟩
  · split
    · refine ⟨2 ^ 53, 0, fun negative => ?_⟩
      rw [pack, dif_neg (by decide)]
    · split <;> exact exists_pack_of_roundUnits _ _

/-- A double is known by its sign and its magnitude. -/
theorem pack_eq_iff_abs {negative : Bool} {significand scale : Nat} {x : Binary64} (number : x.isNaN = false) :
    pack negative significand scale = x ↔ x.isNegative = negative ∧ pack false significand scale = x.abs := by
  unfold pack
  split <;> cases x <;> simp_all [isNaN, isNegative, abs, eq_comm]

theorem ofDecimal_of_abs {x : Binary64} (number : x.isNaN = false)
    (readsBack : ofDecimal false digits e = x.abs) : ofDecimal x.isNegative digits e = x := by
  obtain ⟨significand, scale, packed⟩ := exists_pack_of_ofDecimal digits e
  rw [packed] at readsBack ⊢
  exact (pack_eq_iff_abs number).2 ⟨rfl, readsBack⟩

theorem decimalLength_mul_pow {n : Nat} (positive : 0 < n) (k : Nat) :
    decimalLength (n * 10 ^ k) = decimalLength n + k := by
  have written := congrArg List.length (natChars_mul_pow positive k)
  rwa [List.length_append, List.length_replicate] at written

/-- Zeros at the end of the digits may as well stand in the exponent. -/
theorem ofDecimal_padded (negative : Bool) (d : Decimal) (k : Nat) :
    ofDecimal negative (d.padded k).digits (d.padded k).exponent = ofDecimal negative d.digits d.exponent := by
  obtain ⟨digits, e⟩ := d
  show ofDecimal negative (digits * 10 ^ k) (e - k) = ofDecimal negative digits e
  -- Both ratios lose what their terms have in common: `k` places, less those that cancel.
  obtain ⟨common, places⟩ : ∃ common, k + (e - k).toNat = e.toNat + common :=
    ⟨k + (e - k).toNat - e.toNat, by omega⟩
  have places' : (-(e - k)).toNat = (-e).toNat + common := by omega
  rw [ofDecimal_eq_round, ofDecimal_eq_round, Nat.mul_assoc, ← Nat.pow_add, places, places', Nat.pow_add,
    Nat.pow_add, ← Nat.mul_assoc, round_mul_right _ _ _ (Nat.pow_pos (by decide))]

theorem ofDecimal_mul_pow (negative : Bool) (digits k : Nat) :
    ofDecimal negative (digits * 10 ^ k) 0 = ofDecimal negative digits k := by
  have padded := ofDecimal_padded negative ⟨digits, k⟩ k
  rwa [Decimal.padded, Int.sub_self] at padded

/-- All digits of a finite number read back. -/
theorem ofDecimal_units {x : Binary64} (finite : x.isFinite = true) :
    ofDecimal false (x.units * Nat.pow 5 1074) (-1074) = x.abs := by
  obtain ⟨negative, m, p, canonical, rfl⟩ := exists_eq_finite finite
  rw [ofDecimal_eq_round, round]
  -- The exponent is kept as a variable, so that nothing computes the power.
  have noPower : Int.toNat (-1074) = 0 := rfl
  have places : Int.toNat (-(-1074)) = 1074 := rfl
  rw [noPower, places, Nat.pow_zero, Nat.mul_one]
  generalize 1074 = k
  have scaled : (Binary64.finite negative m p canonical).units * Nat.pow 5 k * Nat.pow 2 k = m * 2 ^ p * 10 ^ k := by
    rw [Nat.mul_assoc, Nat.pow_eq, Nat.pow_eq, ← Nat.mul_pow]
    rfl
  rw [scaled, roundUnits_exact false canonical (Nat.pow_pos (by decide)), pack, dif_pos canonical]
  rfl

theorem abs_eq_zero {x : Binary64} (finite : x.isFinite = true) (noUnits : x.units = 0) :
    x.abs = zero false := by
  obtain ⟨negative, m, p, canonical, rfl⟩ := exists_eq_finite finite
  obtain rfl : m = 0 := by
    rcases Nat.mul_eq_zero.1 noUnits with none | none
    · exact none
    · exact absurd none (Nat.ne_of_gt (Nat.two_pow_pos p))
  obtain rfl : p = 0 := canonical.2.1.resolve_left (by decide)
  rfl

/-- **The shortest digits read back** as the number they were found for. -/
theorem ofDecimal_shortest (tie : DecimalTie) {x : Binary64} (finite : x.isFinite = true) :
    ofDecimal x.isNegative (shortest tie x).digits (shortest tie x).exponent = x := by
  have number : x.isNaN = false := by cases x <;> first | rfl | cases finite
  apply ofDecimal_of_abs number
  by_cases noUnits : x.units = 0
  · rw [shortest_of_units_eq_zero noUnits, abs_eq_zero finite noUnits]
    rfl
  · rw [shortest, if_neg noUnits]
    rcases searchGrids_cases tie x.abs 20 (coarsest x.units) with ⟨d, e, found, searched⟩ | searched
    · rw [searched]
      exact ofDecimal_of_neighbour? found
    · rw [searched, units_abs]
      exact ofDecimal_units finite

/-! ## Reading positional notation -/

/-- Whether digits have no zero in front that does not count. -/
def NoLeadingZero (ds : List Char) : Prop := ds = ['0'] ∨ ∃ c rest, ds = c :: rest ∧ c ≠ '0'

theorem NoLeadingZero.ne_nil {ds : List Char} (none : NoLeadingZero ds) : ds ≠ [] := by
  rcases none with rfl | ⟨c, rest, rfl, -⟩
  · exact List.cons_ne_nil _ _
  · exact List.cons_ne_nil _ _

theorem NoLeadingZero.append {ds : List Char} (none : ∃ c rest, ds = c :: rest ∧ c ≠ '0')
    (more : List Char) : NoLeadingZero (ds ++ more) := by
  obtain ⟨c, rest, rfl, counts⟩ := none
  exact .inr ⟨c, rest ++ more, rfl, counts⟩

/-- The digits of a number start with one that counts. -/
theorem exists_first_natChars {n : Nat} (positive : 0 < n) : ∃ c rest, natChars n = c :: rest ∧ c ≠ '0' := by
  induction n using Nat.strongRecOn with
  | ind n ih =>
      by_cases short : n < 10
      · have one : natChars n = [n.digitChar] := Nat.toDigits_of_lt_base short
        have counts : ∀ d < 10, 0 < d → Nat.digitChar d ≠ '0' := by decide
        exact ⟨n.digitChar, [], one, counts n short positive⟩
      · obtain ⟨c, rest, first, counts⟩ := ih (n / 10) (by omega) (by omega)
        have parts : 10 * (n / 10) + n % 10 = n := Nat.div_add_mod n 10
        have written : natChars n = natChars (n / 10) ++ natChars (n % 10) := by
          refine Eq.trans ?_ (Nat.toDigits_append_toDigits (by decide) (by omega) (by omega)).symm
          rw [parts]
          rfl
        exact ⟨c, rest ++ natChars (n % 10), by rw [written, first]; rfl, counts⟩

theorem noLeadingZero_natChars (n : Nat) : NoLeadingZero (natChars n) := by
  rcases Nat.eq_zero_or_pos n with rfl | positive
  · exact .inl rfl
  · exact .inr (exists_first_natChars positive)

theorem NoLeadingZero.take {ds : List Char} (none : NoLeadingZero ds) {k : Nat} (some_ : 0 < k)
    (inside : k < ds.length) : NoLeadingZero (ds.take k) := by
  rcases none with rfl | ⟨c, rest, rfl, counts⟩
  · have one : ['0'].length = 1 := rfl
    omega
  · obtain ⟨j, rfl⟩ := Nat.exists_eq_add_one_of_ne_zero (Nat.ne_of_gt some_)
    exact .inr ⟨c, rest.take j, rfl, counts⟩

/-- Positional notation of a fraction has digits on both sides of a point, as many after it as
the exponent says. -/
theorem exists_places {d : Decimal} (keeps : Bool) (isFraction : d.exponent < 0) :
    ∃ whole fraction, Layout.positionalChars keeps d = whole ++ '.' :: fraction ∧ NoLeadingZero whole ∧
      (∀ c ∈ whole ++ fraction, c.isDigit = true) ∧
      Nat.ofDigitChars 10 (whole ++ fraction) 0 = d.digits ∧ (fraction.length : Int) = -d.exponent := by
  have areDigits : ∀ c ∈ natChars d.digits, c.isDigit = true := fun c => isDigit_of_mem_natChars
  unfold Layout.positionalChars
  dsimp only
  rw [if_neg (Int.not_le.2 isFraction)]
  split
  · next inside =>
    refine ⟨_, _, rfl, (noLeadingZero_natChars d.digits).take (by omega) (by omega), ?_, ?_, ?_⟩
    · rwa [List.take_append_drop]
    · rw [List.take_append_drop, ofDigitChars_natChars]
    · rw [List.length_drop]
      omega
  · next outside =>
    refine ⟨['0'], _, rfl, .inl rfl, ?_, ?_, ?_⟩
    · intro c member
      rw [List.singleton_append, ← List.cons_append, ← List.replicate_succ] at member
      rcases List.mem_append.1 member with isZero | inDigits
      · rw [List.eq_of_mem_replicate isZero]
        rfl
      · exact areDigits c inDigits
    · rw [List.singleton_append, ← List.cons_append, ← List.replicate_succ, Nat.ofDigitChars_append,
        Nat.ofDigitChars_replicate_zero, Nat.mul_zero, ofDigitChars_natChars]
    · rw [List.length_append, List.length_replicate]
      omega

theorem isDigit_of_mem_zeros {n k : Nat} {c : Char} (member : c ∈ natChars n ++ List.replicate k '0') :
    c.isDigit = true := by
  rcases List.mem_append.1 member with inDigits | isZero
  · exact isDigit_of_mem_natChars inDigits
  · rw [List.eq_of_mem_replicate isZero]
    rfl

/-- Zeros behind the digits of a number shift them. -/
theorem ofDigitChars_zeros (n k : Nat) :
    Nat.ofDigitChars 10 (natChars n ++ List.replicate k '0') 0 = n * 10 ^ k := by
  rw [Nat.ofDigitChars_append, Nat.ofDigitChars_replicate_zero, ofDigitChars_natChars, Nat.mul_comm]

/-- A number without a fraction, where one is kept, has a zero behind its point. -/
theorem positionalChars_whole {d : Decimal} {k : Nat} (isWhole : d.exponent = k) :
    Layout.positionalChars true d = (natChars d.digits ++ List.replicate k '0') ++ '.' :: ['0'] ∧
      (∀ c ∈ (natChars d.digits ++ List.replicate k '0') ++ ['0'], c.isDigit = true) ∧
      Nat.ofDigitChars 10 ((natChars d.digits ++ List.replicate k '0') ++ ['0']) 0 = d.digits * 10 ^ (k + 1) := by
  rw [List.append_assoc _ _ ['0'], ← List.replicate_succ']
  refine ⟨?_, fun c => isDigit_of_mem_zeros, ofDigitChars_zeros _ _⟩
  simp [Layout.positionalChars, isWhole]

/-- Whether a text does not go on with a digit. -/
def EndsDigits (rest : List Char) : Prop := ∀ c ∈ rest.head?, c.isDigit = false

theorem endsDigits_nil : EndsDigits [] := fun _ => nofun

theorem endsDigits_cons {c : Char} (rest : List Char) (noDigit : c.isDigit = false) : EndsDigits (c :: rest) := by
  rintro d ⟨⟩
  exact noDigit

theorem endsDigits_point (rest : List Char) : EndsDigits ('.' :: rest) := endsDigits_cons rest rfl

theorem span_digits {ds rest : List Char} (areDigits : ∀ c ∈ ds, c.isDigit = true) (ends : EndsDigits rest) :
    (ds ++ rest).takeWhile Char.isDigit = ds ∧ (ds ++ rest).dropWhile Char.isDigit = rest := by
  rw [List.takeWhile_append_of_pos areDigits, List.dropWhile_append_of_pos areDigits]
  cases rest with
  | nil => simp
  | cons c rest => simp [ends c rfl]

/-- Digits up to a point, and digits after it. -/
theorem splitDecimal_point {whole fraction rest : List Char}
    (areDigits : ∀ c ∈ whole ++ fraction, c.isDigit = true) (ends : EndsDigits rest) :
    splitDecimal (whole ++ '.' :: (fraction ++ rest)) = (whole, fraction, rest) := by
  obtain ⟨before, after⟩ := List.forall_mem_append.1 areDigits
  obtain ⟨taken, dropped⟩ := span_digits before (endsDigits_point (fraction ++ rest))
  obtain ⟨takenFraction, droppedFraction⟩ := span_digits after ends
  simp only [splitDecimal, taken, dropped, takenFraction, droppedFraction]

/-- Digits without a point. -/
theorem splitDecimal_whole {whole rest : List Char} (areDigits : ∀ c ∈ whole, c.isDigit = true)
    (ends : EndsDigits rest) (noPoint : rest.head? ≠ some '.') : splitDecimal (whole ++ rest) = (whole, [], rest) := by
  obtain ⟨taken, dropped⟩ := span_digits areDigits ends
  simp only [splitDecimal, taken, dropped]
  split
  · exact absurd rfl noPoint
  · rfl

/-- The decimal that an unsigned text is, before any rounding. -/
def exactDecimal? (cs : List Char) : Option Decimal :=
  let (whole, fraction, rest) := splitDecimal cs
  if whole = [] ∧ fraction = [] then none
  else (readExponent? rest).map fun e => ⟨digitsValue (whole ++ fraction), e - fraction.length⟩

/-- Reading rounds the decimal that is written. -/
theorem readDecimal?_eq_map (negative : Bool) (cs : List Char) :
    readDecimal? negative cs = (exactDecimal? cs).map fun d => ofDecimal negative d.digits d.exponent := by
  unfold readDecimal? exactDecimal?
  dsimp only
  split
  · rfl
  · rw [Option.map_map]
    rfl

/-- A decimal is read from the digits before and after its point, and from its exponent. -/
theorem exactDecimal?_of_split {cs whole fraction rest : List Char}
    (split : splitDecimal cs = (whole, fraction, rest)) (someDigits : whole ≠ []) {e : Int}
    (exponent : readExponent? rest = some e) :
    exactDecimal? cs = some ⟨Nat.ofDigitChars 10 (whole ++ fraction) 0, e - fraction.length⟩ := by
  rw [exactDecimal?, split]
  simp [someDigits, exponent, digitsValue, Nat.ofDigitChars]

theorem readDecimal?_of_split {cs whole fraction rest : List Char} (negative : Bool)
    (split : splitDecimal cs = (whole, fraction, rest)) (someDigits : whole ≠ []) {e : Int}
    (exponent : readExponent? rest = some e) :
    readDecimal? negative cs =
      some (ofDecimal negative (Nat.ofDigitChars 10 (whole ++ fraction) 0) (e - fraction.length)) := by
  rw [readDecimal?_eq_map, exactDecimal?_of_split split someDigits exponent, Option.map_some]

/-- Positional notation is the decimal it was written for, with zeros up to the point and, where a
fraction is kept, one behind it. -/
theorem exactDecimal?_positionalChars (keeps : Bool) (d : Decimal) :
    ∃ k, exactDecimal? (Layout.positionalChars keeps d) = some (d.padded k) := by
  by_cases isFraction : d.exponent < 0
  · obtain ⟨whole, fraction, written, noZero, areDigits, denoted, places⟩ := exists_places keeps isFraction
    have split := splitDecimal_point areDigits endsDigits_nil
    rw [List.append_nil] at split
    refine ⟨0, ?_⟩
    rw [written, exactDecimal?_of_split split noZero.ne_nil rfl, denoted, places, Int.zero_sub, Int.neg_neg]
    simp [Decimal.padded]
  · obtain ⟨k, isWhole⟩ := Int.eq_ofNat_of_zero_le (Int.not_lt.1 isFraction)
    have areDigits : ∀ c ∈ natChars d.digits ++ List.replicate k '0', c.isDigit = true :=
      fun c => isDigit_of_mem_zeros
    have someDigits : natChars d.digits ++ List.replicate k '0' ≠ [] :=
      List.append_ne_nil_of_left_ne_nil Nat.toDigits_ne_nil _
    cases keeps with
    | false =>
        have written : Layout.positionalChars false d = natChars d.digits ++ List.replicate k '0' := by
          simp [Layout.positionalChars, isWhole]
        have split := splitDecimal_whole areDigits endsDigits_nil (by simp)
        rw [List.append_nil] at split
        refine ⟨k, ?_⟩
        rw [written, exactDecimal?_of_split split someDigits rfl, List.append_nil, ofDigitChars_zeros]
        simp [Decimal.padded, isWhole]
    | true =>
        obtain ⟨written, areDigits', denoted⟩ := positionalChars_whole isWhole
        have split := splitDecimal_point areDigits' endsDigits_nil
        rw [List.append_nil] at split
        have places : 0 - (['0'].length : Int) = k - (k + 1 : Nat) := by
          rw [List.length_singleton]
          omega
        refine ⟨k + 1, ?_⟩
        rw [written, exactDecimal?_of_split split someDigits rfl, denoted, places, ← isWhole]
        rfl

/-- So it is read as that decimal. -/
theorem readDecimal?_positionalChars (keeps negative : Bool) (d : Decimal) :
    readDecimal? negative (Layout.positionalChars keeps d) = some (ofDecimal negative d.digits d.exponent) := by
  obtain ⟨k, written⟩ := exactDecimal?_positionalChars keeps d
  rw [readDecimal?_eq_map, written, Option.map_some, ofDecimal_padded]

end Binary64

end PartCatalog
