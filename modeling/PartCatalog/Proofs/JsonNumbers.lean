/-
# JSON numbers -- what is read of a double that was written

The digits that JSON has for a double are the shortest ones, with a zero behind the point of a
whole number (`Binary64.jsonDecimal`).  They denote the double (`ofDecimal_jsonDecimal`) and
always fit the significand (`gather_eq`), so reading loses none of them, and what it makes of
them is their product with a power of ten, or their quotient by one (`readNumber?_chars`).  That
product is rounded once more if the significand or the power is not a double, and then it need
not be the number again.  If both are, which goes up to `2 ^ 53` and `10 ^ 22`, it is the double
nearest to the decimal (`scale?_of_small`), so the number comes back.
-/
import PartCatalog.Json.Basic
import PartCatalog.Json.Number
import PartCatalog.Proofs.LayoutReading
import PartCatalog.Proofs.ShortestDigits

set_option autoImplicit false

namespace PartCatalog

open Binary64

/-! ## Gathering digits -/

namespace Json

theorem le_ofDigitChars (n : Nat) (ds : List Char) : n ≤ Nat.ofDigitChars 10 ds n := by
  induction ds generalizing n with
  | nil => exact Nat.le_refl n
  | cons c ds ih =>
      rw [Nat.ofDigitChars_cons]
      exact Nat.le_trans (by omega) (ih _)

/-- Digits whose number fits the significand are all gathered. -/
theorem gather_eq {n : Nat} {ds : List Char} (fits : Nat.ofDigitChars 10 ds n ≤ maxSignificand) :
    gather n ds = (Nat.ofDigitChars 10 ds n, []) := by
  induction ds generalizing n with
  | nil => rfl
  | cons c ds ih =>
      rw [Nat.ofDigitChars_cons] at fits ⊢
      rw [gather]
      have room : 10 * n + (c.toNat - '0'.toNat) ≤ maxSignificand := Nat.le_trans (le_ofDigitChars _ ds) fits
      rw [if_pos room]
      exact ih fits

theorem isWhole_of_noLeadingZero {ds : List Char} (none : NoLeadingZero ds) : isWhole ds = true := by
  rcases none with rfl | ⟨c, rest, rfl, counts⟩
  · rfl
  · unfold isWhole
    split
    · next isNil => cases isNil
    · rfl
    · next isZero => exact absurd (List.cons.inj isZero).1 counts
    · rfl

/-! ## The parts of a number -/

/-- A minus is taken off from what starts with a digit, if it is written. -/
theorem splitMinus_signed (negative : Bool) {c : Char} (rest : List Char) (digit : c.isDigit = true) :
    splitMinus ((if negative then ['-'] else []) ++ c :: rest) = (negative, c :: rest) := by
  cases negative with
  | true => rfl
  | false =>
      show splitMinus (c :: rest) = (false, c :: rest)
      unfold splitMinus
      split
      · next isMinus =>
        rw [(List.cons.inj isMinus).1] at digit
        cases digit
      · rfl

/-- What stands behind the digits of a number: nothing, or an exponent. -/
inductive Tail : List Char → Int → Prop where
  | none : Tail [] 0
  | exponent (plus : Bool) (width : Nat) (k : Int) : Tail ('e' :: Layout.exponentChars plus width k) k

variable {tail : List Char} {k : Int}

theorem Tail.ends (isTail : Tail tail k) : EndsDigits tail := by
  cases isTail with
  | none => exact endsDigits_nil
  | exponent plus width k => exact endsDigits_cons _ rfl

/-- An exponent is split off with its sign, whether that is written or not, and all its digits. -/
theorem splitPower_tail (isTail : Tail tail k) :
    ∃ power, splitPower tail = (power, []) ∧ powerValue power = k ∧ power.any (·.2.isEmpty) = false := by
  cases isTail with
  | none => exact ⟨none, rfl, rfl, rfl⟩
  | exponent plus width k =>
      unfold Layout.exponentChars
      dsimp only
      rw [List.append_assoc]
      generalize width - (natChars k.natAbs).length = zeros
      have areDigits : ∀ c ∈ List.replicate zeros '0' ++ natChars k.natAbs, c.isDigit = true :=
        fun c => isDigit_of_mem_filled
      have denoted := digitsValue_filled zeros k.natAbs
      obtain ⟨c, rest, written⟩ := List.exists_cons_of_ne_nil (filled_ne_nil zeros k.natAbs)
      rw [written] at areDigits denoted ⊢
      have signed := splitSign_signed (decide (k < 0)) plus rest (areDigits c List.mem_cons_self)
      simp only [decide_eq_true_eq] at signed
      obtain ⟨taken, dropped⟩ := span_digits areDigits endsDigits_nil
      rw [List.append_nil] at taken dropped
      refine ⟨some (decide (k < 0), c :: rest), ?_, ?_, rfl⟩
      · simp only [splitPower, true_or, if_true, signed, taken, dropped]
      · simp only [powerValue, denoted, decide_eq_true_eq]
        split <;> omega

theorem ofParts?_eq {whole fraction : List Char} (fits : Nat.ofDigitChars 10 (whole ++ fraction) 0 ≤ maxSignificand)
    (power : Int) : ofParts? whole fraction power =
      scale? (Nat.ofDigitChars 10 (whole ++ fraction) 0) (power - fraction.length) := by
  rw [Nat.ofDigitChars_append] at fits ⊢
  have gathered : gather 0 whole = (Nat.ofDigitChars 10 whole 0, []) :=
    gather_eq (Nat.le_trans (le_ofDigitChars _ _) fits)
  have places : ((List.length ([] : List Char) : Int) - (fraction.length - List.length ([] : List Char))) + power =
      power - fraction.length := by
    rw [List.length_nil]
    omega
  simp only [ofParts?, gathered, gather_eq fits, places]

/-- Digits around a point are read as their number, with as many places as digits after the
point. -/
theorem readNumber?_point (negative : Bool) {whole fraction : List Char} (noZero : NoLeadingZero whole)
    (someFraction : fraction ≠ []) (areDigits : ∀ c ∈ whole ++ fraction, c.isDigit = true)
    (isTail : Tail tail k) (fits : Nat.ofDigitChars 10 (whole ++ fraction) 0 ≤ maxSignificand) :
    readNumber? ((if negative then ['-'] else []) ++ (whole ++ '.' :: (fraction ++ tail))) =
      (scale? (Nat.ofDigitChars 10 (whole ++ fraction) 0) (k - fraction.length)).map
        fun x => (withSign negative x, []) := by
  obtain ⟨before, after⟩ := List.forall_mem_append.1 areDigits
  obtain ⟨taken, dropped⟩ := span_digits before (endsDigits_point (fraction ++ tail))
  obtain ⟨takenFraction, droppedFraction⟩ := span_digits after isTail.ends
  obtain ⟨power, isPower, value, someDigits⟩ := splitPower_tail isTail
  have signed : splitMinus ((if negative then ['-'] else []) ++ (whole ++ '.' :: (fraction ++ tail))) =
      (negative, whole ++ '.' :: (fraction ++ tail)) := by
    obtain ⟨c, rest, rfl⟩ := List.exists_cons_of_ne_nil noZero.ne_nil
    exact splitMinus_signed negative _ (before c List.mem_cons_self)
  simp only [readNumber?, signed, taken, dropped, splitFraction, takenFraction, droppedFraction, isPower,
    isWhole_of_noLeadingZero noZero, someDigits, Option.getD_some, ofParts?_eq fits, value]
  simp [someFraction]

/-- Digits without a point are read as their number. -/
theorem readNumber?_whole (negative : Bool) {whole : List Char} (noZero : NoLeadingZero whole)
    (areDigits : ∀ c ∈ whole, c.isDigit = true) (isTail : Tail tail k)
    (fits : Nat.ofDigitChars 10 whole 0 ≤ maxSignificand) :
    readNumber? ((if negative then ['-'] else []) ++ (whole ++ tail)) =
      (scale? (Nat.ofDigitChars 10 whole 0) k).map fun x => (withSign negative x, []) := by
  obtain ⟨taken, dropped⟩ := span_digits areDigits isTail.ends
  obtain ⟨power, isPower, value, someDigits⟩ := splitPower_tail isTail
  have signed : splitMinus ((if negative then ['-'] else []) ++ (whole ++ tail)) = (negative, whole ++ tail) := by
    obtain ⟨c, rest, rfl⟩ := List.exists_cons_of_ne_nil noZero.ne_nil
    exact splitMinus_signed negative _ (areDigits c List.mem_cons_self)
  have noPoint : splitFraction tail = (none, tail) := by
    cases isTail with
    | none => rfl
    | exponent plus width k => rfl
  have parts := @ofParts?_eq whole [] (by rwa [List.append_nil]) k
  simp only [readNumber?, signed, taken, dropped, noPoint, isPower, isWhole_of_noLeadingZero noZero, someDigits,
    Option.getD_none, value, parts]
  simp

end Json

/-! ## What is written and read -/

/-- The digits and the exponent that JSON has for a decimal: the decimal itself, or for a whole
number without an exponent the digits before its point and the zero behind it. -/
def Decimal.inJson (d : Decimal) : Decimal :=
  if 0 ≤ d.exponent ∧ (d.digits = 0 ∨ Layout.json.positional (Layout.scientificExponent d) = true) then
    ⟨d.digits * 10 ^ (d.exponent.toNat + 1), -1⟩
  else d

/-- The digits and the exponent that JSON has for a double. -/
def Binary64.jsonDecimal (x : Binary64) : Decimal := (shortest .even x).inJson

namespace Json

variable {d : Decimal}

/-- Positional notation is read as the digits on both sides of its point. -/
theorem readNumber?_positionalChars (negative : Bool) (zero : d.digits = 0 → d.exponent = 0)
    (positional : d.digits = 0 ∨ Layout.json.positional (Layout.scientificExponent d) = true)
    (fits : d.inJson.digits ≤ maxSignificand) :
    readNumber? ((if negative then ['-'] else []) ++ Layout.positionalChars true d) =
      (scale? d.inJson.digits d.inJson.exponent).map fun x => (withSign negative x, []) := by
  by_cases isFraction : d.exponent < 0
  · have isItself : d.inJson = d := if_neg fun whole => Int.not_le.2 isFraction whole.1
    obtain ⟨whole, fraction, written, noZero, areDigits, denoted, places⟩ := exists_places true isFraction
    have someFraction : fraction ≠ [] := by
      rintro rfl
      rw [List.length_nil] at places
      omega
    rw [isItself, ← denoted] at fits
    have read := readNumber?_point negative noZero someFraction areDigits .none fits
    rw [List.append_nil, denoted, places, Int.zero_sub, Int.neg_neg] at read
    rw [isItself, written]
    exact read
  · obtain ⟨k, isExponent⟩ := Int.eq_ofNat_of_zero_le (Int.not_lt.1 isFraction)
    have shifted : d.inJson = ⟨d.digits * 10 ^ (k + 1), -1⟩ := by
      rw [Decimal.inJson, if_pos ⟨Int.not_lt.1 isFraction, positional⟩, isExponent]
      rfl
    obtain ⟨written, areDigits, denoted⟩ := positionalChars_whole isExponent
    have noZero : NoLeadingZero (natChars d.digits ++ List.replicate k '0') := by
      rcases Nat.eq_zero_or_pos d.digits with none | positive
      · have noShift : k = 0 := by
          have := zero none
          omega
        rw [none, noShift]
        exact .inl rfl
      · exact .append (exists_first_natChars positive) _
    rw [shifted, ← denoted] at fits
    have read := readNumber?_point negative noZero (List.cons_ne_nil _ _) areDigits .none fits
    rw [denoted] at read
    rw [shifted, written]
    exact read

/-- Scientific notation is read as the digits and the exponent it was written for. -/
theorem readNumber?_scientificChars (negative : Bool) (fits : d.digits ≤ maxSignificand)
    (nonzero : d.digits ≠ 0) :
    readNumber? ((if negative then ['-'] else []) ++
        Layout.json.scientificChars d (Layout.scientificExponent d)) =
      (scale? d.digits d.exponent).map fun x => (withSign negative x, []) := by
  have areDigits : ∀ c ∈ natChars d.digits, c.isDigit = true := fun c => isDigit_of_mem_natChars
  have denoted := ofDigitChars_natChars d.digits
  obtain ⟨first, rest, written, counts⟩ := exists_first_natChars (Nat.pos_of_ne_zero nonzero)
  have isTail : Tail ('e' :: Layout.exponentChars true 1 (Layout.scientificExponent d))
      (Layout.scientificExponent d) := .exponent true 1 _
  have noZero : NoLeadingZero [first] := .inr ⟨first, [], rfl, counts⟩
  rw [← denoted] at fits
  unfold Layout.scientificExponent at isTail ⊢
  rw [Layout.scientificChars]
  rw [written] at areDigits denoted fits isTail ⊢
  cases rest with
  | nil =>
      have places : d.exponent + ([first].length : Int) - 1 = d.exponent := by simp
      have read := readNumber?_whole negative noZero areDigits isTail fits
      rw [denoted, places] at read
      rw [places]
      exact read
  | cons second rest =>
      have places : d.exponent + ((first :: second :: rest).length : Int) - 1 -
          ((second :: rest).length : Int) = d.exponent := by
        rw [List.length_cons]
        omega
      have read := readNumber?_point negative noZero (List.cons_ne_nil second rest) areDigits isTail fits
      have joined : [first] ++ second :: rest = first :: second :: rest := rfl
      rw [joined, denoted, places] at read
      exact read

/-- A decimal in JSON is read as its digits, scaled as they stand there. -/
theorem readNumber?_decimalChars (negative : Bool) (zero : d.digits = 0 → d.exponent = 0)
    (fits : d.inJson.digits ≤ maxSignificand) :
    readNumber? ((if negative then ['-'] else []) ++ Layout.json.decimalChars d) =
      (scale? d.inJson.digits d.inJson.exponent).map fun x => (withSign negative x, []) := by
  unfold Layout.decimalChars
  by_cases positional : d.digits = 0 ∨ Layout.json.positional (Layout.scientificExponent d) = true
  · rw [if_pos positional]
    exact readNumber?_positionalChars negative zero positional fits
  · have isItself : d.inJson = d := if_neg fun whole => positional whole.2
    rw [isItself] at fits ⊢
    rw [if_neg positional]
    exact readNumber?_scientificChars negative fits fun none => positional (.inl none)

end Json

namespace Binary64

variable {x : Binary64}

/-- The digits in JSON fit a significand. -/
theorem jsonDecimal_digits_le (x : Binary64) : x.jsonDecimal.digits ≤ Json.maxSignificand := by
  have room : 10 ^ 17 + 1 ≤ Json.maxSignificand := by decide
  refine Nat.le_trans ?_ room
  have few := shortest_digits_le .even x
  unfold jsonDecimal Decimal.inJson
  generalize shortest .even x = d at few ⊢
  split
  · next whole =>
    obtain ⟨nonneg, positional⟩ := whole
    rcases positional with zero | positional
    · simp [zero]
    · -- A number without exponent has no more than sixteen digits before its point.
      have short : Layout.scientificExponent d < 16 := by
        simp only [Layout.json, Bool.and_eq_true, decide_eq_true_eq] at positional
        exact positional.2
      obtain ⟨-, -, below⟩ | zero := (Nat.eq_zero_or_pos d.digits).symm.imp_left decimalLength_bounds
      · have places : decimalLength d.digits + (d.exponent.toNat + 1) ≤ 17 := by
          have isLength : (natChars d.digits).length = decimalLength d.digits := rfl
          unfold Layout.scientificExponent at short
          omega
        calc d.digits * 10 ^ (d.exponent.toNat + 1)
            ≤ 10 ^ decimalLength d.digits * 10 ^ (d.exponent.toNat + 1) :=
              Nat.mul_le_mul_right _ (Nat.le_of_lt below)
          _ = 10 ^ (decimalLength d.digits + (d.exponent.toNat + 1)) := (Nat.pow_add ..).symm
          _ ≤ 10 ^ 17 := Nat.pow_le_pow_right (by decide) places
          _ ≤ 10 ^ 17 + 1 := Nat.le_succ _
      · simp [zero]
  · exact few

/-- An integer of no more than 53 binary digits has all its digits before the point. -/
theorem jsonDecimal_ofInt {n : Int} (small : n.natAbs < 2 ^ 53) : (ofInt n).jsonDecimal = ⟨n.natAbs * 10, -1⟩ := by
  obtain ⟨nonneg, same⟩ := @shortest_ofInt_isNat .even n small
  have short := decimalLength_le small
  unfold jsonDecimal Decimal.inJson
  generalize shortest .even (ofInt n) = d at nonneg same ⊢
  obtain ⟨k, isExponent⟩ := Int.eq_ofNat_of_zero_le nonneg
  rw [isExponent, Int.toNat_natCast] at same
  have positional : d.digits = 0 ∨ Layout.json.positional (Layout.scientificExponent d) = true := by
    rcases Nat.eq_zero_or_pos d.digits with zero | positive
    · exact .inl zero
    · have isLength : (natChars d.digits).length = decimalLength d.digits := rfl
      have someDigits := (decimalLength_bounds positive).1
      have longer := decimalLength_mul_pow positive k
      rw [same] at longer
      right
      simp only [Layout.json, Layout.scientificExponent, Bool.and_eq_true, decide_eq_true_eq]
      omega
  rw [if_pos ⟨nonneg, positional⟩, isExponent, Int.toNat_natCast, Nat.pow_succ, ← Nat.mul_assoc, same]

/-- The digits and the exponent in JSON denote the double. -/
theorem ofDecimal_jsonDecimal (finite : x.isFinite = true) :
    ofDecimal x.isNegative x.jsonDecimal.digits x.jsonDecimal.exponent = x := by
  have readsBack := ofDecimal_shortest .even finite
  unfold jsonDecimal Decimal.inJson
  generalize shortest .even x = d at readsBack ⊢
  split
  · next whole =>
    obtain ⟨k, isExponent⟩ := Int.eq_ofNat_of_zero_le whole.1
    have padded := ofDecimal_padded x.isNegative d (k + 1)
    have isPoint : (k : Int) - (k + 1 : Nat) = -1 := by omega
    rw [readsBack, Decimal.padded, isExponent, isPoint] at padded
    rwa [isExponent, Int.toNat_natCast]
  · exact readsBack

end Binary64

namespace Json

variable {x : Binary64}

/-- **What is read of a double that was written.**  No digit is lost, and the number is what comes
of scaling the digits as they stand in the text. -/
theorem readNumber?_chars (finite : x.isFinite = true) :
    readNumber? (Layout.json.chars x) = (scale? x.jsonDecimal.digits x.jsonDecimal.exponent).map
      fun y => (withSign x.isNegative y, []) := by
  have fits := jsonDecimal_digits_le x
  obtain ⟨negative, m, p, canonical, rfl⟩ := exists_eq_finite finite
  exact readNumber?_decimalChars negative shortest_exponent_of_digits fits

/-! ## Scaling without loss -/

/-- A finite number with the sign of another and its magnitude is that number. -/
theorem withSign_abs (finite : x.isFinite = true) : withSign x.isNegative x.abs = x := by
  obtain ⟨negative, m, p, canonical, rfl⟩ := exists_eq_finite finite
  rfl

theorem mul_eq_round {x y : Binary64} (finite : x.isFinite = true) (finite' : y.isFinite = true) :
    x.mul y = Binary64.round (x.isNegative != y.isNegative) (x.units * y.units) (Nat.pow 2 1074 * Nat.pow 2 1074) := by
  obtain ⟨negative, m, p, canonical, rfl⟩ := exists_eq_finite finite
  obtain ⟨negative', n, q, canonical', rfl⟩ := exists_eq_finite finite'
  rfl

theorem div_eq_round {x y : Binary64} (finite : x.isFinite = true) (finite' : y.isFinite = true)
    (nonzero : y.units ≠ 0) : x.div y = Binary64.round (x.isNegative != y.isNegative) x.units y.units := by
  obtain ⟨negative, m, p, canonical, rfl⟩ := exists_eq_finite finite
  obtain ⟨negative', n, q, canonical', rfl⟩ := exists_eq_finite finite'
  have someDigits : n ≠ 0 := by
    rintro rfl
    exact nonzero (Nat.zero_mul _)
  exact if_neg someDigits

/-- The powers of ten up to the twenty-second are doubles. -/
theorem powerOfTen_exact {n : Nat} (small : n ≤ 22) :
    (powerOfTen n).isFinite = true ∧ (powerOfTen n).isNegative = false ∧
      (powerOfTen n).units = 10 ^ n * Nat.pow 2 1074 := by
  have isRound : powerOfTen n = ofDecimal false (1 * 10 ^ n) 0 := (ofDecimal_mul_pow false 1 n).symm
  have odd : 5 ^ n < 2 ^ 53 :=
    Nat.lt_of_le_of_lt (Nat.pow_le_pow_right (by decide) small) (by decide)
  rw [isRound, ofDecimal_whole, Nat.one_mul, Binary64.round]
  obtain ⟨significand, scale, packed⟩ := exists_pack_of_roundUnits (10 ^ n * Nat.pow 2 1074) 1
  have sign : (roundUnits false (10 ^ n * Nat.pow 2 1074) 1).isNegative = false := by
    rw [packed, isNegative_pack]
  refine (and_left_comm.1 ⟨sign, ?_⟩)
  generalize unit : 1074 = k
  have split : 10 ^ n * Nat.pow 2 k = 5 ^ n * Nat.pow 2 (n + k) := by
    show (5 * 2) ^ n * 2 ^ k = 5 ^ n * 2 ^ (n + k)
    rw [Nat.mul_pow, Nat.pow_add, Nat.mul_assoc]
  rw [split]
  exact units_roundUnits_mul_pow false odd (by omega)

theorem units_significand {significand : Nat} (small : significand < 2 ^ 53) :
    (ofInt significand).isFinite = true ∧ (ofInt significand).isNegative = false ∧
      (ofInt significand).units = significand * Nat.pow 2 1074 := by
  obtain ⟨finite, units⟩ := units_ofInt (n := (significand : Int)) small
  refine ⟨finite, ?_, units⟩
  rw [isNegative_ofInt, decide_eq_false_iff_not]
  omega

theorem mul_powerOfTen {significand n : Nat} (small : significand < 2 ^ 53) (fewPlaces : n ≤ 22) :
    (ofInt significand).mul (powerOfTen n) = ofDecimal false significand n := by
  obtain ⟨finite, sign, units⟩ := units_significand small
  obtain ⟨finite', sign', units'⟩ := powerOfTen_exact fewPlaces
  rw [mul_eq_round finite finite', sign, sign', units, units', ← ofDecimal_mul_pow, ofDecimal_whole]
  have positive := units_of_one_pos
  generalize Nat.pow 2 1074 = one at positive ⊢
  have scaled : significand * one * (10 ^ n * one) = significand * 10 ^ n * (one * one) := by ac_rfl
  have rounded := round_mul_right false (significand * 10 ^ n) 1 (Nat.mul_pos positive positive)
  rw [Nat.one_mul] at rounded
  rw [scaled]
  exact rounded

theorem div_powerOfTen {significand n : Nat} (small : significand < 2 ^ 53) (fewPlaces : n ≤ 22) :
    (ofInt significand).div (powerOfTen n) = ofDecimal false significand (-n) := by
  obtain ⟨finite, sign, units⟩ := units_significand small
  obtain ⟨finite', sign', units'⟩ := powerOfTen_exact fewPlaces
  have power : 0 < 10 ^ n := Nat.pow_pos (by decide)
  have nonzero : (powerOfTen n).units ≠ 0 := by
    rw [units']
    exact Nat.ne_of_gt (Nat.mul_pos power units_of_one_pos)
  rw [div_eq_round finite finite' nonzero, sign, sign', units, units']
  have one_pos := units_of_one_pos
  generalize Nat.pow 2 1074 = one at one_pos ⊢
  exact (round_mul_right false significand (10 ^ n) one_pos).trans (ofDecimal_fraction false significand n).symm

/-- **Scaling loses nothing** as long as the significand and the power of ten are doubles. -/
theorem scale?_of_small {significand : Nat} {exponent : Int} (small : significand < 2 ^ 53)
    (fewPlaces : exponent.natAbs ≤ 22) (finite : (ofDecimal false significand exponent).isFinite = true) :
    scale? significand exponent = some (ofDecimal false significand exponent) := by
  unfold scale?
  dsimp only
  by_cases isFraction : exponent < 0
  · have isPlaces : exponent = -(exponent.natAbs : Int) := by omega
    have divided := div_powerOfTen small fewPlaces
    rw [← isPlaces] at divided
    rw [if_pos isFraction, scaleDown, if_pos (show exponent.natAbs ≤ 308 by omega), divided]
  · have isPlaces : exponent = (exponent.toNat : Int) := by omega
    have multiplied := mul_powerOfTen small (show exponent.toNat ≤ 22 by omega)
    rw [← isPlaces] at multiplied
    rw [if_neg isFraction, if_pos (show exponent ≤ 308 by omega), multiplied, if_pos finite]

/-- A double with few digits and few places comes back from its text. -/
theorem scale?_jsonDecimal (finite : x.isFinite = true) (small : x.jsonDecimal.digits < 2 ^ 53)
    (fewPlaces : x.jsonDecimal.exponent.natAbs ≤ 22) :
    (scale? x.jsonDecimal.digits x.jsonDecimal.exponent).map (withSign x.isNegative) = some x := by
  have denoted := ofDecimal_jsonDecimal finite
  have magnitude : ofDecimal false x.jsonDecimal.digits x.jsonDecimal.exponent = x.abs := by
    obtain ⟨significand, scale, packed⟩ := exists_pack_of_ofDecimal x.jsonDecimal.digits x.jsonDecimal.exponent
    rw [packed] at denoted ⊢
    rw [← denoted, abs_pack]
  have isNumber : x.abs.isFinite = true := by
    obtain ⟨negative, m, p, canonical, rfl⟩ := exists_eq_finite finite
    rfl
  rw [scale?_of_small small fewPlaces (by rwa [magnitude]), magnitude, Option.map_some, withSign_abs finite]

end Json

end PartCatalog
