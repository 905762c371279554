/-
# Named numbers -- the text that a name shows of a number

A text denotes a rational number, before that is rounded to a double (`denoted?`).  What a layout
writes of a double denotes its shortest decimal, in either notation (`denoted?_text`), so a number
in a name denotes the same as its plain digits.  The layout of names chooses its notation by the
exponent of the shortest decimal, and the order of rounding makes this a matter of the number
itself: there is an exponent for the magnitudes below `1e-4` and from `1e16` up, zero left out
(`name_positional_iff`, `isOutside_iff`).

The same text can be had by editing other texts (`edited`): scientific notation is cut at its
letter, and the exponent is read as a machine integer and written anew with a sign and two digits;
plain digits without a point get a fraction.  An exponent that cannot be read would pass for zero
there, and a text without a letter would stay as it is; neither happens (`name_chars_eq_edited`).
`Layout.name_text_showsNumber` has all of this.
-/
import PartCatalog.Proofs.LayoutReading
import PartCatalog.Proofs.RoundingOrder

set_option autoImplicit false

namespace PartCatalog

/-! ## What a text denotes -/

theorem Decimal.value_padded (d : Decimal) (k : Nat) : (d.padded k).value = d.value := by
  have power : (10 : ℚ) ^ k ≠ 0 := by positivity
  rw [value, value, padded, zpow_sub₀ (by norm_num), zpow_natCast]
  push_cast
  field_simp

namespace Binary64

/-- The number that a decimal text denotes, before it is rounded to a double. -/
def denoted? (s : String) : Option ℚ :=
  let (negative, body) := splitSign s.toList
  (exactDecimal? body).map fun d => if negative then -d.value else d.value

/-- In every layout, the text of a finite number denotes its shortest decimal. -/
theorem denoted?_text (layout : Layout) {x : Binary64} (finite : x.isFinite = true) :
    denoted? (layout.text x) =
      some (if x.isNegative then -(shortest layout.tie x).value else (shortest layout.tie x).value) := by
  obtain ⟨negative, m, p, canonical, rfl⟩ := exists_eq_finite finite
  generalize isShortest : shortest layout.tie (.finite negative m p canonical) = d
  obtain ⟨k, written⟩ := exactDecimal?_decimalChars layout d
  obtain ⟨c, rest, first, digit⟩ := Layout.exists_digit_decimalChars layout d
  have signed := splitSign_signed negative false rest digit
  rw [← first] at signed
  rw [denoted?, Layout.text, String.toList_ofList, Layout.chars, isShortest]
  simp only [Bool.false_eq_true, if_false] at signed
  rw [signed]
  simp only [written, Option.map_some, Decimal.value_padded]
  rfl

variable {x y : Binary64}

theorem magnitude_ne_zero_iff : x.magnitude ≠ 0 ↔ x.units ≠ 0 := by
  rw [magnitude, div_ne_zero_iff, Nat.cast_ne_zero, and_iff_left one_pos_rat.ne']

/-- Magnitudes are compared as numbers are. -/
theorem numLt_abs_iff (finite : x.isFinite = true) (finite' : y.isFinite = true) :
    x.abs.numLt y.abs = true ↔ x.units < y.units := by
  obtain ⟨negative, m, p, canonical, rfl⟩ := exists_eq_finite finite
  obtain ⟨negative', n, q, canonical', rfl⟩ := exists_eq_finite finite'
  show decide (((m * Nat.pow 2 p : Nat) : ℤ) < (n * Nat.pow 2 q : Nat)) = true ↔ m * Nat.pow 2 p < n * Nat.pow 2 q
  rw [decide_eq_true_eq, Int.ofNat_lt]

theorem numEq_zero_iff (finite : x.isFinite = true) : x.abs.numEq (zero false) = true ↔ x.units = 0 := by
  obtain ⟨negative, m, p, canonical, rfl⟩ := exists_eq_finite finite
  simp [numEq, abs, isNaN, rank, units, zero]

end Binary64

namespace Layout

open Binary64

/-! ## Notations -/

theorem letter_not_mem_positionalChars (keeps : Bool) (d : Decimal) : 'e' ∉ positionalChars keeps d := by
  intro member
  rcases mem_positionalChars member with digit | point
  · exact absurd digit (by decide)
  · exact absurd point (by decide)

/-- Scientific notation has one letter, before its exponent. -/
theorem exists_significand (d : Decimal) :
    ∃ significand, 'e' ∉ significand ∧ ∀ (layout : Layout) (k : ℤ),
      layout.scientificChars d k =
        significand ++ 'e' :: exponentChars layout.exponentPlus layout.exponentDigits k := by
  have noLetter : ∀ c ∈ natChars d.digits, c ≠ 'e' := by
    rintro c member rfl
    exact absurd (isDigit_of_mem_natChars member) (by decide)
  unfold scientificChars
  generalize natChars d.digits = ds at noLetter ⊢
  refine ⟨_, ?_, fun _ _ => rfl⟩
  split
  · next first second rest =>
    intro member
    rcases List.mem_cons.1 member with isFirst | member
    · exact noLetter first List.mem_cons_self isFirst.symm
    · rcases List.mem_cons.1 member with isPoint | isRest
      · exact absurd isPoint (by decide)
      · exact noLetter _ (List.mem_cons_of_mem first isRest) rfl
  · exact fun member => noLetter _ member rfl

/-- An exponent of a name has a sign and at least two digits. -/
theorem exists_signed_exponent (k : ℤ) :
    ∃ sign digits, exponentChars true 2 k = sign :: digits ∧ (sign = '-' ∨ sign = '+') ∧
      2 ≤ digits.length ∧ ∀ c ∈ digits, c.isDigit = true := by
  refine ⟨if k < 0 then '-' else '+', List.replicate (2 - (natChars k.natAbs).length) '0' ++ natChars k.natAbs,
    ?_, ?_, ?_, fun c => isDigit_of_mem_filled⟩
  · unfold exponentChars
    split <;> simp
  · split
    · exact .inl rfl
    · exact .inr rfl
  · rw [List.length_append, List.length_replicate]
    omega

/-! ## Editing -/

/-- Scientific notation as it is written on its own, of a number other than zero. -/
def scientific : Layout where
  tie := .up
  positional _ := false
  keepsFraction := false
  exponentPlus := false
  exponentDigits := 1
  nan := "NaN"
  infinity := "inf"
  negativeInfinity := "-inf"

/-- An integer of 32 bits that a text denotes. -/
def readInt32? (cs : List Char) : Option ℤ :=
  (readSigned? cs).filter fun k => -(2 ^ 31) ≤ k ∧ k < 2 ^ 31

/-- Scientific notation with its exponent read and written anew, with a sign and two digits; an
exponent that cannot be read is taken for zero. -/
def signExponent (cs : List Char) : List Char :=
  match cs.dropWhile (· ≠ 'e') with
  | [] => cs
  | letter :: exponent =>
    cs.takeWhile (· ≠ 'e') ++ letter :: exponentChars true 2 ((readInt32? exponent).getD 0)

/-- Digits with a fraction, if need be a zero. -/
def withFraction (cs : List Char) : List Char := if '.' ∈ cs then cs else cs ++ ['.', '0']

/-- Whether a magnitude is outside of the numbers from `1e-4` to below `1e16`, as doubles. -/
def isOutside (x : Binary64) : Bool :=
  !x.abs.numEq (zero false) && (x.abs.numLt (ofDecimal false 1 (-4)) || !x.abs.numLt (ofDecimal false 1 16))

/-- A number as it is edited for a name: scientific notation with its exponent signed, or plain digits
with a fraction. -/
def edited (x : Binary64) : List Char :=
  if isOutside x then signExponent (scientific.chars x) else withFraction (plain.chars x)

variable {x : Binary64}

theorem isOutside_iff (finite : x.isFinite = true) :
    isOutside x = true ↔
      x.magnitude ≠ 0 ∧ (x.magnitude < 10 ^ (-4 : ℤ) ∨ 10 ^ (16 : ℤ) ≤ x.magnitude) := by
  have low := numLt_abs_iff finite (isFinite_of_units NearPower.neg_four.nonzero)
  have high := numLt_abs_iff finite (isFinite_of_units NearPower.sixteen.nonzero)
  rw [← NearPower.neg_four.magnitude_lt_iff finite] at low
  rw [← NearPower.sixteen.magnitude_lt_iff finite] at high
  have isLow : (ofDecimal false 1 (-4)).abs = ofDecimal false 1 (-4) := by decide +kernel
  have isHigh : (ofDecimal false 1 16).abs = ofDecimal false 1 16 := by decide +kernel
  rw [isLow] at low
  rw [isHigh] at high
  rw [isOutside, Bool.and_eq_true, Bool.or_eq_true, Bool.not_eq_true', Bool.not_eq_true', ← Bool.not_eq_true,
    ← Bool.not_eq_true, numEq_zero_iff finite, magnitude_ne_zero_iff, low, high, not_lt]

/-- A name is positional for the magnitudes that are not outside. -/
theorem name_positional_iff (nonzero : x.units ≠ 0) :
    name.positional (scientificExponent (shortest .up x)) = true ↔ isOutside x = false := by
  have low := NearPower.neg_four.scientificExponent_lt_iff nonzero
  have high := NearPower.sixteen.scientificExponent_lt_iff nonzero
  rw [← Bool.not_eq_true, isOutside_iff (isFinite_of_units nonzero), ← low, ← not_lt, ← high,
    and_iff_right (magnitude_ne_zero_iff.2 nonzero)]
  simp only [name, Bool.and_eq_true, decide_eq_true_eq]
  omega

/-! ## Texts -/

theorem chars_eq (layout : Layout) (finite : x.isFinite = true) :
    layout.chars x = (if x.isNegative then ['-'] else []) ++ layout.decimalChars (shortest layout.tie x) := by
  obtain ⟨negative, m, p, canonical, rfl⟩ := exists_eq_finite finite
  rfl

theorem not_mem_sign {c : Char} (other : c ≠ '-') (negative : Bool) :
    c ∉ (if negative then ['-'] else []) := by
  cases negative <;> simp [other]

/-- Inside, a name writes its digits positionally. -/
theorem name_chars_inside (finite : x.isFinite = true) (inside : isOutside x = false) :
    name.chars x = (if x.isNegative then ['-'] else []) ++ positionalChars true (shortest .up x) := by
  rw [chars_eq name finite]
  refine congrArg _ (if_pos ?_)
  by_cases zero : x.units = 0
  · exact .inl (by rw [shortest_of_units_eq_zero zero])
  · exact .inr ((name_positional_iff zero).2 inside)

/-- The exponent of a double in scientific notation has few digits. -/
theorem scientificExponent_bounds (tie : DecimalTie) (nonzero : x.units ≠ 0) :
    -331 ≤ scientificExponent (shortest tie x) ∧ scientificExponent (shortest tie x) ≤ 310 := by
  have readsBack := ofDecimal_of_neighbour? (exists_neighbour_shortest tie nonzero).2
  rw [← units_abs, ← readsBack] at nonzero
  obtain ⟨-, notSmall, notLarge⟩ := decimal_bounds nonzero
  have isLength : (natChars (shortest tie x).digits).length = decimalLength (shortest tie x).digits := rfl
  rw [scientificExponent, isLength]
  omega

/-- Outside, it writes a significand, a letter and an exponent, and so does scientific notation. -/
theorem name_chars_outside (finite : x.isFinite = true) (outside : isOutside x = true) :
    ∃ significand k, 'e' ∉ significand ∧ -331 ≤ k ∧ k ≤ 310 ∧
      name.chars x = significand ++ 'e' :: exponentChars true 2 k ∧
      scientific.chars x = significand ++ 'e' :: exponentChars false 1 k := by
  have nonzero := magnitude_ne_zero_iff.1 ((isOutside_iff finite).1 outside).1
  obtain ⟨least, most⟩ := scientificExponent_bounds .up nonzero
  obtain ⟨significand, noLetter, written⟩ := exists_significand (shortest .up x)
  have someDigits : (shortest .up x).digits ≠ 0 := shortest_digits_ne_zero nonzero
  have notPositional : ¬ name.positional (scientificExponent (shortest .up x)) = true := by
    rw [name_positional_iff nonzero, outside]
    exact Bool.noConfusion
  refine ⟨(if x.isNegative then ['-'] else []) ++ significand, scientificExponent (shortest .up x), ?_, least,
    most, ?_, ?_⟩
  · rw [List.mem_append, not_or]
    exact ⟨not_mem_sign (by decide) x.isNegative, noLetter⟩
  · rw [chars_eq name finite, List.append_assoc]
    refine congrArg _ (Eq.trans (if_neg (not_or.2 ⟨someDigits, notPositional⟩)) (written name _))
  · rw [chars_eq scientific finite, List.append_assoc]
    refine congrArg _ (Eq.trans (if_neg (not_or.2 ⟨someDigits, Bool.false_ne_true⟩)) (written scientific _))

/-- The letter of an exponent is there for what is outside. -/
theorem letter_mem_name_chars_iff (finite : x.isFinite = true) : 'e' ∈ name.chars x ↔ isOutside x = true := by
  cases outside : isOutside x with
  | true =>
      obtain ⟨significand, k, -, -, -, written, -⟩ := name_chars_outside finite outside
      rw [written, iff_true_right rfl]
      exact List.mem_append_right _ List.mem_cons_self
  | false =>
      rw [name_chars_inside finite outside, iff_false_right Bool.false_ne_true, List.mem_append, not_or]
      exact ⟨not_mem_sign (by decide) x.isNegative, letter_not_mem_positionalChars true _⟩

theorem withFraction_positionalChars (d : Decimal) :
    withFraction (positionalChars false d) = positionalChars true d := by
  have point : '.' ∈ positionalChars false d ↔ d.exponent < 0 ∨ false = true := point_mem_positionalChars_iff
  by_cases isFraction : d.exponent < 0
  · rw [withFraction, if_pos (point.2 (.inl isFraction))]
    simp [positionalChars, Int.not_le.2 isFraction]
  · rw [withFraction, if_neg (by simp [point, isFraction])]
    simp [positionalChars, Int.not_lt.1 isFraction]

theorem withFraction_append {before : List Char} (noPoint : '.' ∉ before) (cs : List Char) :
    withFraction (before ++ cs) = before ++ withFraction cs := by
  unfold withFraction
  by_cases hasPoint : '.' ∈ cs <;> simp [hasPoint, noPoint]

theorem signExponent_append {significand : List Char} (noLetter : 'e' ∉ significand) {exponent : List Char}
    {k : ℤ} (read : readInt32? exponent = some k) :
    signExponent (significand ++ 'e' :: exponent) = significand ++ 'e' :: exponentChars true 2 k := by
  have before : ∀ c ∈ significand, (c ≠ 'e' : Bool) = true := by
    intro c member
    rw [decide_eq_true_eq]
    rintro rfl
    exact noLetter member
  rw [signExponent, List.dropWhile_append_of_pos before, List.takeWhile_append_of_pos before]
  simp [read]

/-- **A name shows a finite number as it is edited** from scientific notation or from plain digits. -/
theorem name_chars_eq_edited (finite : x.isFinite = true) : name.chars x = edited x := by
  unfold edited
  cases outside : isOutside x with
  | true =>
      obtain ⟨significand, k, noLetter, least, most, written, written'⟩ := name_chars_outside finite outside
      have read : readInt32? (exponentChars false 1 k) = some k := by
        rw [readInt32?, readSigned?_exponentChars, Option.filter_some, if_pos]
        rw [decide_eq_true_eq]
        omega
      rw [if_pos rfl, written, written', signExponent_append noLetter read]
  | false =>
      have plainDigits : plain.chars x =
          (if x.isNegative then ['-'] else []) ++ positionalChars false (shortest .up x) := by
        rw [chars_eq plain finite]
        exact congrArg _ (if_pos (.inr rfl))
      have noPoint := not_mem_sign (show '.' ≠ '-' by decide) x.isNegative
      rw [if_neg Bool.false_ne_true, plainDigits, withFraction_append noPoint, withFraction_positionalChars,
        name_chars_inside finite outside]

/-- What a name shows of a finite number. -/
structure ShowsNumber (x : Binary64) (shown : String) : Prop where
  /-- It denotes the same decimal number as plain digits. -/
  denotes : ∃ q, denoted? (plain.text x) = some q ∧ denoted? shown = some q
  readsBack : ofText? shown = some x
  marked : '.' ∈ shown.toList ∨ 'e' ∈ shown.toList
  /-- There is an exponent for very small and very large magnitudes. -/
  exponent_iff : 'e' ∈ shown.toList ↔
    x.magnitude ≠ 0 ∧ (x.magnitude < 1 / 10 ^ 4 ∨ 10 ^ 16 ≤ x.magnitude)
  /-- It has a sign and at least two digits. -/
  exponent : 'e' ∈ shown.toList → ∃ significand sign digits,
    shown.toList = significand ++ 'e' :: sign :: digits ∧ 'e' ∉ significand ∧ (sign = '-' ∨ sign = '+') ∧
      2 ≤ digits.length ∧ ∀ c ∈ digits, c.isDigit = true
  /-- It is edited from scientific notation or from plain digits. -/
  isEdited : shown = String.ofList (edited x)

/-- **Names show every finite number exactly**, marked as a number with a fraction or an exponent. -/
theorem name_text_showsNumber (finite : x.isFinite = true) : ShowsNumber x (name.text x) where
  denotes := ⟨_, denoted?_text plain finite, denoted?_text name finite⟩
  readsBack := by
    rw [ofText?, text, String.toList_ofList]
    exact ofChars?_chars name finite
  marked := by
    rw [text, String.toList_ofList, letter_mem_name_chars_iff finite]
    cases outside : isOutside x with
    | true => exact .inr rfl
    | false =>
        rw [name_chars_inside finite outside]
        exact .inl (List.mem_append_right _ (point_mem_positionalChars_iff.2 (.inr rfl)))
  exponent_iff := by
    have low : (10 : ℚ) ^ (-4 : ℤ) = 1 / 10 ^ 4 := by norm_num
    have high : (10 : ℚ) ^ (16 : ℤ) = 10 ^ 16 := by norm_num
    rw [text, String.toList_ofList, letter_mem_name_chars_iff finite, isOutside_iff finite, low, high]
  exponent := by
    rw [text, String.toList_ofList, letter_mem_name_chars_iff finite]
    intro outside
    obtain ⟨significand, k, noLetter, -, -, written, -⟩ := name_chars_outside finite outside
    obtain ⟨sign, digits, exponent, isSign, many, areDigits⟩ := exists_signed_exponent k
    rw [exponent] at written
    exact ⟨significand, sign, digits, written, noLetter, isSign, many, areDigits⟩
  isEdited := by rw [text, name_chars_eq_edited finite]

/-- A small number is shown with a signed exponent of two digits. -/
theorem name_text_showsNumber_small :
    (ofDecimal false 15 (-6)).isFinite = true ∧ name.text (ofDecimal false 15 (-6)) = "1.5e-05" ∧
      ShowsNumber (ofDecimal false 15 (-6)) "1.5e-05" := by
  have finite : (ofDecimal false 15 (-6)).isFinite = true := by decide +kernel
  have written : name.text (ofDecimal false 15 (-6)) = "1.5e-05" := by decide +kernel
  have shows := name_text_showsNumber finite
  rw [written] at shows
  exact ⟨finite, written, shows⟩

end Layout

end PartCatalog
