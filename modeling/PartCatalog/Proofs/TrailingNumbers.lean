/-
# Trailing numbers -- which choices have a size, and what it is

A choice has a size if it is a beginning without digits and a number up to its end (`Split`).  The
beginning may hold anything else, points and ends of line among it, but the first digit ends it, and
the first character behind it that is no digit ends the whole part of the number; so there is one
split (`Split.unique`).  This is what the pattern of sizes says, part by part
(`takes_choicePattern_iff`), and the group that a search for it finds is the number of the split
(`captured_choicePattern`).

Such a number can always be read, and what is read is the double nearest to it (`Split.readsAs`).
So the size of a choice is told by its split and the exact value of the number alone
(`size?_eq_some_iff_isNearest`), and `trailing_number_read` puts all of this together.
-/
import PartCatalog.Proofs.ChoiceSizes
import PartCatalog.Proofs.NearestDoubles
import PartCatalog.Proofs.Patterns

set_option autoImplicit false

namespace PartCatalog.ChoiceOrder

open Binary64

/-! ## Splits -/

/-- A fraction with the point before it, or nothing. -/
def fractionChars : Option (List Char) → List Char
  | none => []
  | some fraction => '.' :: fraction

theorem fractionChars_injective {fraction? fraction?' : Option (List Char)}
    (same : fractionChars fraction? = fractionChars fraction?') : fraction? = fraction?' := by
  cases fraction? <;> cases fraction?' <;> simp_all [fractionChars]

/-- A choice as a beginning without digits and a number up to its end. -/
structure Split (choice : String) where
  before : List Char
  digits : List Char
  fraction? : Option (List Char)
  noDigits : ∀ c ∈ before, c.isDigit = false
  someDigits : digits ≠ []
  areDigits : ∀ c ∈ digits ++ fraction?.getD [], c.isDigit = true
  written : choice.toList = before ++ (digits ++ fractionChars fraction?)

namespace Split

variable {choice : String}

/-- The characters of the number. -/
def number (split : Split choice) : List Char := split.digits ++ fractionChars split.fraction?

/-- What the number amounts to: its digits, and those behind the point in their places. -/
def value (split : Split choice) : ℚ :=
  Nat.ofDigitChars 10 split.digits 0 +
    Nat.ofDigitChars 10 (split.fraction?.getD []) 0 / 10 ^ (split.fraction?.getD []).length

/-- The same as all digits and an exponent. -/
def decimal (split : Split choice) : Decimal :=
  ⟨digitsValue (split.digits ++ split.fraction?.getD []), -((split.fraction?.getD []).length : Int)⟩

theorem value_decimal (split : Split choice) : split.decimal.value = split.value := by
  have digits : ∀ ds, digitsValue ds = Nat.ofDigitChars 10 ds 0 := fun _ => rfl
  rw [decimal, Decimal.value, value]
  generalize split.fraction?.getD [] = fraction
  rw [digits, Nat.ofDigitChars_append, Nat.ofDigitChars_eq_ofDigitChars_zero, zpow_neg, zpow_natCast]
  push_cast
  field_simp

theorem ofDigitChars_le_value (split : Split choice) : (Nat.ofDigitChars 10 split.digits 0 : ℚ) ≤ split.value := by
  unfold value
  exact le_add_of_nonneg_right (by positivity)

theorem wholeDigits (split : Split choice) : ∀ c ∈ split.digits, c.isDigit = true := fun c member =>
  split.areDigits c (List.mem_append_left _ member)

/-- **The number reads** as the double of its decimal. -/
theorem ofChars?_number (split : Split choice) :
    ofChars? split.number = some (ofDecimal false split.decimal.digits split.decimal.exponent) := by
  obtain ⟨before, digits, fraction?, noDigits, someDigits, areDigits, written⟩ := split
  cases fraction? with
  | none =>
      rw [Option.getD_none, List.append_nil] at areDigits
      simp only [number, decimal, fractionChars, Option.getD_none, List.append_nil]
      exact ofChars?_whole someDigits areDigits
  | some fraction => exact ofChars?_pointed someDigits areDigits

theorem hasSize (split : Split choice) :
    HasSize choice (ofDecimal false split.decimal.digits split.decimal.exponent) := by
  obtain ⟨before, digits, fraction?, noDigits, someDigits, areDigits, written⟩ := split
  cases fraction? with
  | none =>
      rw [Option.getD_none, List.append_nil] at areDigits
      rw [fractionChars, List.append_nil] at written
      simp only [decimal, Option.getD_none, List.append_nil]
      exact .whole written noDigits someDigits areDigits
  | some fraction => exact .pointed written noDigits someDigits areDigits

/-- The number is what is left without the beginning. -/
theorem dropWhile_eq (split : Split choice) : choice.toList.dropWhile (fun c => !c.isDigit) = split.number := by
  rw [split.written]
  exact dropWhile_beginning split.noDigits split.someDigits split.wholeDigits _

/-- Its parts are told apart by the first character that is no digit. -/
theorem span_number (split : Split choice) :
    split.number.takeWhile Char.isDigit = split.digits ∧
      split.number.dropWhile Char.isDigit = fractionChars split.fraction? := by
  refine span_digits split.wholeDigits ?_
  cases split.fraction? with
  | none => exact endsDigits_nil
  | some fraction => exact endsDigits_point fraction

/-- **There is one split.** -/
theorem unique (split split' : Split choice) : split = split' := by
  have sameNumber : split.number = split'.number := split.dropWhile_eq.symm.trans split'.dropWhile_eq
  have sameBefore : split.before = split'.before := by
    have written : split.before ++ split.number = split'.before ++ split'.number :=
      split.written.symm.trans split'.written
    rw [sameNumber] at written
    exact List.append_cancel_right written
  have sameDigits : split.digits = split'.digits := by
    rw [← split.span_number.1, ← split'.span_number.1, sameNumber]
  have sameFraction : split.fraction? = split'.fraction? := by
    apply fractionChars_injective
    rw [← split.span_number.2, ← split'.span_number.2, sameNumber]
  cases split
  cases split'
  congr

end Split

/-- A choice that has a size can be split. -/
theorem HasSize.nonempty_split {choice : String} {x : Binary64} (hasSize : HasSize choice x) :
    Nonempty (Split choice) := by
  cases hasSize with
  | @whole before digits written noDigits someDigits areDigits =>
      refine ⟨before, digits, none, noDigits, someDigits, ?_, ?_⟩
      · simpa using areDigits
      · simpa [fractionChars] using written
  | @pointed before digits fraction written noDigits someDigits areDigits =>
      exact ⟨before, digits, some fraction, noDigits, someDigits, areDigits, written⟩

/-! ## The pattern -/

/-- Digits, then perhaps a point and any digits. -/
def numberPattern : Pattern :=
  .seq (.seq (.one Char.isDigit) (.many Char.isDigit)) (.optional (.seq (.one (· = '.')) (.many Char.isDigit)))

/-- No digits, then a number, which is the first group. -/
def choicePattern : Pattern := .seq (.many fun c => !c.isDigit) (.group 1 numberPattern)

open Pattern

theorem takes_numberPattern_iff {cs : List Char} {g : Groups} :
    numberPattern.Takes cs g ↔ g = [] ∧ ∃ digits fraction?, digits ≠ [] ∧
      (∀ c ∈ digits ++ fraction?.getD [], c.isDigit = true) ∧ cs = digits ++ fractionChars fraction? := by
  constructor
  · intro takes
    obtain ⟨_, rest, _, _, takesDigits, takesRest, rfl, rfl⟩ := takes_seq_iff.1 takes
    obtain ⟨_, more, _, _, takesFirst, takesMore, rfl, rfl⟩ := takes_seq_iff.1 takesDigits
    obtain ⟨first, isFirst, rfl, rfl⟩ := takes_one_iff.1 takesFirst
    obtain ⟨areMore, rfl⟩ := takes_many_iff.1 takesMore
    have areDigits : ∀ c ∈ [first] ++ more, c.isDigit = true := List.forall_mem_cons.2 ⟨isFirst, areMore⟩
    rcases takes_optional_iff.1 takesRest with ⟨rfl, rfl⟩ | takesFraction
    · refine ⟨rfl, _, none, List.cons_ne_nil _ _, ?_, rfl⟩
      rwa [Option.getD_none, List.append_nil]
    · obtain ⟨_, places, _, _, takesPoint, takesPlaces, rfl, rfl⟩ := takes_seq_iff.1 takesFraction
      obtain ⟨point, isPoint, rfl, rfl⟩ := takes_one_iff.1 takesPoint
      obtain ⟨arePlaces, rfl⟩ := takes_many_iff.1 takesPlaces
      obtain rfl := of_decide_eq_true isPoint
      exact ⟨rfl, _, some places, List.cons_ne_nil _ _, List.forall_mem_append.2 ⟨areDigits, arePlaces⟩, rfl⟩
  · rintro ⟨rfl, digits, fraction?, someDigits, areDigits, rfl⟩
    obtain ⟨wholeDigits, arePlaces⟩ := List.forall_mem_append.1 areDigits
    obtain ⟨first, more, rfl⟩ := List.exists_cons_of_ne_nil someDigits
    obtain ⟨isFirst, areMore⟩ := List.forall_mem_cons.1 wholeDigits
    have takesDigits := Takes.seq (.one isFirst) (.many areMore)
    cases fraction? with
    | none => exact .seq takesDigits .absent
    | some places => exact .seq takesDigits (.present (.seq (.one rfl) (.many arePlaces)))

/-- **What the pattern says of a choice** is that it can be split. -/
theorem takes_choicePattern_iff {choice : String} {g : Groups} :
    choicePattern.Takes choice.toList g ↔ ∃ split : Split choice, g = [(1, split.number)] := by
  constructor
  · intro takes
    obtain ⟨before, number, _, _, takesBefore, takesGroup, isText, rfl⟩ := takes_seq_iff.1 takes
    obtain ⟨noDigits, rfl⟩ := takes_many_iff.1 takesBefore
    obtain ⟨_, takesNumber, rfl⟩ := takes_group_iff.1 takesGroup
    obtain ⟨rfl, digits, fraction?, someDigits, areDigits, rfl⟩ := takes_numberPattern_iff.1 takesNumber
    exact ⟨⟨before, digits, fraction?, by simpa using noDigits, someDigits, areDigits, isText⟩, rfl⟩
  · rintro ⟨split, rfl⟩
    have takesNumber : numberPattern.Takes split.number [] :=
      takes_numberPattern_iff.2 ⟨rfl, _, _, split.someDigits, split.areDigits, rfl⟩
    have noDigits : ∀ c ∈ split.before, (!c.isDigit) = true := by simpa using split.noDigits
    rw [split.written]
    exact .seq (.many noDigits) (.group takesNumber)

/-! ## Sizes -/

variable {choice : String}

/-- The search finds the number of the split. -/
theorem captured_choicePattern (split : Split choice) :
    choicePattern.captured 1 choice.toList = some split.number := by
  have unique : ∀ g, choicePattern.Takes choice.toList g → g = [(1, split.number)] := by
    intro g takes
    obtain ⟨split', rfl⟩ := takes_choicePattern_iff.1 takes
    rw [split.unique split']
  rw [captured_of_unique (takes_choicePattern_iff.2 ⟨split, rfl⟩) unique]
  rfl

theorem size?_of_split (split : Split choice) : size? choice = ofChars? split.number := by
  rw [split.ofChars?_number, size?_eq_some_iff]
  exact split.hasSize

theorem isSome_size?_iff : (size? choice).isSome = true ↔ Nonempty (Split choice) := by
  rw [Option.isSome_iff_exists]
  constructor
  · rintro ⟨x, sized⟩
    exact (size?_eq_some_iff.1 sized).nonempty_split
  · rintro ⟨split⟩
    exact ⟨_, (size?_of_split split).trans split.ofChars?_number⟩

/-- A size is the number that the search finds, read. -/
theorem size?_eq_captured (choice : String) :
    size? choice = (choicePattern.captured 1 choice.toList).bind ofChars? := by
  by_cases splits : Nonempty (Split choice)
  · obtain ⟨split⟩ := splits
    rw [captured_choicePattern split, Option.bind_some, size?_of_split split]
  · have noneTaken : ∀ g, ¬ choicePattern.Takes choice.toList g := by
      intro g takes
      obtain ⟨split, -⟩ := takes_choicePattern_iff.1 takes
      exact splits ⟨split⟩
    rw [captured_eq_none noneTaken, Option.bind_none, ← Option.not_isSome_iff_eq_none, isSome_size?_iff]
    exact splits

/-- Whether a number is read as the double nearest to what it amounts to, which is infinite only
where it is too large. -/
structure ReadsAs (number : List Char) (value : ℚ) (x : Binary64) : Prop where
  read : ofChars? number = some x
  nearest : IsNearest value x
  isNumber : x.isNaN = false
  infinite : x = .infinite false ↔ overflow ≤ value

theorem Split.readsAs (split : Split choice) : ∃ x, size? choice = some x ∧ ReadsAs split.number split.value x := by
  have nearest := (isNearest_value_iff split.decimal).2 rfl
  rw [split.value_decimal] at nearest
  have read := split.ofChars?_number
  exact ⟨_, (size?_of_split split).trans read, read, nearest, nearest.isNaN, nearest.eq_infinite_iff⟩

theorem size?_eq_some_iff_isNearest {x : Binary64} :
    size? choice = some x ↔ ∃ split : Split choice, IsNearest split.value x := by
  constructor
  · intro sized
    obtain ⟨split⟩ := (size?_eq_some_iff.1 sized).nonempty_split
    obtain ⟨y, sized', reads⟩ := split.readsAs
    obtain rfl := Option.some.inj (sized.symm.trans sized')
    exact ⟨split, reads.nearest⟩
  · rintro ⟨split, nearest⟩
    obtain ⟨y, sized, reads⟩ := split.readsAs
    rw [sized, nearest.unique reads.nearest]

/-- **Which choices have a size, and what it is.**  A choice has a size exactly if it splits into a
beginning without digits and a number up to its end.  There is one such split; the search for the
pattern finds it, and whatever it finds can be read.  The size is the double nearest to the number,
so it is infinite where the number is too large, and never not-a-number.  By size a list is ordered
exactly if all its choices split. -/
theorem trailing_number_read (choice : String) (choices : List String) :
    size? choice = (choicePattern.captured 1 choice.toList).bind ofChars? ∧
      ((size? choice).isSome = true ↔ Nonempty (Split choice)) ∧
      (∀ split split' : Split choice, split = split') ∧
      (∀ split : Split choice, ∃ x, size? choice = some x ∧ ReadsAs split.number split.value x) ∧
      (∀ x, size? choice = some x ↔ ∃ split : Split choice, IsNearest split.value x) ∧
      (∀ m, choicePattern.whole? choice.toList = some m →
        ∃ number x, m.group? 1 = some number ∧ ofChars? number = some x) ∧
      (Strategy.numerical.applies choices = true ↔ ∀ c ∈ choices, Nonempty (Split c)) := by
  refine ⟨size?_eq_captured choice, isSome_size?_iff, Split.unique, Split.readsAs, fun _ => size?_eq_some_iff_isNearest,
    ?_, ?_⟩
  · intro m found
    obtain ⟨split, isNumber⟩ := takes_choicePattern_iff.1 (takes_of_whole?_eq_some found)
    exact ⟨split.number, _, by rw [Match.group?, isNumber]; rfl, split.ofChars?_number⟩
  · simp only [Strategy.applies, List.all_eq_true, isSome_size?_iff]

namespace Example

/-- A choice with a point, a sign and an end of line before its number, and a point behind. -/
def bolt : Split "a.-\n2." where
  before := ['a', '.', '-', '\n']
  digits := ['2']
  fraction? := some []
  noDigits := by simp
  someDigits := List.cons_ne_nil _ _
  areDigits := List.all_eq_true.1 rfl
  written := by decide

/-- A choice with four hundred digits. -/
def longText : String := String.ofList ('x' :: List.replicate 400 '9')

theorem toList_longText : longText.toList = 'x' :: List.replicate 400 '9' := String.toList_ofList

def huge : Split longText where
  before := ['x']
  digits := List.replicate 400 '9'
  fraction? := none
  noDigits := List.forall_mem_singleton.2 rfl
  someDigits := List.cons_ne_nil _ _
  areDigits := by
    intro c member
    rw [Option.getD_none, List.append_nil] at member
    rw [List.eq_of_mem_replicate member]
    rfl
  written := by rw [toList_longText, fractionChars, List.append_nil, List.singleton_append]

theorem overflow_le_huge : overflow ≤ huge.value := by
  obtain ⟨top, isTop⟩ : ∃ top, top = 1024 := ⟨_, rfl⟩
  have large : 2 ^ top ≤ Nat.ofDigitChars 10 (List.replicate 400 '9') 0 := by
    rw [isTop]
    decide +kernel
  have large : ((2 ^ top : Nat) : ℚ) ≤ Nat.ofDigitChars 10 huge.digits 0 := Nat.cast_le.2 large
  rw [Nat.cast_pow, Nat.cast_ofNat] at large
  calc overflow ≤ 2 ^ 1024 := sub_le_self _ (by positivity)
    _ = 2 ^ top := by rw [isTop]
    _ ≤ Nat.ofDigitChars 10 huge.digits 0 := large
    _ ≤ huge.value := huge.ofDigitChars_le_value

end Example

/-- Points, signs and ends of line may stand before a number, and one too large is infinite. -/
theorem trailing_number_read_bolts :
    (∃ x, size? "a.-\n2." = some x ∧ ReadsAs ['2', '.'] Example.bolt.value x) ∧
      choicePattern.whole? "a.-\n2.".toList = some ⟨"a.-\n2.".toList, [(1, ['2', '.'])], []⟩ ∧
      (∃ x, ofChars? ['2', '.'] = some x) ∧
      size? Example.longText = some (.infinite false) ∧
      Strategy.numerical.applies ["a.-\n2.", Example.longText] = true := by
  obtain ⟨-, -, -, sized, -, found, -⟩ := trailing_number_read "a.-\n2." []
  obtain ⟨-, -, -, sizedLong, -, -, -⟩ := trailing_number_read Example.longText []
  obtain ⟨-, -, -, -, -, -, applies⟩ := trailing_number_read "" ["a.-\n2.", Example.longText]
  have isWhole : choicePattern.whole? "a.-\n2.".toList = some ⟨"a.-\n2.".toList, [(1, ['2', '.'])], []⟩ := by
    decide
  obtain ⟨number, x, isNumber, read⟩ := found _ isWhole
  obtain ⟨y, isSize, reads⟩ := sizedLong Example.huge
  refine ⟨sized Example.bolt, isWhole, ⟨x, ?_⟩, ?_, applies.2 ?_⟩
  · rw [Option.some.inj isNumber]
    exact read
  · rw [isSize, reads.infinite.2 Example.overflow_le_huge]
  · simp only [List.forall_mem_cons, List.not_mem_nil, false_implies, implies_true, and_true]
    exact ⟨⟨Example.bolt⟩, ⟨Example.huge⟩⟩

end PartCatalog.ChoiceOrder
