/-
# Sizes of choices -- the order in which a list of choices is presented

A choice has a size if it is text without digits with a decimal number behind it up to the
very end (`HasSize`), and the reader of sizes finds exactly those (`size?_eq_some_iff`).  The
place of a choice among others is that of its size as a double: a decimal too large for one is
beyond every other number and level with its like, and no size is not-a-number, so sizes of
two choices are always in one of the three relations of numbers (`numericalLe_iff`).  So a list
in which every choice has a size is presented by size, with equal sizes in code point order,
and any other list in code point order; the list is the only thing that counts, and neither
the order it came in nor an earlier sorting does (`sort_presented`).
-/
import PartCatalog.Proofs.ChoiceLaws
import PartCatalog.Proofs.LayoutReading

set_option autoImplicit false

namespace PartCatalog.ChoiceOrder

open Binary64

/-! ## Sizes -/

/-- Whether a choice is text without digits followed by a decimal number, to which `x` is the
nearest double. -/
inductive HasSize (choice : String) : Binary64 → Prop where
  | whole {before digits : List Char} (written : choice.toList = before ++ digits)
      (noDigits : ∀ c ∈ before, c.isDigit = false) (someDigits : digits ≠ [])
      (areDigits : ∀ c ∈ digits, c.isDigit = true) :
      HasSize choice (ofDecimal false (digitsValue digits) 0)
  | pointed {before digits fraction : List Char}
      (written : choice.toList = before ++ (digits ++ '.' :: fraction))
      (noDigits : ∀ c ∈ before, c.isDigit = false) (someDigits : digits ≠ [])
      (areDigits : ∀ c ∈ digits ++ fraction, c.isDigit = true) :
      HasSize choice (ofDecimal false (digitsValue (digits ++ fraction)) (-fraction.length))

/-- A trailing number is digits, alone or with a point and perhaps more digits behind it. -/
theorem isTrailingNumber_iff {cs : List Char} :
    isTrailingNumber cs = true ↔ ∃ digits rest, cs = digits ++ rest ∧ digits ≠ [] ∧
      (∀ c ∈ digits, c.isDigit = true) ∧
      (rest = [] ∨ ∃ fraction, rest = '.' :: fraction ∧ ∀ c ∈ fraction, c.isDigit = true) := by
  constructor
  · intro trailing
    have areDigits : ∀ c ∈ cs.takeWhile Char.isDigit, c.isDigit = true :=
      List.all_eq_true.1 List.all_takeWhile
    have parts : cs = cs.takeWhile Char.isDigit ++ cs.dropWhile Char.isDigit :=
      List.takeWhile_append_dropWhile.symm
    unfold isTrailingNumber at trailing
    split at trailing
    · cases trailing
    · next isRest someDigits =>
      rw [isRest] at parts
      exact ⟨_, [], parts, someDigits, areDigits, .inl rfl⟩
    · next rest isRest someDigits =>
      rw [isRest] at parts
      exact ⟨_, _, parts, someDigits, areDigits, .inr ⟨rest, rfl, List.all_eq_true.1 trailing⟩⟩
    · cases trailing
  · rintro ⟨digits, rest, rfl, someDigits, areDigits, ends⟩
    have endsDigits : EndsDigits rest := by
      rcases ends with rfl | ⟨fraction, rfl, -⟩
      · exact endsDigits_nil
      · exact endsDigits_point fraction
    obtain ⟨taken, dropped⟩ := span_digits areDigits endsDigits
    rw [isTrailingNumber, taken, dropped]
    obtain ⟨first, more, rfl⟩ := List.exists_cons_of_ne_nil someDigits
    rcases ends with rfl | ⟨fraction, rfl, fractionDigits⟩
    · rfl
    · exact List.all_eq_true.2 fractionDigits

/-- What starts with a digit is read as an unsigned decimal. -/
theorem ofChars?_digits {digits : List Char} (rest : List Char) (someDigits : digits ≠ [])
    (areDigits : ∀ c ∈ digits, c.isDigit = true) :
    ofChars? (digits ++ rest) = readDecimal? false (digits ++ rest) := by
  obtain ⟨first, more, rfl⟩ := List.exists_cons_of_ne_nil someDigits
  exact ofChars?_of_digit false (more ++ rest) (areDigits first List.mem_cons_self)

theorem ofChars?_whole {digits : List Char} (someDigits : digits ≠ [])
    (areDigits : ∀ c ∈ digits, c.isDigit = true) :
    ofChars? digits = some (ofDecimal false (digitsValue digits) 0) := by
  have split := splitDecimal_whole areDigits endsDigits_nil (by simp)
  have reads := ofChars?_digits [] someDigits areDigits
  rw [List.append_nil] at split reads
  rw [reads, readDecimal?_of_split false split someDigits rfl, List.append_nil]
  rfl

theorem ofChars?_pointed {digits fraction : List Char} (someDigits : digits ≠ [])
    (areDigits : ∀ c ∈ digits ++ fraction, c.isDigit = true) :
    ofChars? (digits ++ '.' :: fraction) =
      some (ofDecimal false (digitsValue (digits ++ fraction)) (-fraction.length)) := by
  have split := splitDecimal_point areDigits endsDigits_nil
  rw [List.append_nil] at split
  rw [ofChars?_digits _ someDigits fun c member => areDigits c (List.mem_append_left _ member),
    readDecimal?_of_split false split someDigits rfl, Int.zero_sub]
  rfl

/-- The beginning without digits is dropped up to the first digit. -/
theorem dropWhile_beginning {before digits : List Char} (noDigits : ∀ c ∈ before, c.isDigit = false)
    (someDigits : digits ≠ []) (areDigits : ∀ c ∈ digits, c.isDigit = true) (rest : List Char) :
    (before ++ (digits ++ rest)).dropWhile (fun c => !c.isDigit) = digits ++ rest := by
  have dropped : ∀ c ∈ before, (!c.isDigit) = true := fun c member => by simp [noDigits c member]
  rw [List.dropWhile_append_of_pos dropped]
  obtain ⟨first, more, rfl⟩ := List.exists_cons_of_ne_nil someDigits
  simp [areDigits first List.mem_cons_self]

/-- **The reader of sizes** finds a size exactly where there is one, and that one. -/
theorem size?_eq_some_iff {choice : String} {x : Binary64} : size? choice = some x ↔ HasSize choice x := by
  constructor
  · intro read
    unfold size? at read
    dsimp only at read
    split at read
    · next trailing =>
      obtain ⟨digits, rest, isTail, someDigits, areDigits, ends⟩ := isTrailingNumber_iff.1 trailing
      have written : choice.toList = choice.toList.takeWhile (fun c => !c.isDigit) ++ (digits ++ rest) := by
        rw [← isTail, List.takeWhile_append_dropWhile]
      have noDigits : ∀ c ∈ choice.toList.takeWhile (fun c => !c.isDigit), c.isDigit = false := by
        intro c member
        simpa using List.all_eq_true.1 List.all_takeWhile c member
      rw [isTail] at read
      rcases ends with rfl | ⟨fraction, rfl, fractionDigits⟩
      · rw [List.append_nil] at read written
        rw [ofChars?_whole someDigits areDigits] at read
        cases read
        exact .whole written noDigits someDigits areDigits
      · have allDigits := List.forall_mem_append.2 ⟨areDigits, fractionDigits⟩
        rw [ofChars?_pointed someDigits allDigits] at read
        cases read
        exact .pointed written noDigits someDigits allDigits
    · cases read
  · intro hasSize
    cases hasSize with
    | @whole before digits written noDigits someDigits areDigits =>
        have isTail : (before ++ digits).dropWhile (fun c => !c.isDigit) = digits := by
          have dropped := dropWhile_beginning noDigits someDigits areDigits []
          rwa [List.append_nil] at dropped
        have trailing : isTrailingNumber digits = true :=
          isTrailingNumber_iff.2 ⟨digits, [], (List.append_nil _).symm, someDigits, areDigits, .inl rfl⟩
        rw [size?, written, isTail, if_pos trailing]
        exact ofChars?_whole someDigits areDigits
    | @pointed before digits fraction written noDigits someDigits areDigits =>
        obtain ⟨wholeDigits, fractionDigits⟩ := List.forall_mem_append.1 areDigits
        have trailing : isTrailingNumber (digits ++ '.' :: fraction) = true :=
          isTrailingNumber_iff.2
            ⟨digits, _, rfl, someDigits, wholeDigits, .inr ⟨fraction, rfl, fractionDigits⟩⟩
        rw [size?, written, dropWhile_beginning noDigits someDigits wholeDigits _, if_pos trailing]
        exact ofChars?_pointed someDigits areDigits

/-! ## The order by size -/

variable {a b : String} {x y : Binary64}

/-- A size is a number. -/
theorem HasSize.isNaN (hasSize : HasSize a x) : x.isNaN = false := by
  have number : ∀ digits e, (ofDecimal false digits e).isNaN = false := by
    intro digits e
    obtain ⟨significand, scale, packed⟩ := exists_pack_of_ofDecimal digits e
    rw [packed, isNaN_pack]
  cases hasSize with
  | whole => exact number _ _
  | pointed => exact number _ _

/-- Of two choices with sizes the smaller comes first, and of equal sizes the smaller text. -/
theorem numericalLe_iff (sizeA : HasSize a x) (sizeB : HasSize b y) :
    numericalLe a b = true ↔ x.numLt y = true ∨ (x.numEq y = true ∧ a ≤ b) := by
  have rankA : sizeRank a = x.rank := by rw [sizeRank, size?_eq_some_iff.2 sizeA, Option.getD_some]
  have rankB : sizeRank b = y.rank := by rw [sizeRank, size?_eq_some_iff.2 sizeB, Option.getD_some]
  have less : x.numLt y = true ↔ x.rank < y.rank := by simp [numLt, sizeA.isNaN, sizeB.isNaN]
  have equal : x.numEq y = true ↔ x.rank = y.rank := by simp [numEq, sizeA.isNaN, sizeB.isNaN]
  rw [less, equal, numericalLe, rankA, rankB]
  by_cases below : x.rank < y.rank
  · simp [below]
  · by_cases above : y.rank < x.rank
    · simp [below, above, Int.ne_of_gt above]
    · have level : x.rank = y.rank := by omega
      simp [level]

/-- Whether two choices with sizes stand in the order of their sizes, and in code point order if
the sizes are equal. -/
def BySize (a b : String) : Prop :=
  ∃ x y, HasSize a x ∧ HasSize b y ∧ (x.numLt y = true ∨ (x.numEq y = true ∧ a ≤ b))

theorem strategy_eq_numerical_iff {choices : List String} :
    strategy choices = .numerical ↔ ∀ c ∈ choices, ∃ x, HasSize c x := by
  have applies : Strategy.numerical.applies choices = true ↔ ∀ c ∈ choices, ∃ x, HasSize c x := by
    simp only [Strategy.applies, List.all_eq_true, Option.isSome_iff_exists, size?_eq_some_iff]
  rw [← applies, strategy]
  split <;> simp_all

theorem pairwise_sort (choices : List String) :
    (sort choices).Pairwise fun a b => (strategy choices).le a b = true :=
  List.pairwise_mergeSort (strategy choices).le_trans (strategy choices).le_total choices

/-- **A list of choices is presented by size, if every choice has one, and else in code point
order.**  It is the same list whatever order it came in, so sorting it again changes nothing. -/
theorem sort_presented (choices : List String) :
    (sort choices).Perm choices ∧
      ((∀ c ∈ choices, ∃ x, HasSize c x) → (sort choices).Pairwise BySize) ∧
      ((¬ ∀ c ∈ choices, ∃ x, HasSize c x) → (sort choices).Pairwise (· ≤ ·)) ∧
      (∀ others, choices.Perm others → sort others = sort choices) ∧
      sort (sort choices) = sort choices := by
  refine ⟨sort_perm choices, fun sized => ?_, fun unsized => ?_, fun others perm => ?_, sort_sort choices⟩
  · have ordered := pairwise_sort choices
    rw [strategy_eq_numerical_iff.2 sized] at ordered
    refine ordered.imp_of_mem fun {a b} memberA memberB isLe => ?_
    obtain ⟨x, sizeA⟩ := sized a (mem_sort.1 memberA)
    obtain ⟨y, sizeB⟩ := sized b (mem_sort.1 memberB)
    exact ⟨x, y, sizeA, sizeB, (numericalLe_iff sizeA sizeB).1 isLe⟩
  · have isAlphabetical : strategy choices = .alphabetical := by
      cases isStrategy : strategy choices with
      | numerical => exact absurd (strategy_eq_numerical_iff.1 isStrategy) unsized
      | alphabetical => rfl
    have ordered := pairwise_sort choices
    rw [isAlphabetical] at ordered
    exact ordered.imp fun isLe => of_decide_eq_true isLe
  · exact (sort_eq_of_perm perm).symm

/-- Screw sizes stand by size in either order, and a list with a word among them as it is spelt. -/
theorem sort_presented_screws :
    (∀ c ∈ ["M10", "M2.5"], ∃ x, HasSize c x) ∧ (sort ["M10", "M2.5"]).Pairwise BySize ∧
      ["M10", "M2.5"].Perm ["M2.5", "M10"] ∧ sort ["M2.5", "M10"] = sort ["M10", "M2.5"] ∧
      (¬ ∀ c ∈ ["M10", "large"], ∃ x, HasSize c x) ∧ (sort ["M10", "large"]).Pairwise (· ≤ ·) := by
  have sized : ∀ c ∈ ["M10", "M2.5"], ∃ x, HasSize c x := by
    simp only [List.forall_mem_cons, List.not_mem_nil, false_implies, implies_true, and_true]
    have ten : "M10".toList = ['M'] ++ ['1', '0'] := rfl
    have half : "M2.5".toList = ['M'] ++ (['2'] ++ '.' :: ['5']) := rfl
    have noDigits : ∀ c ∈ ['M'], c.isDigit = false := List.forall_mem_singleton.2 rfl
    have tenDigits : ∀ c ∈ ['1', '0'], c.isDigit = true := List.all_eq_true.1 rfl
    have halfDigits : ∀ c ∈ ['2'] ++ ['5'], c.isDigit = true := List.all_eq_true.1 rfl
    exact ⟨⟨_, .whole ten noDigits (List.cons_ne_nil _ _) tenDigits⟩,
      ⟨_, .pointed half noDigits (List.cons_ne_nil _ _) halfDigits⟩⟩
  have unsized : ¬ ∀ c ∈ ["M10", "large"], ∃ x, HasSize c x := by
    intro sized
    obtain ⟨x, hasSize⟩ := sized "large" (by decide)
    have unread : size? "large" = none := by decide
    rw [size?_eq_some_iff.2 hasSize] at unread
    cases unread
  have swapped : ["M10", "M2.5"].Perm ["M2.5", "M10"] := List.Perm.swap ..
  obtain ⟨-, bySize, -, sameList, -⟩ := sort_presented ["M10", "M2.5"]
  obtain ⟨-, -, byText, -, -⟩ := sort_presented ["M10", "large"]
  exact ⟨sized, bySize sized, swapped, sameList _ swapped, unsized, byText unsized⟩

end PartCatalog.ChoiceOrder
