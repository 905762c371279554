/-
# Number texts -- when a scalar is the same text as a key and as a value

A row key is the text of its node, and a value is looked up by its display.  Both write a
number with the fewest digits that read back, but a document keeps a fraction on a whole
number and may write an exponent, and plain digits do neither; and of two shortest decimals
at equal distance a document takes the even one, where plain digits take the upper.
`Node.KeepsText` leaves these cases out, and `Value.display_ofNode_eq_text_iff` says that
nothing else tells a key from a value.

Of the search for the shortest digits this takes only that its grid does not depend on the
tie rule (`shortest_exponent`).  That an integer below `2 ^ 53` keeps its text
(`Node.keepsText_int`) takes more: the search comes to the grid of the natural numbers,
where the integer itself reads back, and on no coarser grid does anything else.
-/
import PartCatalog.Value
import PartCatalog.Proofs.Rounding

set_option autoImplicit false

namespace PartCatalog

/-! ## Digits -/

theorem isDigit_of_mem_natChars {n : Nat} {c : Char} (member : c ∈ natChars n) : c.isDigit = true :=
  Nat.isDigit_of_mem_toDigits (by decide) (by decide) member

theorem point_not_mem_natChars (n : Nat) : '.' ∉ natChars n := fun member =>
  absurd (isDigit_of_mem_natChars member) (by decide)

theorem mem_intChars {n : Int} {c : Char} (member : c ∈ intChars n) : c.isDigit = true ∨ c = '-' := by
  unfold intChars at member
  split at member
  · exact (List.mem_cons.1 member).elim .inr fun digits => .inl (isDigit_of_mem_natChars digits)
  · exact .inl (isDigit_of_mem_natChars member)

/-- The digits of a number denote it. -/
theorem ofDigitChars_natChars (n : Nat) : Nat.ofDigitChars 10 (natChars n) 0 = n :=
  Nat.ofDigitChars_ten_toDigits

theorem natChars_mul_pow {n : Nat} (positive : 0 < n) (k : Nat) :
    natChars (n * 10 ^ k) = natChars n ++ List.replicate k '0' := by
  induction k with
  | zero => simp
  | succ k ih =>
      have shifted : n * 10 ^ (k + 1) = 10 * (n * 10 ^ k) + 0 := by
        rw [Nat.pow_succ, ← Nat.mul_assoc, Nat.mul_comm _ 10, Nat.add_zero]
      have prefixed : 0 < n * 10 ^ k := Nat.mul_pos positive (Nat.pow_pos (by decide))
      rw [shifted, natChars, ← Nat.toDigits_append_toDigits (by decide) prefixed (by decide),
        List.replicate_succ', ← List.append_assoc, ← ih]
      rfl

namespace Binary64

/-! ## Shortest decimals -/

variable {x : Binary64} {e : Int}

/-- A neighbour that is taken reads back. -/
theorem ofDecimal_of_neighbour? {tie : DecimalTie} {d : Nat} (found : neighbour? tie x e = some d) :
    ofDecimal false d e = x := by
  unfold neighbour? at found
  dsimp only at found
  cases tie <;> grind

/-- Whether a grid has a neighbour that reads back is not a matter of the tie rule. -/
theorem neighbour?_eq_none_iff {tie : DecimalTie} :
    neighbour? tie x e = none ↔
      ofDecimal false ((gridRatio x.units e).1 / (gridRatio x.units e).2) e ≠ x ∧
        ofDecimal false ((gridRatio x.units e).1 / (gridRatio x.units e).2 + 1) e ≠ x := by
  unfold neighbour?
  dsimp only
  cases tie <;> grind

theorem searchGrids_exponent (tie tie' : DecimalTie) (x : Binary64) (count : Nat) (e : Int) :
    (searchGrids tie x count e).exponent = (searchGrids tie' x count e).exponent := by
  induction count generalizing e with
  | zero => rfl
  | succ count ih =>
      have same : neighbour? tie x e = none ↔ neighbour? tie' x e = none := by
        rw [neighbour?_eq_none_iff, neighbour?_eq_none_iff]
      unfold searchGrids
      cases found : neighbour? tie x e with
      | none =>
          rw [same.1 found]
          exact ih (e - 1)
      | some d =>
          cases found' : neighbour? tie' x e with
          | none => cases found.symm.trans (same.2 found')
          | some d' => rfl

/-- The grid of the shortest decimal is not a matter of the tie rule. -/
theorem shortest_exponent (tie tie' : DecimalTie) (x : Binary64) :
    (shortest tie x).exponent = (shortest tie' x).exponent := by
  unfold shortest
  split
  · rfl
  · exact searchGrids_exponent tie tie' _ _ _

/-- The search ends with a decimal that reads back, or with all digits. -/
theorem searchGrids_cases (tie : DecimalTie) (x : Binary64) (count : Nat) (e : Int) :
    (∃ d e', neighbour? tie x e' = some d ∧ searchGrids tie x count e = ⟨d, e'⟩) ∨
      searchGrids tie x count e = ⟨x.units * Nat.pow 5 1074, -1074⟩ := by
  induction count generalizing e with
  | zero => exact .inr rfl
  | succ count ih =>
      unfold searchGrids
      cases found : neighbour? tie x e with
      | none => exact ih (e - 1)
      | some d => exact .inl ⟨d, e, found, rfl⟩

theorem units_abs (x : Binary64) : x.abs.units = x.units := by
  cases x <;> rfl

theorem shortest_of_units_eq_zero {tie : DecimalTie} (zero : x.units = 0) : shortest tie x = ⟨0, 0⟩ :=
  if_pos zero

/-- Only what has no magnitude is written without a digit that counts. -/
theorem shortest_digits_ne_zero {tie : DecimalTie} (nonzero : x.units ≠ 0) :
    (shortest tie x).digits ≠ 0 := by
  rw [shortest, if_neg nonzero]
  rcases searchGrids_cases tie x.abs 20 (coarsest x.units) with ⟨d, e, found, searched⟩ | searched
  · rw [searched]
    rintro (rfl : d = 0)
    have readsBack : ofDecimal false 0 e = x.abs := ofDecimal_of_neighbour? found
    have isZero : ofDecimal false 0 e = zero false := by simp [ofDecimal]
    rw [isZero] at readsBack
    exact nonzero (by rw [← units_abs, ← readsBack]; rfl)
  · rw [searched, units_abs]
    refine Nat.mul_ne_zero nonzero ?_
    generalize 1074 = places
    exact Nat.ne_of_gt (Nat.pow_pos (by decide))

theorem shortest_exponent_of_digits {tie : DecimalTie} (zero : (shortest tie x).digits = 0) :
    (shortest tie x).exponent = 0 := by
  by_cases isZero : x.units = 0
  · rw [shortest_of_units_eq_zero isZero]
  · exact absurd zero (shortest_digits_ne_zero isZero)

end Binary64

/-! ## Positional notation -/

/-- Whether a decimal is a natural number. -/
def Decimal.IsNat (d : Decimal) (n : Nat) : Prop :=
  0 ≤ d.exponent ∧ d.digits * 10 ^ d.exponent.toNat = n

instance (d : Decimal) (n : Nat) : Decidable (d.IsNat n) := inferInstanceAs (Decidable (_ ∧ _))

namespace Layout

variable {keeps keeps' : Bool} {d d' : Decimal}

theorem mem_positionalChars {c : Char} (member : c ∈ positionalChars keeps d) :
    c.isDigit = true ∨ c = '.' := by
  have digits : ∀ {c}, c ∈ natChars d.digits → c.isDigit = true := isDigit_of_mem_natChars
  unfold positionalChars at member
  dsimp only at member
  split at member
  · rcases List.mem_append.1 member with inWhole | inFraction
    · rcases List.mem_append.1 inWhole with inDigits | inZeros
      · exact .inl (digits inDigits)
      · rw [List.eq_of_mem_replicate inZeros]
        exact .inl rfl
    · cases keeps <;> simp at inFraction
      rcases inFraction with rfl | rfl <;> simp
  · split at member
    · rcases List.mem_append.1 member with before | rest
      · exact .inl (digits (List.mem_of_mem_take before))
      · rcases List.mem_cons.1 rest with rfl | after
        · exact .inr rfl
        · exact .inl (digits (List.mem_of_mem_drop after))
    · simp only [List.mem_cons, List.mem_append] at member
      rcases member with rfl | rfl | inZeros | inDigits
      · exact .inl rfl
      · exact .inr rfl
      · rw [List.eq_of_mem_replicate inZeros]
        exact .inl rfl
      · exact .inl (digits inDigits)

theorem point_mem_positionalChars_iff :
    '.' ∈ positionalChars keeps d ↔ d.exponent < 0 ∨ keeps = true := by
  have absent := point_not_mem_natChars d.digits
  unfold positionalChars
  dsimp only
  split
  · next whole =>
    cases keeps <;> simp [absent, Int.not_lt.2 whole]
  · next fraction =>
    split <;> simp [Int.not_le.1 fraction]

/-- Without the point, positional notation is the digits after some zeros. -/
theorem filter_positionalChars (keeps : Bool) (fraction : d.exponent < 0) :
    ∃ zeros, (positionalChars keeps d).filter (· ≠ '.') = List.replicate zeros '0' ++ natChars d.digits := by
  have noPoint : ∀ {cs : List Char}, (∀ c ∈ cs, c ∈ natChars d.digits) → cs.filter (· ≠ '.') = cs :=
    fun parts => List.filter_eq_self.2 fun c member => by
      have isDigit : c.isDigit = true := isDigit_of_mem_natChars (parts c member)
      simp only [ne_eq, decide_not, Bool.not_eq_true', decide_eq_false_iff_not]
      rintro rfl
      exact absurd isDigit (by decide)
  unfold positionalChars
  dsimp only
  rw [if_neg (Int.not_le.2 fraction)]
  split
  · refine ⟨0, ?_⟩
    rw [List.filter_append, List.filter_cons_of_neg (by simp), noPoint fun c => List.mem_of_mem_take,
      noPoint fun c => List.mem_of_mem_drop, List.take_append_drop]
    rfl
  · next places =>
    refine ⟨(-d.exponent).toNat - (natChars d.digits).length + 1, ?_⟩
    rw [List.filter_cons_of_pos (by simp), List.filter_cons_of_neg (by simp), List.filter_append,
      noPoint fun c => id, List.replicate_succ]
    simp

/-- Fractions of the same number of places are written alike only if they have the same
digits. -/
theorem positionalChars_inj (fraction : d.exponent < 0) (sameExponent : d.exponent = d'.exponent) :
    positionalChars keeps d = positionalChars keeps' d' ↔ d = d' := by
  constructor
  · intro same
    obtain ⟨zeros, written⟩ := filter_positionalChars keeps fraction
    obtain ⟨zeros', written'⟩ := filter_positionalChars keeps' (sameExponent ▸ fraction)
    have digits := congrArg (Nat.ofDigitChars 10 · 0) (written.symm.trans (same ▸ written'))
    simp only [Nat.ofDigitChars_append, Nat.ofDigitChars_replicate_zero, Nat.mul_zero,
      ofDigitChars_natChars] at digits
    cases d
    cases d'
    simp_all
  · rintro rfl
    unfold positionalChars
    dsimp only
    rw [if_neg (Int.not_le.2 fraction), if_neg (Int.not_le.2 fraction)]

/-- Digits alone are written for a natural number, and for it only. -/
theorem positionalChars_eq_natChars_iff {n : Nat} (whole : d.digits = 0 → d.exponent = 0) :
    positionalChars false d = natChars n ↔ d.IsNat n := by
  have written : 0 ≤ d.exponent → positionalChars false d =
      natChars d.digits ++ List.replicate d.exponent.toNat '0' := by
    intro nonneg
    rw [positionalChars]
    simp [nonneg]
  constructor
  · intro same
    have nonneg : 0 ≤ d.exponent := by
      by_contra fraction
      have point : '.' ∈ positionalChars false d :=
        point_mem_positionalChars_iff.2 (.inl (Int.not_le.1 fraction))
      exact point_not_mem_natChars n (same ▸ point)
    refine ⟨nonneg, ?_⟩
    have denoted := congrArg (Nat.ofDigitChars 10 · 0) ((written nonneg).symm.trans same)
    simp only [Nat.ofDigitChars_append, Nat.ofDigitChars_replicate_zero, ofDigitChars_natChars] at denoted
    rw [Nat.mul_comm, denoted]
  · rintro ⟨nonneg, rfl⟩
    rw [written nonneg]
    rcases Nat.eq_zero_or_pos d.digits with zero | positive
    · simp [zero, whole zero]
    · exact (natChars_mul_pow positive _).symm

end Layout

/-! ## Keys and values -/

/-- Whether a double is the same text as a key and as a value: it has a fraction, no
exponent in documents, and the same shortest digits under both tie rules. -/
def Binary64.KeepsText (x : Binary64) : Prop :=
  let d := shortest .even x
  x.isFinite = true ∧ d.exponent < 0 ∧
    (-5 ≤ Layout.scientificExponent d ∧ Layout.scientificExponent d < 16) ∧ shortest .up x = d

instance (x : Binary64) : Decidable x.KeepsText := inferInstanceAs (Decidable (_ ∧ _ ∧ (_ ∧ _) ∧ _))

/-- Whether a node is the same text as a key and as a value.  Only a number may not be: an
integer is when it is the shortest decimal of the double nearest to it. -/
def Node.KeepsText : Node → Prop
  | .int n => (Binary64.shortest .up (Binary64.ofInt n)).IsNat n.natAbs
  | .float x => x.KeepsText
  | .tagged _ value => value.KeepsText
  | .null | .bool _ | .str _ | .seq _ | .map _ => True

instance Node.decidableKeepsText : DecidablePred Node.KeepsText
  | .int n => inferInstanceAs (Decidable (Decimal.IsNat _ n.natAbs))
  | .float x => inferInstanceAs (Decidable x.KeepsText)
  | .tagged _ value => Node.decidableKeepsText value
  | .null | .bool _ | .str _ | .seq _ | .map _ => isTrue trivial

namespace Layout

open Binary64

theorem plain_decimalChars (d : Decimal) : plain.decimalChars d = positionalChars false d :=
  if_pos (.inr rfl)

theorem document_decimalChars {d : Decimal}
    (inside : -5 ≤ scientificExponent d ∧ scientificExponent d < 16) :
    document.decimalChars d = positionalChars true d := by
  have positional : document.positional (scientificExponent d) = true := by
    simp [document, inside]
  exact if_pos (.inr positional)

theorem exponent_mem_document_decimalChars {d : Decimal} (nonzero : d.digits ≠ 0)
    (outside : ¬ (-5 ≤ scientificExponent d ∧ scientificExponent d < 16)) :
    'e' ∈ document.decimalChars d := by
  have notPositional : ¬ document.positional (scientificExponent d) = true := by
    simpa [document] using outside
  have scientific : document.decimalChars d = document.scientificChars d (scientificExponent d) :=
    if_neg (not_or.2 ⟨nonzero, notPositional⟩)
  rw [scientific, scientificChars]
  exact List.mem_append_right _ List.mem_cons_self

/-- The digits of a number are the same in both layouts exactly where neither the fraction of
a whole number, nor an exponent, nor a tie tells them apart. -/
theorem decimalChars_eq_iff {x : Binary64} :
    plain.decimalChars (shortest .up x) = document.decimalChars (shortest .even x) ↔
      (shortest .even x).exponent < 0 ∧
        (-5 ≤ scientificExponent (shortest .even x) ∧ scientificExponent (shortest .even x) < 16) ∧
        shortest .up x = shortest .even x := by
  have sameGrid := shortest_exponent .up .even x
  have whole : (shortest .even x).digits = 0 → (shortest .even x).exponent = 0 :=
    shortest_exponent_of_digits
  generalize shortest .even x = d at sameGrid whole
  generalize shortest .up x = d' at sameGrid
  rw [plain_decimalChars]
  by_cases inside : -5 ≤ scientificExponent d ∧ scientificExponent d < 16
  · rw [document_decimalChars inside]
    by_cases fraction : d.exponent < 0
    · rw [positionalChars_inj (sameGrid ▸ fraction) sameGrid]
      simp [fraction, inside]
    · -- A whole number keeps a point in a document, and has none in plain digits.
      refine iff_of_false (fun same => ?_) fun fact => fraction fact.1
      have point : '.' ∈ positionalChars true d := point_mem_positionalChars_iff.2 (.inr rfl)
      rw [← same, point_mem_positionalChars_iff, sameGrid] at point
      exact point.elim fraction Bool.noConfusion
  · -- Outside the range a document has an exponent, because zero is inside.
    refine iff_of_false (fun same => ?_) fun fact => inside fact.2.1
    have nonzero : d.digits ≠ 0 := by
      intro zero
      refine inside ?_
      rw [scientificExponent, zero, whole zero]
      decide
    have exponent : 'e' ∈ positionalChars false d' :=
      same ▸ exponent_mem_document_decimalChars nonzero inside
    exact (mem_positionalChars exponent).elim (by decide) (by decide)

theorem text_plain_eq_document_iff {x : Binary64} : plain.text x = document.text x ↔ x.KeepsText := by
  rw [text, text, String.ofList_inj, Binary64.KeepsText]
  cases x with
  | nan => decide
  | infinite negative => cases negative <;> decide
  | finite negative m p h =>
      simp only [chars, List.append_cancel_left_eq, Binary64.isFinite, true_and]
      exact decimalChars_eq_iff

/-- An integer is shown by its digits exactly when the double nearest to it has it as its
shortest decimal. -/
theorem text_plain_ofInt_iff {n : Int} :
    plain.text (ofInt n) = Node.intText n ↔ (shortest .up (ofInt n)).IsNat n.natAbs := by
  have notNaN := isNaN_ofInt n
  have sign := isNegative_ofInt n
  rw [text, Node.intText, String.ofList_inj]
  cases isDouble : ofInt n with
  | nan =>
      rw [isDouble] at notNaN
      cases notNaN
  | infinite negative =>
      refine iff_of_false (fun same => ?_) fun isNat => ?_
      · have letter : 'n' ∈ plain.chars (.infinite negative) := by cases negative <;> decide
        exact (mem_intChars (same ▸ letter)).elim (by decide) (by decide)
      · -- What is shown of an infinity is no integer but zero, which is a double.
        have zero : n.natAbs = 0 := isNat.2.symm
        have finite := (units_ofInt (n := n) (by omega)).1
        rw [isDouble] at finite
        cases finite
  | finite negative m p h =>
      rw [isDouble] at sign
      have isSign : negative = decide (n < 0) := sign
      rw [← positionalChars_eq_natChars_iff shortest_exponent_of_digits, chars, plain_decimalChars,
        intChars]
      by_cases below : n < 0
      · simp only [isSign, below, decide_true, if_true, List.singleton_append, List.cons.injEq, true_and]
        exact Iff.rfl
      · simp only [isSign, below, decide_false, if_false, Bool.false_eq_true, List.nil_append]
        exact Iff.rfl

end Layout

/-- **A node is the same key both ways** exactly when it keeps its text. -/
theorem Value.display_ofNode_eq_text_iff :
    ∀ node : Node, (Value.ofNode node).display = node.text ↔ node.KeepsText
  | .null => by simp [Value.ofNode, Value.display, Node.text, Node.KeepsText]
  | .bool b => by cases b <;> simp [Value.ofNode, Value.display, Node.text, Node.KeepsText]
  | .int n => Layout.text_plain_ofInt_iff
  | .float x => Layout.text_plain_eq_document_iff
  | .str s => by
      by_cases none : s = "None" <;> simp [Value.ofNode, Value.display, Node.text, Node.KeepsText, none]
  | .tagged _ value => display_ofNode_eq_text_iff value
  | .seq _ => by simp [Value.ofNode, Value.display, Node.KeepsText]
  | .map _ => by simp [Value.ofNode, Value.display, Node.KeepsText]

/-! ## Integers that keep their text -/

namespace Binary64

/-- The search stops no later than on a grid it comes to that has a neighbour. -/
theorem exists_searchGrids {tie : DecimalTie} {x : Binary64} {steps count : Nat} {e : Int}
    (within : steps < count) (found : neighbour? tie x (e - steps) ≠ none) :
    ∃ d e', e - steps ≤ e' ∧ neighbour? tie x e' = some d ∧ searchGrids tie x count e = ⟨d, e'⟩ := by
  induction count generalizing steps e with
  | zero => exact absurd within (Nat.not_lt_zero steps)
  | succ count ih =>
      unfold searchGrids
      cases here : neighbour? tie x e with
      | some d => exact ⟨d, e, by omega, here, rfl⟩
      | none =>
          cases steps with
          | zero => simp [here] at found
          | succ steps =>
              have next : e - (steps + 1 : Nat) = e - 1 - steps := by omega
              rw [next] at found ⊢
              exact ih (Nat.lt_of_succ_lt_succ within) found

/-- A decimal without fraction that reads back as a small integer is that integer. -/
theorem digits_of_ofDecimal {n d : Nat} {e : Int} (small : n < 2 ^ 53) (whole : 0 ≤ e)
    (readsBack : ofDecimal false d e = ofInt n) : d * 10 ^ e.toNat = n := by
  have noPlaces : (-e).toNat = 0 := by omega
  rw [ofDecimal_eq_round, noPlaces, Nat.pow_zero] at readsBack
  exact eq_of_round_eq_ofInt small readsBack

theorem decimalLength_le {n : Nat} (small : n < 2 ^ 53) : decimalLength n ≤ 16 :=
  (decimalLength_le_iff (by decide)).2 (Nat.lt_trans small (by decide))

/-- The grid of the natural numbers has a small integer itself as a neighbour. -/
theorem neighbour?_ofInt_ne_none {tie : DecimalTie} {n : Nat} (small : n < 2 ^ 53) :
    neighbour? tie (ofInt n) 0 ≠ none := by
  intro isNone
  have low : (gridRatio (ofInt n).units 0).1 / (gridRatio (ofInt n).units 0).2 = n := by
    have steps := wholePart_ofInt (n := n) small
    rw [wholePart, Int.natAbs_natCast] at steps
    rw [gridRatio, if_pos (Int.le_refl 0)]
    generalize 1074 = k at steps ⊢
    have one : Nat.pow 2 k * Nat.pow 10 (Int.toNat 0) = Nat.pow 2 k := Nat.mul_one _
    rw [one, steps]
  refine (neighbour?_eq_none_iff.1 isNone).1 ?_
  rw [low, ofDecimal_whole, ofInt_natCast]

theorem coarsest_ofInt {n : Nat} (positive : 0 < n) (small : n < 2 ^ 53) :
    coarsest (ofInt n).units = decimalLength n := by
  have steps := wholePart_ofInt (n := n) small
  rw [wholePart, Int.natAbs_natCast] at steps
  rw [coarsest]
  generalize 1074 = k at steps ⊢
  have whole : Nat.pow 2 k ≤ (ofInt n).units := by
    refine Nat.le_of_not_lt fun less => ?_
    rw [Nat.div_eq_of_lt less] at steps
    omega
  rw [if_pos whole, steps]

/-- **An integer of no more than 53 binary digits is the shortest decimal of its double.** -/
theorem shortest_ofInt_isNat {tie : DecimalTie} {n : Int} (small : n.natAbs < 2 ^ 53) :
    (shortest tie (ofInt n)).IsNat n.natAbs := by
  by_cases zero : n = 0
  · rw [shortest_of_units_eq_zero ((units_ofInt_eq_zero_iff small).2 zero), zero]
    exact ⟨Int.le_refl 0, rfl⟩
  · have positive : 0 < n.natAbs := Int.natAbs_pos.2 zero
    have nonzero : (ofInt n).units ≠ 0 := fun none => zero ((units_ofInt_eq_zero_iff small).1 none)
    rw [shortest, if_neg nonzero, ← units_abs, abs_ofInt]
    generalize n.natAbs = m at small positive
    rw [coarsest_ofInt positive small]
    have short := decimalLength_le small
    have found : neighbour? tie (ofInt m) (decimalLength m - decimalLength m) ≠ none := by
      rw [Int.sub_self]
      exact neighbour?_ofInt_ne_none small
    obtain ⟨d, e, whole, isNeighbour, searched⟩ :=
      exists_searchGrids (show decimalLength m < 20 by omega) found
    rw [searched]
    have nonneg : 0 ≤ e := by omega
    exact ⟨nonneg, digits_of_ofDecimal small nonneg (ofDecimal_of_neighbour? isNeighbour)⟩

end Binary64

namespace Node

theorem keepsText_int {n : Int} (small : n.natAbs < 2 ^ 53) : (Node.int n).KeepsText :=
  Binary64.shortest_ofInt_isNat small

/-- The same integer written as a double does not keep its text, as only a key has its
fraction. -/
theorem not_keepsText_float_ofInt {n : Int} (small : n.natAbs < 2 ^ 53) :
    ¬ (Node.float (Binary64.ofInt n)).KeepsText := fun keeps =>
  absurd (Binary64.shortest_ofInt_isNat small).1 (Int.not_le.2 keeps.2.1)

-- The bound is sharp, and a fraction can do without it.
example : ¬ (Node.int (2 ^ 53 + 1)).KeepsText := by decide +kernel

example : (Node.float (Binary64.ofDecimal false 25 (-1))).KeepsText := by decide +kernel

end Node

end PartCatalog
