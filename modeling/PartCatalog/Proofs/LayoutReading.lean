/-
# Reading layouts -- what is written of a double in any layout reads back

Layouts differ in where positional notation ends and in the form of an exponent, and the
reader takes all of them: an exponent with its sign or without and filled up with zeros or not
(`readSigned?_exponentChars`), digits with an exponent behind them
(`exactDecimal?_scientificChars`) and digits alone.  So a finite double reads back from its text
in every layout (`Layout.ofText?_trim_text`): what starts with a digit is none of the words for
what is not finite, and no character of it is a blank.  The words are for each layout to
choose, and those of plain digits are words of the reader (`Layout.ofText?_trim_plain`).
-/
import PartCatalog.Node.Text
import PartCatalog.Text.Blank
import PartCatalog.Proofs.NumberReading

set_option autoImplicit false

namespace PartCatalog

/-! ## Exponents -/

namespace Binary64

theorem splitSign_of_digit {c : Char} (rest : List Char) (digit : c.isDigit = true) :
    splitSign (c :: rest) = (false, c :: rest) := by
  unfold splitSign
  split
  · next same => rw [(List.cons.inj same).1] at digit; cases digit
  · next same => rw [(List.cons.inj same).1] at digit; cases digit
  · rfl

/-- A sign is taken off from what starts with a digit, be it written or not. -/
theorem splitSign_signed (negative plus : Bool) {c : Char} (rest : List Char) (digit : c.isDigit = true) :
    splitSign ((if negative then ['-'] else if plus then ['+'] else []) ++ c :: rest) = (negative, c :: rest) := by
  cases negative with
  | true => rfl
  | false =>
      cases plus with
      | true => rfl
      | false => exact splitSign_of_digit rest digit

theorem filled_ne_nil (zeros n : Nat) : List.replicate zeros '0' ++ natChars n ≠ [] :=
  List.append_ne_nil_of_right_ne_nil _ Nat.toDigits_ne_nil

theorem isDigit_of_mem_filled {zeros n : Nat} {c : Char}
    (member : c ∈ List.replicate zeros '0' ++ natChars n) : c.isDigit = true := by
  rcases List.mem_append.1 member with isZero | inDigits
  · rw [List.eq_of_mem_replicate isZero]
    rfl
  · exact isDigit_of_mem_natChars inDigits

/-- Digits filled up with zeros denote the same number. -/
theorem digitsValue_filled (zeros n : Nat) : digitsValue (List.replicate zeros '0' ++ natChars n) = n := by
  have value : ∀ ds, digitsValue ds = Nat.ofDigitChars 10 ds 0 := fun _ => rfl
  rw [value, Nat.ofDigitChars_append, Nat.ofDigitChars_replicate_zero, Nat.mul_zero, ofDigitChars_natChars]

/-- An exponent is read as the integer it was written for, with its sign or without, filled up
with zeros or not. -/
theorem readSigned?_exponentChars (plus : Bool) (width : Nat) (k : Int) :
    readSigned? (Layout.exponentChars plus width k) = some k := by
  unfold Layout.exponentChars
  dsimp only
  rw [List.append_assoc]
  generalize width - (natChars k.natAbs).length = zeros
  have areDigits : ∀ c ∈ List.replicate zeros '0' ++ natChars k.natAbs, c.isDigit = true :=
    fun c => isDigit_of_mem_filled
  have denoted := digitsValue_filled zeros k.natAbs
  obtain ⟨c, rest, written⟩ := List.exists_cons_of_ne_nil (filled_ne_nil zeros k.natAbs)
  rw [written] at areDigits denoted ⊢
  have signed := splitSign_signed (decide (k < 0)) plus rest (areDigits c List.mem_cons_self)
  simp only [decide_eq_true_eq] at signed
  have isNumber : c :: rest ≠ [] ∧ (c :: rest).all Char.isDigit = true :=
    ⟨List.cons_ne_nil c rest, List.all_eq_true.2 areDigits⟩
  rw [readSigned?, signed]
  simp only [isNumber, denoted, decide_eq_true_eq]
  refine congrArg some ?_
  split <;> omega

/-! ## Digits and an exponent -/

/-- Scientific notation is the decimal it was written for. -/
theorem exactDecimal?_scientificChars (layout : Layout) (d : Decimal) :
    exactDecimal? (layout.scientificChars d (Layout.scientificExponent d)) = some d := by
  have areDigits : ∀ c ∈ natChars d.digits, c.isDigit = true := fun c => isDigit_of_mem_natChars
  have denoted := ofDigitChars_natChars d.digits
  have someDigits : natChars d.digits ≠ [] := Nat.toDigits_ne_nil
  have exponent : readExponent? ('e' :: Layout.exponentChars layout.exponentPlus layout.exponentDigits
      (Layout.scientificExponent d)) = some (d.exponent + (natChars d.digits).length - 1) :=
    readSigned?_exponentChars _ _ _
  rw [Layout.scientificChars]
  generalize Layout.exponentChars _ _ _ = tail at exponent ⊢
  have ends : EndsDigits ('e' :: tail) := endsDigits_cons tail rfl
  -- One digit stands alone; of more digits all but the first stand behind a point.
  generalize natChars d.digits = ds at areDigits denoted someDigits exponent ⊢
  cases ds with
  | nil => exact absurd rfl someDigits
  | cons first rest =>
      cases rest with
      | nil =>
          have split : splitDecimal (first :: 'e' :: tail) = ([first], [], 'e' :: tail) :=
            splitDecimal_whole areDigits ends (by simp)
          have places : d.exponent + ([first].length : Int) - 1 - (List.length ([] : List Char) : Int) =
              d.exponent := by simp
          refine (exactDecimal?_of_split split someDigits exponent).trans ?_
          rw [List.append_nil, denoted, places]
      | cons second rest =>
          have split : splitDecimal (first :: '.' :: second :: (rest ++ 'e' :: tail)) =
              ([first], second :: rest, 'e' :: tail) :=
            splitDecimal_point (show ∀ c ∈ [first] ++ second :: rest, c.isDigit = true from areDigits) ends
          have places : d.exponent + ((first :: second :: rest).length : Int) - 1 -
              ((second :: rest).length : Int) = d.exponent := by
            rw [List.length_cons]
            omega
          refine (exactDecimal?_of_split split (List.cons_ne_nil _ _) exponent).trans ?_
          rw [List.singleton_append, denoted, places]

/-- What is written of a decimal, in whatever notation, is that decimal up to zeros at its end. -/
theorem exactDecimal?_decimalChars (layout : Layout) (d : Decimal) :
    ∃ k, exactDecimal? (layout.decimalChars d) = some (d.padded k) := by
  unfold Layout.decimalChars
  dsimp only
  split
  · exact exactDecimal?_positionalChars layout.keepsFraction d
  · refine ⟨0, (exactDecimal?_scientificChars layout d).trans ?_⟩
    simp [Decimal.padded]

theorem readDecimal?_decimalChars (layout : Layout) (negative : Bool) (d : Decimal) :
    readDecimal? negative (layout.decimalChars d) = some (ofDecimal negative d.digits d.exponent) := by
  obtain ⟨k, written⟩ := exactDecimal?_decimalChars layout d
  rw [readDecimal?_eq_map, written, Option.map_some, ofDecimal_padded]

end Binary64

/-! ## Where a number starts -/

theorem exists_digit_natChars (n : Nat) : ∃ c rest, natChars n = c :: rest ∧ c.isDigit = true := by
  obtain ⟨c, rest, written⟩ := List.exists_cons_of_ne_nil (Nat.toDigits_ne_nil (n := n) (b := 10))
  have isFirst : c ∈ natChars n := by
    rw [natChars, written]
    exact List.mem_cons_self
  exact ⟨c, rest, written, isDigit_of_mem_natChars isFirst⟩

theorem toLower_of_isDigit {c : Char} (digit : c.isDigit = true) : c.toLower = c := by
  simp only [Char.isDigit, Bool.and_eq_true, decide_eq_true_eq, UInt32.le_iff_toNat_le] at digit
  unfold Char.toLower
  rw [dif_neg]
  simp only [ge_iff_le, UInt32.le_iff_toNat_le]
  have nine : '9'.val.toNat < 'A'.val.toNat := by decide
  omega

namespace Binary64

/-- What starts with a digit is no word. -/
theorem ofChars?_of_digit (negative : Bool) {c : Char} (rest : List Char) (digit : c.isDigit = true) :
    ofChars? ((if negative then ['-'] else []) ++ c :: rest) = readDecimal? negative (c :: rest) := by
  have split : splitSign ((if negative then ['-'] else []) ++ c :: rest) = (negative, c :: rest) :=
    splitSign_signed negative false rest digit
  have noWord : ∀ (letter : Char) (letters : List Char), letter.isDigit = false →
      String.ofList ((c :: rest).map Char.toLower) ≠ String.ofList (letter :: letters) := by
    intro letter letters notDigit same
    rw [String.ofList_inj, List.map_cons, toLower_of_isDigit digit] at same
    rw [← (List.cons.inj same).1, digit] at notDigit
    cases notDigit
  rw [ofChars?, split]
  dsimp only
  rw [if_neg, if_neg]
  · exact noWord 'n' ['a', 'n'] (by decide)
  · rintro (isWord | isWord)
    · exact noWord 'i' ['n', 'f'] (by decide) isWord
    · exact noWord 'i' ['n', 'f', 'i', 'n', 'i', 't', 'y'] (by decide) isWord

end Binary64

/-! ## Blanks -/

theorem Text.not_isBlank_of_isDigit {c : Char} (digit : c.isDigit = true) : isBlank c = false := by
  simp only [Char.isDigit, Bool.and_eq_true, decide_eq_true_eq, UInt32.le_iff_toNat_le] at digit
  have zero : '0'.val.toNat = 48 := rfl
  have nine : '9'.val.toNat = 57 := rfl
  have number : c.toNat = c.val.toNat := rfl
  simp only [isBlank, Bool.or_eq_false_iff, Bool.and_eq_false_iff, decide_eq_false_iff_not,
    beq_eq_false_iff_ne]
  omega

theorem Text.trimChars_of_not_isBlank {cs : List Char} (noBlank : ∀ c ∈ cs, isBlank c = false) :
    trimChars cs = cs := by
  have kept : ∀ {l : List Char}, (∀ c ∈ l, isBlank c = false) → l.dropWhile isBlank = l :=
    fun noBlank => List.dropWhile_eq_self_iff.2 fun _ => by
      rw [noBlank _ (List.getElem_mem _)]
      exact Bool.false_ne_true
  rw [trimChars, kept noBlank, trimEndChars, kept, List.reverse_reverse]
  exact fun c member => noBlank c (List.mem_reverse.1 member)

/-- Nothing is cut off what has no blanks. -/
theorem Binary64.ofText?_trim_ofList {cs : List Char} (noBlank : ∀ c ∈ cs, Text.isBlank c = false) :
    ofText? (Text.trim (String.ofList cs)) = ofChars? cs := by
  rw [Text.trim, String.toList_ofList, Text.trimChars_of_not_isBlank noBlank, ofText?, String.toList_ofList]

namespace Layout

open Binary64

/-! ## Texts of doubles -/

/-- A decimal starts with a digit. -/
theorem exists_digit_decimalChars (layout : Layout) (d : Decimal) :
    ∃ c rest, layout.decimalChars d = c :: rest ∧ c.isDigit = true := by
  obtain ⟨c, rest, written, digit⟩ := exists_digit_natChars d.digits
  unfold decimalChars
  dsimp only
  split
  · by_cases isFraction : d.exponent < 0
    · obtain ⟨whole, fraction, positional, noZero, areDigits, -⟩ :=
        exists_places layout.keepsFraction isFraction
      obtain ⟨c, rest, rfl⟩ := List.exists_cons_of_ne_nil noZero.ne_nil
      exact ⟨c, _, positional, areDigits c List.mem_cons_self⟩
    · rw [positionalChars]
      dsimp only
      rw [if_pos (Int.not_lt.1 isFraction), written, List.cons_append, List.cons_append]
      exact ⟨c, _, rfl, digit⟩
  · rw [scientificChars, written]
    cases rest with
    | nil => exact ⟨c, _, rfl, digit⟩
    | cons second rest => exact ⟨c, _, rfl, digit⟩

/-- **A finite number reads back** from what is written of it, in every layout. -/
theorem ofChars?_chars (layout : Layout) {x : Binary64} (finite : x.isFinite = true) :
    ofChars? (layout.chars x) = some x := by
  obtain ⟨negative, m, p, canonical, rfl⟩ := exists_eq_finite finite
  obtain ⟨c, rest, written, digit⟩ :=
    exists_digit_decimalChars layout (shortest layout.tie (.finite negative m p canonical))
  rw [chars, written, ofChars?_of_digit negative rest digit, ← written, readDecimal?_decimalChars]
  exact congrArg some (ofDecimal_shortest layout.tie rfl)

theorem mem_exponentChars {plus : Bool} {width : Nat} {k : Int} {c : Char}
    (member : c ∈ exponentChars plus width k) : c.isDigit = true ∨ c = '-' ∨ c = '+' := by
  unfold exponentChars at member
  dsimp only at member
  rw [List.append_assoc] at member
  rcases List.mem_append.1 member with sign | digits
  · right
    split at sign
    · exact .inl (List.mem_singleton.1 sign)
    · cases plus with
      | true => exact .inr (List.mem_singleton.1 sign)
      | false => cases sign
  · exact .inl (isDigit_of_mem_filled digits)

theorem mem_decimalChars {layout : Layout} {d : Decimal} {c : Char} (member : c ∈ layout.decimalChars d) :
    c.isDigit = true ∨ c ∈ ['.', 'e', '-', '+'] := by
  unfold decimalChars at member
  dsimp only at member
  split at member
  · exact (mem_positionalChars member).imp_right fun point => by simp [point]
  · rcases List.mem_append.1 member with significand | exponent
    · have areDigits : ∀ c ∈ natChars d.digits, c.isDigit = true := fun c => isDigit_of_mem_natChars
      split at significand
      · next first second rest written =>
        rw [written] at areDigits
        rcases List.mem_cons.1 significand with rfl | more
        · exact .inl (areDigits c List.mem_cons_self)
        · rcases List.mem_cons.1 more with rfl | fraction
          · exact .inr (by decide)
          · exact .inl (areDigits c (List.mem_cons_of_mem first fraction))
      · exact .inl (areDigits c significand)
    · rcases List.mem_cons.1 exponent with rfl | signed
      · exact .inr (by decide)
      · exact (mem_exponentChars signed).imp_right fun sign => by rcases sign with rfl | rfl <;> decide

/-- No character of a finite number is a blank. -/
theorem not_isBlank_of_mem_chars {layout : Layout} {x : Binary64} (finite : x.isFinite = true) {c : Char}
    (member : c ∈ layout.chars x) : Text.isBlank c = false := by
  obtain ⟨negative, m, p, canonical, rfl⟩ := exists_eq_finite finite
  rcases List.mem_append.1 member with sign | digits
  · cases negative with
    | false => cases sign
    | true =>
        obtain rfl := List.mem_singleton.1 sign
        decide
  · rcases mem_decimalChars digits with digit | mark
    · exact Text.not_isBlank_of_isDigit digit
    · have noBlank : ['.', 'e', '-', '+'].all (fun c => !Text.isBlank c) = true := by decide
      simpa using List.all_eq_true.1 noBlank c mark

/-- A finite number reads back from its text, blanks looked for around it or not. -/
theorem ofText?_trim_text (layout : Layout) {x : Binary64} (finite : x.isFinite = true) :
    ofText? (Text.trim (layout.text x)) = some x := by
  rw [text, ofText?_trim_ofList fun c => not_isBlank_of_mem_chars finite]
  exact ofChars?_chars layout finite

/-- **Plain digits read back** as the number they were written for, and so do the words for
the infinities. -/
theorem ofText?_trim_plain {x : Binary64} (number : x.isNaN = false) :
    ofText? (Text.trim (plain.text x)) = some x := by
  cases x with
  | nan => cases number
  | infinite negative => cases negative <;> decide
  | finite negative m p canonical => exact ofText?_trim_text plain rfl

end Layout

/-! ## Texts of integers -/

namespace Binary64

/-- The digits of an integer are read as the double nearest to it. -/
theorem ofChars?_intChars (n : Int) : ofChars? (intChars n) = some (ofInt n) := by
  obtain ⟨c, rest, written, digit⟩ := exists_digit_natChars n.natAbs
  have signed : intChars n = (if decide (n < 0) then ['-'] else []) ++ natChars n.natAbs := by
    by_cases negative : n < 0 <;> simp [intChars, negative]
  have positional : Layout.positionalChars false ⟨n.natAbs, 0⟩ = natChars n.natAbs := by
    simp [Layout.positionalChars]
  have whole := readDecimal?_positionalChars false (decide (n < 0)) ⟨n.natAbs, 0⟩
  rw [positional, ofDecimal_whole, written] at whole
  rw [signed, written, ofChars?_of_digit _ rest digit]
  exact whole

theorem not_isBlank_of_mem_intChars {n : Int} {c : Char} (member : c ∈ intChars n) :
    Text.isBlank c = false := by
  rcases mem_intChars member with digit | rfl
  · exact Text.not_isBlank_of_isDigit digit
  · decide

theorem ofText?_trim_intText (n : Int) : ofText? (Text.trim (Node.intText n)) = some (ofInt n) := by
  rw [Node.intText, ofText?_trim_ofList fun c => not_isBlank_of_mem_intChars]
  exact ofChars?_intChars n

/-- The word for the absent value is no number. -/
theorem ne_none_of_ofText? {s : String} {x : Binary64} (read : ofText? (Text.trim s) = some x) :
    s ≠ "None" := by
  rintro rfl
  have word : ofText? (Text.trim "None") = none := by decide
  cases read.symm.trans word

end Binary64

end PartCatalog
