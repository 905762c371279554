/-
# Values in JSON -- which values come back from their texts

A value is written without a tag and read by its shape, and the four shapes start with different
characters, so a text of one is never read as another.  Strings come back, because each escape is
read as the character it was written for (`readChars?_escaped`), and so do bools and the absent
value.  A number comes back if it is finite and its digits scale to it, and in no other case
(`Value.readValue?_toJson_iff`): an infinity shares its text with the absent value, and digits
that make no double lose their last bit on the way.  Seventeen digits are needed for every
double but sixteen are enough to make a significand that is none, so there are integers that do
not come back (`value_kept_in_json_refuted`); with one digit less they all do
(`value_kept_in_json`).
-/
import PartCatalog.Json.Scalar
import PartCatalog.Proofs.JsonNumbers
import PartCatalog.Proofs.NumberNodes

set_option autoImplicit false

namespace PartCatalog

namespace Json

/-! ## Strings -/

/-- The four digits of a control character denote it. -/
theorem exists_hexFour {n : Nat} (control : n < 32) :
    ∃ a b c d, List.replicate (4 - (Nat.toDigits 16 n).length) '0' ++ Nat.toDigits 16 n = [a, b, c, d] ∧
      hexFour? a b c d = some n := by
  by_cases short : n < 16
  · have written : Nat.toDigits 16 n = [n.digitChar] := Nat.toDigits_of_lt_base short
    have denoted : ∀ d < 16, hexFour? '0' '0' '0' (Nat.digitChar d) = some d := by decide
    exact ⟨'0', '0', '0', n.digitChar, by rw [written]; rfl, denoted n short⟩
  · obtain ⟨d, rfl⟩ : ∃ d, n = 16 * 1 + d := ⟨n - 16, by omega⟩
    have below : d < 16 := by omega
    have written : Nat.toDigits 16 (16 * 1 + d) = ['1', d.digitChar] := by
      rw [← Nat.toDigits_append_toDigits (by decide) (by decide) below, Nat.toDigits_of_lt_base below]
      rfl
    have denoted : ∀ d < 16, hexFour? '0' '0' '1' (Nat.digitChar d) = some (16 * 1 + d) := by decide
    exact ⟨'0', '0', '1', d.digitChar, by rw [written]; rfl, denoted d below⟩

theorem readChars?_escapedChar (c : Char) (rest : List Char) :
    readChars? (escapedChar c ++ rest) = (readChars? rest).map fun (xs, rest) => (c :: xs, rest) := by
  unfold escapedChar
  split_ifs with isQuote isBackslash isNewline isReturn isTab isBackspace isFeed isControl
  · obtain rfl := isQuote
    rfl
  · obtain rfl := isBackslash
    rfl
  · obtain rfl := isNewline
    rfl
  · obtain rfl := isReturn
    rfl
  · obtain rfl := isTab
    rfl
  · obtain rfl : c = Char.ofNat 8 := by rw [← isBackspace, Char.ofNat_toNat]
    rfl
  · obtain rfl : c = Char.ofNat 12 := by rw [← isFeed, Char.ofNat_toNat]
    rfl
  · obtain ⟨a, b, d, e, written, denoted⟩ := exists_hexFour isControl
    dsimp only
    rw [written]
    show readChars? ('\\' :: 'u' :: a :: b :: d :: e :: rest) = _
    have notLow : ¬ (0xDC00 ≤ c.toNat ∧ c.toNat ≤ 0xDFFF) := by omega
    have notHigh : ¬ (0xD800 ≤ c.toNat ∧ c.toNat ≤ 0xDBFF) := by omega
    rw [readChars?, denoted]
    dsimp only
    rw [if_neg notLow, if_neg notHigh, Char.ofNat_toNat]
  · show readChars? (c :: rest) = _
    have plain : ¬ (c.toNat < 32 ∨ c = '\\') := not_or.2 ⟨isControl, isBackslash⟩
    rw [readChars?, if_neg plain]
    · exact isQuote
    · rintro _ _ _ _ _ rfl
      exact absurd rfl isBackslash
    · rintro _ _ rfl
      exact absurd rfl isBackslash

/-- What is written between quotes is read up to the closing one. -/
theorem readChars?_escaped (cs rest : List Char) :
    readChars? (cs.flatMap escapedChar ++ '"' :: rest) = some (cs, rest) := by
  induction cs with
  | nil => rfl
  | cons c cs ih => rw [List.flatMap_cons, List.append_assoc, readChars?_escapedChar, ih]; rfl

/-! ## Whole texts -/

/-- A text without blanks around it denotes the value at its head, if nothing follows that. -/
theorem readValue?_of_readScalar? {c : Char} {rest : List Char} {value : Option Value}
    (notBlank : isBlank c = false) (read : readScalar? (c :: rest) = value.map fun v => (v, [])) :
    readValue? (String.ofList (c :: rest)) = value := by
  have noBlanks : skipBlanks (c :: rest) = c :: rest := by
    rw [skipBlanks, List.dropWhile_cons_of_neg]
    simp [notBlank]
  rw [readValue?, String.toList_ofList, noBlanks, read]
  cases value <;> rfl

theorem ne_of_starts {c d : Char} (starts : c.isDigit = true ∨ c = '-') (notDigit : d.isDigit = false)
    (notMinus : d ≠ '-') : c ≠ d := by
  rintro rfl
  rcases starts with digit | minus
  · rw [notDigit] at digit
    cases digit
  · exact notMinus minus

/-- What starts with a digit or a minus is read as a number. -/
theorem readScalar?_number {c : Char} (rest : List Char) (starts : c.isDigit = true ∨ c = '-') :
    readScalar? (c :: rest) = (readNumber? (c :: rest)).map fun (x, rest) => (.number x, rest) := by
  rw [readScalar?]
  · exact fun _ isNull => ne_of_starts starts rfl (by decide) (List.cons.inj isNull).1
  · exact fun _ isTrue => ne_of_starts starts rfl (by decide) (List.cons.inj isTrue).1
  · exact fun _ isFalse => ne_of_starts starts rfl (by decide) (List.cons.inj isFalse).1
  · exact fun _ isQuote => ne_of_starts starts rfl (by decide) (List.cons.inj isQuote).1

theorem readValue?_quoted (s : String) : readValue? (quoted s) = some (.text s) := by
  have read : readScalar? ('"' :: (s.toList.flatMap escapedChar ++ ['"'])) = (some (Value.text s)).map fun v => (v, []) := by
    show (readString? ('"' :: (s.toList.flatMap escapedChar ++ ['"']))).map _ = _
    rw [readString?, readChars?_escaped]
    simp
  exact readValue?_of_readScalar? (by decide) read

/-- A finite number is read as its digits in JSON, scaled. -/
theorem readValue?_text {x : Binary64} (finite : x.isFinite = true) :
    readValue? (Layout.json.text x) = (scale? x.jsonDecimal.digits x.jsonDecimal.exponent).map
      fun y => .number (withSign x.isNegative y) := by
  obtain ⟨c, rest, written, starts⟩ : ∃ c rest, Layout.json.chars x = c :: rest ∧ (c.isDigit = true ∨ c = '-') := by
    obtain ⟨negative, m, p, canonical, rfl⟩ := Binary64.exists_eq_finite finite
    obtain ⟨c, rest, written, digit⟩ := Layout.exists_digit_decimalChars Layout.json
      (Binary64.shortest Layout.json.tie (.finite negative m p canonical))
    rw [Layout.chars, written]
    cases negative with
    | false => exact ⟨c, rest, rfl, .inl digit⟩
    | true => exact ⟨'-', c :: rest, rfl, .inr rfl⟩
  have read := readNumber?_chars finite
  have notBlank : isBlank c = false := by
    simp [isBlank, ne_of_starts starts]
  rw [Layout.text, written]
  apply readValue?_of_readScalar? notBlank
  rw [readScalar?_number rest starts, ← written, read, Option.map_map, Option.map_map]
  rfl

end Json

/-! ## Values -/

/-- Whether a value comes back from its JSON text.  Only a number may not: it has to be finite, and
its digits must scale to it. -/
def Value.KeptInJson : Value → Prop
  | .number x => x.isFinite = true ∧
      (Json.scale? x.jsonDecimal.digits x.jsonDecimal.exponent).map (Json.withSign x.isNegative) = some x
  | _ => True

/-- A value is read back from its text exactly if it is kept in JSON. -/
theorem Value.readValue?_toJson_iff (v : Value) :
    Json.readValue? v.toJson.compact = some v ↔ v.KeptInJson := by
  cases v with
  | absent => exact iff_of_true rfl trivial
  | bool b =>
      cases b with
      | true => exact iff_of_true rfl trivial
      | false => exact iff_of_true rfl trivial
  | text s => exact iff_of_true (Json.readValue?_quoted s) trivial
  | number x =>
      by_cases finite : x.isFinite = true
      · have read : Json.readValue? (Value.number x).toJson.compact = _ := Json.readValue?_text finite
        rw [read, KeptInJson, and_iff_right finite]
        cases Json.scale? x.jsonDecimal.digits x.jsonDecimal.exponent <;> simp
      · have read : Json.readValue? (Value.number x).toJson.compact = some .absent := by
          cases x with
          | nan => rfl
          | infinite negative => cases negative <;> rfl
          | finite negative m p canonical => exact absurd rfl finite
        rw [read]
        exact iff_of_false (fun same => by cases same) fun kept => finite kept.1

/-! ## Values of cells -/

namespace ParameterType

theorem readNumber?_int (n : Int) : readNumber? (.int n) = some (.ofInt n) := by
  simp [readNumber?, Binary64.isNaN_ofInt]

theorem normalize_int (param : String) (n : Int) : number.normalize param (.int n) = .ok (.number (.ofInt n)) := by
  show number.normalizeNumber param (.int n) = .ok (.number (.ofInt n))
  rw [normalizeNumber, readNumber?_int]
  rfl

/-- What an integer is read as is a number, namely the double nearest to it, or a text. -/
theorem keptInJson_of_int {type : ParameterType} {param : String} {n : Int} {v : Value}
    (read : type.normalize param (.int n) = .ok v) (small : 10 * n.natAbs < 2 ^ 53) : v.KeptInJson := by
  have numberKept : (Value.number (.ofInt n)).KeptInJson := by
    have finite := (Binary64.units_ofInt (n := n) (by omega)).1
    have inJson := Binary64.jsonDecimal_ofInt (n := n) (by omega)
    refine ⟨finite, Json.scale?_jsonDecimal finite ?_ ?_⟩
    · rw [inJson, Nat.mul_comm]
      exact small
    · rw [inJson]
      show 1 ≤ 22
      omega
  by_cases numeric : type.isNumeric = true
  · rw [normalize_of_isNumber numeric (.int n), normalizeNumber, readNumber?_int] at read
    dsimp only at read
    split at read
    · cases read
    · cases read
      exact numberKept
  · cases type with
    | lengthMm => exact absurd rfl numeric
    | lengthInch => exact absurd rfl numeric
    | number => exact absurd rfl numeric
    | bool => cases read
    | tableIndex =>
        cases read
        trivial
    | string =>
        cases read
        trivial

end ParameterType

/-- **What comes back of a value from its JSON text.**  A value that a cell was read as is read
back from its text exactly if it is no number, or a finite number whose digits scale to it.  An
infinity is written as the absent value is and comes back as that.  A finite number comes back
if its digits make a double and it has no more than twenty-two places, and so does whatever an
integer cell is read as, as long as the integer has one digit less than a double has. -/
theorem value_kept_in_json {type : ParameterType} {param : String} {raw : Node} {v : Value}
    (read : type.normalize param raw = .ok v) :
    (Json.readValue? v.toJson.compact = some v ↔ v.KeptInJson) ∧
      (∀ negative, v = .number (.infinite negative) →
        v.toJson.compact = "null" ∧ Json.readValue? v.toJson.compact = some .absent) ∧
      (∀ x, v = .number x → x.isFinite = true → x.jsonDecimal.digits < 2 ^ 53 →
        x.jsonDecimal.exponent.natAbs ≤ 22 → v.KeptInJson) ∧
      ∀ n, raw = .int n → 10 * n.natAbs < 2 ^ 53 → v.KeptInJson := by
  refine ⟨v.readValue?_toJson_iff, ?_, ?_, ?_⟩
  · rintro negative rfl
    cases negative with
    | false => exact ⟨rfl, rfl⟩
    | true => exact ⟨rfl, rfl⟩
  · rintro x rfl finite small fewPlaces
    exact ⟨finite, Json.scale?_jsonDecimal finite small fewPlaces⟩
  · rintro n rfl small
    exact ParameterType.keptInJson_of_int read small

/-- A length of three eighths of a millimetre comes back. -/
theorem value_kept_in_json_eighths :
    let x := Binary64.ofDecimal false 375 (-3)
    ParameterType.lengthMm.normalize "d" (.float x) = .ok (.number x) ∧
      Json.readValue? (Value.number x).toJson.compact = some (.number x) := by
  intro x
  have read : ParameterType.lengthMm.normalize "d" (.float x) = .ok (.number x) := by decide +kernel
  obtain ⟨back, -, short, -⟩ := value_kept_in_json read
  exact ⟨read, back.2 (short x rfl (by decide +kernel) (by decide +kernel) (by decide +kernel))⟩

/-- The largest integer of 53 binary digits comes back as the one before it, because the zero behind
its point makes a significand that is no double; and an infinity comes back as the absent value. -/
theorem value_kept_in_json_refuted :
    let largest := Value.number (.ofInt 9007199254740991)
    let infinity := Value.number (.infinite false)
    (ParameterType.number.normalize "n" (.int 9007199254740991) = .ok largest ∧
      largest.toJson.compact = "9007199254740991.0" ∧
      Json.readValue? largest.toJson.compact = some (.number (.ofInt 9007199254740990)) ∧
      Json.readValue? largest.toJson.compact ≠ some largest) ∧
    ParameterType.number.normalize "n" (.float (.infinite false)) = .ok infinity ∧
      Json.readValue? infinity.toJson.compact = some .absent := by
  intro largest infinity
  have written : largest.toJson.compact = "9007199254740991.0" := by decide +kernel
  have read : Json.readValue? largest.toJson.compact = some (.number (.ofInt 9007199254740990)) := by
    rw [written]
    decide +kernel
  refine ⟨⟨ParameterType.normalize_int "n" _, written, read, ?_⟩, rfl, ?_⟩
  · rw [read]
    decide +kernel
  · show Json.readValue? "null" = some .absent
    rfl

end PartCatalog
