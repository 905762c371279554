/-
# Integer placeholders -- what a name shows of a number without its fraction

Under the conversion `%d` a number loses its fraction, is moved into 64 bits (`toInt64_eq`), and is
written in decimal notation.  A text is the notation of no more than one integer
(`IsNotation.unique`), so a name shows the integer part of a number exactly if that fits 64 bits
(`Naming.integer_shown_iff`); the numbers beyond are all shown as the same bound.
-/
import Mathlib.Algebra.Ring.Int.Defs
import PartCatalog.Proofs.LayoutReading
import PartCatalog.Proofs.NamingLaws

set_option autoImplicit false

namespace PartCatalog

/-! ## Decimal notation -/

/-- Whether a text is the decimal notation of an integer: a minus before what is below zero, and the
digits of the magnitude with no zero in front that does not count. -/
def IsNotation (n : Int) (s : String) : Prop :=
  ∃ digits, s.toList = (if n < 0 then ['-'] else []) ++ digits ∧ Binary64.NoLeadingZero digits ∧
    (∀ c ∈ digits, c.isDigit = true) ∧ Nat.ofDigitChars 10 digits 0 = n.natAbs

theorem isNotation_intText (n : Int) : IsNotation n (Node.intText n) := by
  refine ⟨natChars n.natAbs, ?_, Binary64.noLeadingZero_natChars _, fun c => isDigit_of_mem_natChars,
    ofDigitChars_natChars _⟩
  rw [Node.intText, String.toList_ofList, intChars]
  split <;> rfl

theorem IsNotation.splitSign {n : Int} {s : String} (isNotation : IsNotation n s) :
    ∃ digits, Binary64.splitSign s.toList = (decide (n < 0), digits) ∧
      Nat.ofDigitChars 10 digits 0 = n.natAbs := by
  obtain ⟨digits, written, noZero, areDigits, value⟩ := isNotation
  obtain ⟨c, rest, rfl⟩ := List.exists_cons_of_ne_nil noZero.ne_nil
  have signed := Binary64.splitSign_signed (decide (n < 0)) false rest (areDigits c List.mem_cons_self)
  simp only [decide_eq_true_eq, Bool.false_eq_true, if_false] at signed
  exact ⟨c :: rest, by rw [written, signed], value⟩

/-- A text is the notation of one integer at most. -/
theorem IsNotation.unique {m n : Int} {s : String} (first : IsNotation m s) (second : IsNotation n s) :
    m = n := by
  obtain ⟨digits, split, value⟩ := first.splitSign
  obtain ⟨digits', split', value'⟩ := second.splitSign
  rw [split, Prod.mk.injEq, decide_eq_decide] at split'
  obtain ⟨sameSign, rfl⟩ := split'
  have sameMagnitude : m.natAbs = n.natAbs := value.symm.trans value'
  omega

theorem isNotation_intText_iff {m n : Int} : IsNotation m (Node.intText n) ↔ m = n := by
  constructor
  · intro isNotation
    exact isNotation.unique (isNotation_intText n)
  · rintro rfl
    exact isNotation_intText m

namespace Binary64

/-! ## Integer parts -/

/-- A finite number without its fraction. -/
def integerPart (x : Binary64) : Int := x.rank.tdiv (Nat.pow 2 1074 : Nat)

/-- An integer moved into 64 bits: what is outside becomes the nearest bound. -/
def clamp64 (n : Int) : Int := max (-(2 ^ 63)) (min n (2 ^ 63 - 1))

theorem clamp64_eq_iff {n : Int} : n = clamp64 n ↔ -(2 ^ 63) ≤ n ∧ n < 2 ^ 63 := by
  unfold clamp64
  omega

/-- The integer part has the sign of the number and its magnitude rounded down. -/
theorem integerPart_finite (negative : Bool) (m p : Nat) (canonical : Canonical m p) :
    integerPart (.finite negative m p canonical) =
      if negative then -(wholePart (.finite negative m p canonical) : Int)
      else wholePart (.finite negative m p canonical) := by
  unfold integerPart wholePart units rank
  generalize Nat.pow 2 1074 = one
  cases negative with
  | true => exact (Int.neg_tdiv ..).trans (congrArg _ (Int.ofNat_tdiv ..).symm)
  | false => exact (Int.ofNat_tdiv ..).symm

theorem toInt64_eq {x : Binary64} (finite : x.isFinite = true) : x.toInt64 = clamp64 x.integerPart := by
  obtain ⟨negative, m, p, canonical, rfl⟩ := exists_eq_finite finite
  rw [integerPart_finite, toInt64]
  generalize wholePart _ = n
  have bound : Nat.pow 2 63 = 2 ^ 63 := rfl
  unfold clamp64
  cases negative <;> simp only [Bool.false_eq_true, if_true, if_false, bound] <;> omega

end Binary64

namespace Naming

open Template Binary64

/-! ## Placeholders -/

variable {naming : Naming} {values : NameMap Value}

/-- Whether a piece of a naming is a placeholder for an integer, and the value whose turn it is a
finite number. -/
def TakesInteger (naming : Naming) (values : NameMap Value) (k : Nat) (x : Binary64) : Prop :=
  naming.segments[k]? = some (.placeholder .integer) ∧ x.isFinite = true ∧
    ∃ name, naming.substitute[placeholderCount (naming.segments.take k)]? = some name ∧
      values.get? name = some (.number x)

/-- **What a placeholder for an integer shows** of a finite number is its integer part moved into 64
bits, and so the integer part itself exactly if it fits them. -/
theorem integer_shown_iff (present : ∀ name ∈ naming.substitute, name ∈ values.keys) :
    ∃ shown, naming.name values = .ok (String.join shown) ∧
      Shows values naming.segments naming.substitute shown ∧
      ∀ k x, TakesInteger naming values k x →
        ∃ s, shown[k]? = some s ∧ IsNotation (clamp64 x.integerPart) s ∧
          (IsNotation x.integerPart s ↔ -(2 ^ 63) ≤ x.integerPart ∧ x.integerPart < 2 ^ 63) := by
  obtain ⟨text, named⟩ := exists_name_iff.2 present
  obtain ⟨shown, shows, rfl⟩ := name_eq_ok_iff.1 named
  refine ⟨shown, named, shows, ?_⟩
  rintro k x ⟨isPlaceholder, finite, name, isTurn, found⟩
  obtain ⟨name', value, isTurn', found', isShown⟩ := shows.placeholder k _ isPlaceholder
  obtain rfl : name = name' := Option.some.inj (isTurn.symm.trans isTurn')
  obtain rfl : .number x = value := Option.some.inj (found.symm.trans found')
  have rendered : Conversion.render .integer (.number x) = Node.intText (clamp64 x.integerPart) := by
    rw [← toInt64_eq finite]
    rfl
  rw [rendered] at isShown
  refine ⟨_, isShown, isNotation_intText _, ?_⟩
  rw [isNotation_intText_iff, clamp64_eq_iff]

namespace Example

def rodNode : Node := .map [(.str "template", .str "%d"), (.str "substitute", .seq [.str "l"])]

/-- A rod named by its length without fraction. -/
def rod : Naming where
  template := "%d"
  substitute := ["l"]
  segments := [.placeholder .integer]
  balanced := rfl

def rodLength (x : Binary64) : NameMap Value := NameMap.ofList [("l", .number x)]

theorem name_rod (x : Binary64) : rod.name (rodLength x) = .ok (Node.intText x.toInt64) := by
  have found : (rodLength x).get? "l" = some (.number x) := rfl
  refine name_eq_ok_iff.2 ⟨[Node.intText x.toInt64], ?_, by simp⟩
  exact shows_placeholder_iff.2 ⟨_, [], found, rfl, shows_nil_iff.2 rfl⟩

end Example

/-- Below zero the fraction is left out as well, and the minus stays. -/
theorem integer_shown_rod :
    Example.rod.name (Example.rodLength (ofDecimal true 87 (-1))) = .ok "-8" ∧
      (ofDecimal true 87 (-1)).integerPart = -8 ∧ IsNotation (-8) "-8" := by
  have named : Example.rod.name (Example.rodLength (ofDecimal true 87 (-1))) = .ok "-8" := by
    rw [Example.name_rod]
    decide +kernel
  have part : (ofDecimal true 87 (-1)).integerPart = -8 := by decide +kernel
  have takes : TakesInteger Example.rod (Example.rodLength (ofDecimal true 87 (-1))) 0 (ofDecimal true 87 (-1)) :=
    ⟨rfl, by decide +kernel, "l", rfl, rfl⟩
  have present : ∀ name ∈ Example.rod.substitute,
      name ∈ (Example.rodLength (ofDecimal true 87 (-1))).keys := by decide +kernel
  obtain ⟨shown, joined, shows, placeholders⟩ := integer_shown_iff present
  obtain ⟨s, isShown, -, notation_iff⟩ := placeholders 0 _ takes
  obtain ⟨only, rfl⟩ := List.length_eq_one_iff.1 shows.count
  obtain rfl : only = s := Option.some.inj isShown
  obtain rfl : only = "-8" := by simpa [named, eq_comm] using joined
  rw [part] at notation_iff
  exact ⟨named, part, notation_iff.2 (by decide)⟩

/-- From `2 ^ 63` up a name shows the same integer for every number. -/
theorem integer_shown_refuted :
    ofNode Example.rodNode = .ok Example.rod ∧ (ofInt (2 ^ 63)).isFinite = true ∧
      (ofInt (2 ^ 63)).integerPart = 2 ^ 63 ∧
      Example.rod.name (Example.rodLength (ofInt (2 ^ 63))) = .ok "9223372036854775807" ∧
      ¬ IsNotation (2 ^ 63) "9223372036854775807" := by
  refine ⟨rfl, by decide +kernel, by decide +kernel, ?_, ?_⟩
  · rw [Example.name_rod]
    decide +kernel
  · have shown : Node.intText (2 ^ 63 - 1) = "9223372036854775807" := by decide +kernel
    rw [← shown, isNotation_intText_iff]
    decide

end Naming

end PartCatalog
