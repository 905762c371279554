/-
# Numbers in cells -- the text of a number is read as the number is

A cell of a numeric type holds a number or a text, and a text is read as the number it
denotes.  So it should not matter whether a number is written as one or as the text a document
has for it, and for every integer and every finite double it does not: the answer is the same,
down to the text in an error (`ParameterType.normalize_text`).  Not-a-number is read in neither
form.  The infinities are where the forms part (`ParameterType.number_read_alike_iff`): a
document writes them with a point in front, and no word of the reader has one.
-/
import PartCatalog.ParameterType
import PartCatalog.Proofs.LayoutReading

set_option autoImplicit false

namespace PartCatalog

open Binary64

/-! ## Number nodes -/

namespace Node

/-- Whether a node is a number. -/
inductive IsNumber : Node → Prop where
  | int (n : Int) : IsNumber (.int n)
  | float (x : Binary64) : IsNumber (.float x)

/-- Whether a node is one of the infinities. -/
def IsInfinite (node : Node) : Prop := ∃ negative, node = .float (.infinite negative)

variable {node : Node}

theorem text_ne_none (isNumber : node.IsNumber) : node.text ≠ "None" := by
  cases isNumber with
  | int n => exact ne_none_of_ofText? (ofText?_trim_intText n)
  | float x =>
      cases x with
      | nan => decide
      | infinite negative => cases negative <;> decide
      | finite negative m p canonical => exact ne_none_of_ofText? (Layout.ofText?_trim_text .document rfl)

end Node

namespace ParameterType

variable {type : ParameterType} {param : String} {node : Node}

/-- The text of a number is read as the number, if it is one of the reader's. -/
theorem readNumber?_text (isNumber : node.IsNumber) (notInfinite : ¬ node.IsInfinite) :
    readNumber? (.str node.text) = readNumber? node := by
  cases isNumber with
  | int n => simp only [readNumber?, Node.text, ofText?_trim_intText]
  | float x =>
      cases x with
      | nan => decide
      | infinite negative => exact absurd ⟨negative, rfl⟩ notInfinite
      | finite negative m p canonical =>
          have readsBack := Layout.ofText?_trim_text .document (x := .finite negative m p canonical) rfl
          simp only [readNumber?, Node.text, readsBack]

/-! ## Cells of a numeric type -/

theorem normalizeUntagged_str {s : String} (present : s ≠ "None") :
    type.normalize param (.str s) = type.normalizeScalar param (.str s) :=
  if_neg present

theorem normalizeScalar_of_isNumeric (numeric : type.isNumeric = true) :
    type.normalizeScalar param node = type.normalizeNumber param node := by
  cases type with
  | lengthMm => rfl
  | lengthInch => rfl
  | number => rfl
  | bool => cases numeric
  | tableIndex => cases numeric
  | string => cases numeric

theorem normalize_str_of_isNumeric (numeric : type.isNumeric = true) {s : String} (present : s ≠ "None") :
    type.normalize param (.str s) = type.normalizeNumber param (.str s) :=
  (normalizeUntagged_str present).trans (normalizeScalar_of_isNumeric numeric)

theorem normalize_of_isNumber (numeric : type.isNumeric = true) (isNumber : node.IsNumber) :
    type.normalize param node = type.normalizeNumber param node := by
  rw [← normalizeScalar_of_isNumeric numeric]
  cases isNumber <;> rfl

/-- **A number is read alike from a node and from its text**, also when it is refused. -/
theorem normalize_text (numeric : type.isNumeric = true) (isNumber : node.IsNumber)
    (notInfinite : ¬ node.IsInfinite) :
    type.normalize param (.str node.text) = type.normalize param node := by
  have sameText : Node.text (.str node.text) = node.text := rfl
  rw [normalize_str_of_isNumeric numeric (Node.text_ne_none isNumber), normalize_of_isNumber numeric isNumber,
    normalizeNumber, normalizeNumber, readNumber?_text isNumber notInfinite, sameText]

/-- The text of an infinity is refused, whatever its sign. -/
theorem normalize_text_infinite (numeric : type.isNumeric = true) (negative : Bool) :
    type.normalize param (.str (Node.float (.infinite negative)).text) =
      .error (.invalidNumber param (Node.float (.infinite negative)).text) := by
  have unread : readNumber? (.str (Node.float (.infinite negative)).text) = none := by
    cases negative <;> decide
  rw [normalize_str_of_isNumeric numeric (Node.text_ne_none (.float _)), normalizeNumber, unread]
  rfl

/-- An infinity itself is a number, and as a length only the negative one is refused. -/
theorem normalize_infinite (numeric : type.isNumeric = true) (negative : Bool) :
    type.normalize param (.float (.infinite negative)) =
      if type.isLength && negative then .error (.negativeLength param (.infinite negative))
      else .ok (.number (.infinite negative)) := by
  have below : (infinite negative).numLt (zero false) = negative := by
    cases negative <;> decide +kernel
  have isRead : readNumber? (.float (.infinite negative)) = some (.infinite negative) := rfl
  rw [normalize_of_isNumber numeric (.float _), normalizeNumber, isRead]
  dsimp only
  rw [below]

end ParameterType

/-! ## Reading alike -/

/-- Whether two cells are read alike: as one value, or with errors of one kind, whatever the
errors say. -/
inductive SameReading : Except CellError Value → Except CellError Value → Prop where
  | value (v : Value) : SameReading (.ok v) (.ok v)
  | error {e f : CellError} (sameKind : e.ctorIdx = f.ctorIdx) : SameReading (.error e) (.error f)

theorem SameReading.refl (x : Except CellError Value) : SameReading x x := by
  cases x with
  | ok v => exact .value v
  | error e => exact .error rfl

namespace ParameterType

variable {type : ParameterType} {node : Node}

/-- **A number may be written as a node or as its text, unless it is infinite.**  Apart from the
infinities both are read with the same answer.  The text of an infinity is never read, where the
infinity itself is a number and at worst a negative length. -/
theorem number_read_alike_iff (numeric : type.isNumeric = true) (isNumber : node.IsNumber)
    (param : String) :
    (SameReading (type.normalize param node) (type.normalize param (.str node.text)) ↔ ¬ node.IsInfinite) ∧
      (¬ node.IsInfinite → type.normalize param (.str node.text) = type.normalize param node) ∧
      ∀ negative, node = .float (.infinite negative) →
        type.normalize param (.str node.text) = .error (.invalidNumber param node.text) ∧
          type.normalize param node =
            if type.isLength && negative then .error (.negativeLength param (.infinite negative))
            else .ok (.number (.infinite negative)) := by
  refine ⟨⟨?_, fun notInfinite => ?_⟩, normalize_text numeric isNumber, ?_⟩
  · rintro alike ⟨negative, rfl⟩
    rw [normalize_text_infinite numeric, normalize_infinite numeric] at alike
    split at alike
    · cases alike with
      | error sameKind => cases sameKind
    · cases alike
  · rw [normalize_text numeric isNumber notInfinite]
    exact SameReading.refl _
  · rintro negative rfl
    exact ⟨normalize_text_infinite numeric negative, normalize_infinite numeric negative⟩

/-- A length that a document writes with an exponent is read from that text too. -/
theorem length_with_exponent_read_alike :
    (Node.float (ofDecimal false 1 16)).text = "1e16" ∧
      SameReading (lengthMm.normalize "d" (.float (ofDecimal false 1 16))) (lengthMm.normalize "d" (.str "1e16")) := by
  have finite : (ofDecimal false 1 16).isFinite = true := by decide +kernel
  have notInfinite : ¬ (Node.float (ofDecimal false 1 16)).IsInfinite := by
    rintro ⟨negative, same⟩
    rw [Node.float.inj same] at finite
    cases finite
  have isText : (Node.float (ofDecimal false 1 16)).text = "1e16" := by decide +kernel
  have numeric : lengthMm.isNumeric = true := rfl
  have isNumber : (Node.float (ofDecimal false 1 16)).IsNumber := .float _
  refine ⟨isText, ?_⟩
  rw [← isText]
  exact (number_read_alike_iff numeric isNumber "d").1.2 notInfinite

/-- An infinite number is read from a node, and its text is refused. -/
theorem infinity_read_apart :
    number.isNumeric = true ∧ (Node.float (.infinite false)).IsNumber ∧
      (Node.float (.infinite false)).text = ".inf" ∧
      number.normalize "n" (.float (.infinite false)) = .ok (.number (.infinite false)) ∧
      number.normalize "n" (.str ".inf") = .error (.invalidNumber "n" ".inf") ∧
      ¬ SameReading (number.normalize "n" (.float (.infinite false))) (number.normalize "n" (.str ".inf")) := by
  have isText : (Node.float (.infinite false)).text = ".inf" := by decide
  have refused : number.normalize "n" (.str ".inf") = .error (.invalidNumber "n" ".inf") := by
    rw [← isText]
    exact normalize_text_infinite rfl false
  refine ⟨rfl, .float _, isText, rfl, refused, ?_⟩
  rw [refused]
  rintro ⟨⟩

end ParameterType

end PartCatalog
