/-
# Schema verdicts -- for which field a mapping is refused

The keys are walked in document order, with the mandatory fields that none of them has taken yet.
What is left of these never matters for an unknown key, since a field that is left is a declared
one: the walk stops at the first key whose text names no field (`checkKeys_eq_error`), and else
leaves the mandatory fields without a key (`checkKeys_eq_ok`).  So a mapping is refused for its
first unknown key, or for all its missing fields at once, or not at all (`check_decided`).
-/
import Mathlib.Data.List.Nodup
import PartCatalog.Proofs.SchemaLaws

set_option autoImplicit false

namespace PartCatalog

namespace Schema

variable {element : String} {mandatory optional remaining keys : List String}
  {entries : List (Node × Node)} {e : SchemaError}

/-- The texts of the keys, in document order. -/
def keyTexts (entries : List (Node × Node)) : List String := entries.map fun e => e.1.text

/-- Whether a text names no field of an element. -/
def NoField (mandatory optional : List String) (text : String) : Prop :=
  text ∉ mandatory ∧ text ∉ optional

instance (mandatory optional : List String) (text : String) : Decidable (NoField mandatory optional text) :=
  inferInstanceAs (Decidable (_ ∧ _))

/-- The mandatory fields that no key names, as they are declared. -/
def missing (mandatory texts : List String) : List String := mandatory.filter (· ∉ texts)

theorem not_noField_iff {text : String} :
    ¬ NoField mandatory optional text ↔ text ∈ mandatory ∨ text ∈ optional := by
  rw [NoField, not_and_or, not_not, not_not]

/-- The walk fails at the first key that names no field. -/
theorem checkKeys_eq_error (declared : ∀ field ∈ remaining, field ∈ mandatory) :
    checkKeys element mandatory optional remaining keys = .error e ↔
      ∃ field, IsFirst (NoField mandatory optional) keys field ∧ e = .unknownField element field := by
  induction keys generalizing remaining with
  | nil => simp [checkKeys, IsFirst]
  | cons key keys ih =>
      simp only [checkKeys, isFirst_cons_iff]
      split
      · next remains =>
        have known : ¬ NoField mandatory optional key := not_noField_iff.2 (.inl (declared key remains))
        rw [ih fun field member => declared field (List.mem_of_mem_erase member)]
        simp [known]
      · split
        · next known =>
          rw [ih declared]
          simp [not_noField_iff.2 known]
        · next unknown =>
          have unknown : NoField mandatory optional key := not_or.1 unknown
          simp [unknown, eq_comm]

/-- A mapping is refused by the walk, or after it for the fields left over. -/
theorem check_eq_error :
    check element mandatory optional entries = .error e ↔
      checkKeys element mandatory optional mandatory (keyTexts entries) = .error e ∨
        ∃ left, checkKeys element mandatory optional mandatory (keyTexts entries) = .ok left ∧
          left ≠ [] ∧ e = .missingFields element left := by
  unfold check keyTexts
  split
  · next e' failed => simp [failed]
  · next passed => simp [passed]
  · next left nonempty walked =>
    have nonempty : left ≠ [] := nonempty
    simp [walked, nonempty, eq_comm]

/-- **The verdict on a mapping** whose mandatory fields are declared once each: it is refused for
the first key, in document order, whose text names no field; if there is none, for all mandatory
fields that are the text of no key, in the order of their declaration; and if there are none
either, it passes. -/
theorem check_decided (distinct : mandatory.Nodup) :
    (∀ e, check element mandatory optional entries = .error e ↔
      (∃ field, IsFirst (NoField mandatory optional) (keyTexts entries) field ∧
        e = .unknownField element field) ∨
      (∀ text ∈ keyTexts entries, ¬ NoField mandatory optional text) ∧
        missing mandatory (keyTexts entries) ≠ [] ∧
        e = .missingFields element (missing mandatory (keyTexts entries))) ∧
    (check element mandatory optional entries = .ok () ↔
      (∀ text ∈ keyTexts entries, ¬ NoField mandatory optional text) ∧
        missing mandatory (keyTexts entries) = []) := by
  have leftOver : mandatory.diff (keyTexts entries) = missing mandatory (keyTexts entries) :=
    List.Nodup.sdiff_eq_filter distinct
  constructor
  · intro e
    rw [check_eq_error, checkKeys_eq_error fun _ declared => declared]
    refine or_congr_right ?_
    simp only [checkKeys_eq_ok fun _ declared => declared, leftOver, not_noField_iff]
    constructor
    · rintro ⟨_, ⟨known, rfl⟩, someLeft, isError⟩
      exact ⟨known, someLeft, isError⟩
    · rintro ⟨known, someLeft, isError⟩
      exact ⟨_, ⟨known, rfl⟩, someLeft, isError⟩
  · rw [check_eq_ok, ← leftOver]
    refine and_congr_left fun _ => ?_
    simp only [keyTexts, List.forall_mem_map, not_noField_iff]

namespace Example

/-- A table whose second and third keys are no fields, both with the text `8`. -/
def numberedEntries : List (Node × Node) :=
  [(.str "data", .map []), (.int 8, .seq []), (.str "8", .seq [])]

/-- A table with nothing but rows, under a tagged key. -/
def rowsOnly : List (Node × Node) := [(.tagged "later" (.str "data"), .map [])]

end Example

/-- An unknown key is reported before the missing fields, which are reported together. -/
theorem check_decided_table :
    ["index", "columns", "data"].Nodup ∧
      check "table" ["index", "columns", "data"] [] Example.numberedEntries =
        .error (.unknownField "table" "8") ∧
      check "table" ["index", "columns", "data"] [] Example.rowsOnly =
        .error (.missingFields "table" ["index", "columns"]) := by
  have distinct : ["index", "columns", "data"].Nodup := by decide
  refine ⟨distinct, ?_, ?_⟩
  · refine ((check_decided distinct).1 _).2 (.inl ⟨"8", ?_, rfl⟩)
    exact ⟨["data"], ["8"], by decide, by decide, by decide⟩
  · exact ((check_decided distinct).1 _).2 (.inr ⟨by decide, by decide, by decide⟩)

end Schema

end PartCatalog
