/-
# String literals -- reading back what a drawing statement quotes

Inside a string literal a backslash escapes a quote or a backslash, and nothing else.  `readString?`
reads such a literal up to the quote that closes it, and accepts exactly what `literalChar` writes
(`readString?_eq_some_iff`), so a string written with it cannot end its literal early
(`hasBareQuote_escaped`).

A mesh statement puts its file name between two quotes as it is.  That is a literal of the name
exactly if nothing in the name asks for an escape (`mesh_literal_iff`); a quote in the name closes
the literal, and the rest of the name is read as more of the statement (`mesh_literal_refuted`).
-/
import Mathlib.Algebra.BigOperators.Group.List.Basic
import PartCatalog.Base

set_option autoImplicit false

namespace PartCatalog.Base

/-! ## Reading -/

/-- Read a string literal after its opening quote: the string, and the text after the closing
quote.  A backslash must stand before a quote or another backslash, and escapes it. -/
def readString? : List Char → Option (List Char × List Char)
  | [] => none
  | ['\\'] => none
  | '"' :: rest => some ([], rest)
  | '\\' :: c :: rest =>
    if c = '"' ∨ c = '\\' then (readString? rest).map fun read => (c :: read.1, read.2) else none
  | c :: rest => (readString? rest).map fun read => (c :: read.1, read.2)

/-- Whether a quote stands in a text that no backslash escapes. -/
def hasBareQuote : List Char → Bool
  | [] => false
  | ['\\'] => false
  | '\\' :: _ :: rest => hasBareQuote rest
  | c :: rest => c = '"' || hasBareQuote rest

/-- Whether a text is one string literal, its quotes included, and of which string. -/
def IsLiteralOf (text s : String) : Prop :=
  ∃ inside, text.toList = '"' :: inside ∧ readString? inside = some (s.toList, [])

variable {s rest cs : List Char} {c : Char}

/-! ## Escaping -/

theorem literalChar_of_ne (notQuote : c ≠ '"') (notBackslash : c ≠ '\\') : literalChar c = [c] := by
  rw [literalChar, if_neg notQuote, if_neg notBackslash]

/-- What is neither quote nor backslash stands for itself. -/
theorem readString?_cons (notQuote : c ≠ '"') (notBackslash : c ≠ '\\') :
    readString? (c :: rest) = (readString? rest).map fun read => (c :: read.1, read.2) := by
  rw [readString?]
  · rintro rfl -
    exact notBackslash rfl
  · exact notQuote
  · rintro _ _ rfl
    exact absurd rfl notBackslash

/-- What is escaped reads back, whatever stands after the closing quote. -/
theorem readString?_escaped (s rest : List Char) :
    readString? (s.flatMap literalChar ++ '"' :: rest) = some (s, rest) := by
  induction s with
  | nil => rfl
  | cons c s ih =>
      rw [List.flatMap_cons, List.append_assoc]
      by_cases isQuote : c = '"'
      · subst isQuote
        simp [literalChar, readString?, ih]
      by_cases isBackslash : c = '\\'
      · subst isBackslash
        simp [literalChar, readString?, ih]
      · rw [literalChar_of_ne isQuote isBackslash, List.singleton_append,
          readString?_cons isQuote isBackslash, ih, Option.map_some]

/-- What reads as a string is that string escaped. -/
theorem eq_escaped_of_readString? (read : readString? cs = some (s, rest)) :
    cs = s.flatMap literalChar ++ '"' :: rest := by
  fun_induction readString? cs generalizing s with
  | case1 => cases read
  | case2 => cases read
  | case3 after =>
      cases read
      rfl
  | case4 c after escapes ih =>
      obtain ⟨⟨s', left⟩, inner, isRead⟩ := Option.map_eq_some_iff.1 read
      cases isRead
      rw [ih inner]
      rcases escapes with rfl | rfl <;> rfl
  | case5 => cases read
  | case6 c after notLast notQuote notEscape ih =>
      obtain ⟨⟨s', left⟩, inner, isRead⟩ := Option.map_eq_some_iff.1 read
      cases isRead
      have notBackslash : c ≠ '\\' := by
        rintro rfl
        cases after with
        | nil => exact notLast rfl rfl
        | cons next after => exact notEscape next after rfl rfl
      rw [ih inner, List.flatMap_cons, literalChar_of_ne notQuote notBackslash]
      rfl

/-- **A literal reads as exactly the string it was written for.** -/
theorem readString?_eq_some_iff :
    readString? cs = some (s, rest) ↔ cs = s.flatMap literalChar ++ '"' :: rest := by
  constructor
  · exact eq_escaped_of_readString?
  · rintro rfl
    exact readString?_escaped s rest

/-- No quote of a string is left bare. -/
theorem hasBareQuote_escaped (s : List Char) : hasBareQuote (s.flatMap literalChar) = false := by
  induction s with
  | nil => rfl
  | cons c s ih =>
      rw [List.flatMap_cons]
      by_cases isQuote : c = '"'
      · subst isQuote
        exact ih
      by_cases isBackslash : c = '\\'
      · subst isBackslash
        exact ih
      · rw [literalChar_of_ne isQuote isBackslash, List.singleton_append, hasBareQuote]
        · simp [isQuote, ih]
        · rintro rfl -
          exact isBackslash rfl
        · rintro _ _ rfl
          exact absurd rfl isBackslash

theorem length_le_escaped (s : List Char) : s.length ≤ (s.flatMap literalChar).length := by
  have each : ∀ n ∈ s.map fun c => (literalChar c).length, 1 ≤ n := by
    rw [List.forall_mem_map]
    intro c _
    unfold literalChar
    split_ifs <;> simp
  have total := List.length_le_sum_of_one_le _ each
  rwa [List.length_map, ← List.length_flatMap] at total

/-- Only what has no quote and no backslash is written as it is. -/
theorem escaped_eq_self_iff : s.flatMap literalChar = s ↔ '"' ∉ s ∧ '\\' ∉ s := by
  induction s with
  | nil => simp
  | cons c s ih =>
      by_cases isQuote : c = '"'
      · subst isQuote
        simp [literalChar]
      by_cases isBackslash : c = '\\'
      · subst isBackslash
        have longer := length_le_escaped s
        suffices '\\' :: s.flatMap literalChar ≠ s by simpa [literalChar]
        intro same
        have sameLength := congrArg List.length same
        rw [List.length_cons] at sameLength
        omega
      · rw [List.flatMap_cons, literalChar_of_ne isQuote isBackslash, List.singleton_append,
          List.cons_inj_right, ih]
        simp [Ne.symm isQuote, Ne.symm isBackslash]

theorem isLiteralOf_iff {text s : String} : IsLiteralOf text s ↔ text = stringLiteral s := by
  rw [← String.toList_inj, stringLiteral, String.toList_ofList]
  constructor
  · rintro ⟨inside, written, read⟩
    rw [written, readString?_eq_some_iff.1 read]
  · intro written
    exact ⟨_, written, readString?_escaped s.toList []⟩

/-! ## Mesh statements -/

section Meshes

variable {base : Base}

/-- The file of a mesh between quotes, as its statement has it. -/
def quotedPath (base : Base) : String := "\"base/" ++ base.filename ++ "\""

theorem incantation_mesh (isMesh : base.kind = .stl) (values : NameMap Value) :
    base.incantation values = .ok ("import(" ++ base.quotedPath ++ ")") := by
  have opening : "import(\"base/" = "import(" ++ "\"base/" := rfl
  have closing : "\")" = "\"" ++ ")" := rfl
  rw [incantation, isMesh, quotedPath]
  dsimp only
  rw [opening, closing]
  simp only [String.append_assoc]

theorem toList_quotedPath (base : Base) :
    base.quotedPath.toList = '"' :: (("base/" ++ base.filename).toList ++ ['"']) := by
  simp [quotedPath]

/-- What stands between the quotes is one literal exactly if it asks for no escape. -/
theorem isLiteralOf_quotedPath_iff :
    IsLiteralOf base.quotedPath ("base/" ++ base.filename) ↔
      '"' ∉ base.filename.toList ∧ '\\' ∉ base.filename.toList := by
  have plainFolder : '"' ∉ "base/".toList ∧ '\\' ∉ "base/".toList := by decide
  rw [isLiteralOf_iff, ← String.toList_inj, toList_quotedPath, stringLiteral, String.toList_ofList,
    List.cons_inj_right, List.append_cancel_right_eq, eq_comm, escaped_eq_self_iff, String.toList_append]
  simp only [List.mem_append, not_or, plainFolder, not_false_eq_true, true_and]

/-- The first quote of a file name closes the literal. -/
theorem readString?_quotedPath {before after : List Char}
    (split : base.filename.toList = before ++ '"' :: after) (plain : '"' ∉ before ∧ '\\' ∉ before) :
    ∃ inside, (base.quotedPath ++ ")").toList = '"' :: inside ∧
      readString? inside = some ("base/".toList ++ before, after ++ ['"', ')']) := by
  have plainFolder : '"' ∉ "base/".toList ∧ '\\' ∉ "base/".toList := by decide
  have plainPath : ("base/".toList ++ before).flatMap literalChar = "base/".toList ++ before := by
    rw [escaped_eq_self_iff]
    simp only [List.mem_append, not_or, plainFolder, plain, not_false_eq_true, and_self]
  refine ⟨("base/".toList ++ before) ++ '"' :: (after ++ ['"', ')']), ?_, ?_⟩
  · rw [String.toList_append, toList_quotedPath, String.toList_append, split]
    simp
  · rw [readString?_eq_some_iff, plainPath]

/-- **What a mesh statement quotes.**  It is an import of the path of the file between two quotes.
That is a single string literal of the path exactly if the file name has no quote and no backslash;
a name with a quote ends the literal there.  Different names give different statements in any case. -/
theorem mesh_literal_iff (isMesh : base.kind = .stl) (values : NameMap Value) :
    base.incantation values = .ok ("import(" ++ base.quotedPath ++ ")") ∧
      (IsLiteralOf base.quotedPath ("base/" ++ base.filename) ↔
        '"' ∉ base.filename.toList ∧ '\\' ∉ base.filename.toList) ∧
      (∀ before after, base.filename.toList = before ++ '"' :: after → '"' ∉ before ∧ '\\' ∉ before →
        ∃ inside, (base.quotedPath ++ ")").toList = '"' :: inside ∧
          readString? inside = some ("base/".toList ++ before, after ++ ['"', ')'])) ∧
      ∀ (other : Base) (values' : NameMap Value), other.kind = .stl →
        (other.incantation values' = base.incantation values ↔ other.filename = base.filename) := by
  refine ⟨incantation_mesh isMesh values, isLiteralOf_quotedPath_iff, ?_, ?_⟩
  · intro before after split plain
    exact readString?_quotedPath split plain
  · intro other values' otherIsMesh
    rw [incantation_mesh isMesh, incantation_mesh otherIsMesh, Except.ok.injEq]
    simp [quotedPath]

namespace Example

/-- A base file with one mesh. -/
def meshDocument (filename : String) : Node := .seq [.map [
  (.str "filename", .str filename), (.str "author", .str "A <a>"), (.str "license", .str "L <l>"),
  (.str "type", .str "stl"), (.str "classids", .seq [.str "pin"])]]

/-- The mesh that is read from it. -/
def mesh (filename : String) : Base where
  collection := "pins"
  filename
  authors := [⟨"A", "a"⟩]
  license := ⟨"L", "l"⟩
  source := ""
  classIds := ["pin"]
  kind := .stl
  parameters := ParameterSet.empty

end Example

/-- A plain name reads back. -/
theorem mesh_literal_pin :
    (Example.mesh "pin.stl").incantation NameMap.empty = .ok "import(\"base/pin.stl\")" ∧
      IsLiteralOf "\"base/pin.stl\"" "base/pin.stl" := by
  have isMesh : (Example.mesh "pin.stl").kind = .stl := rfl
  obtain ⟨drawn, isLiteral, -⟩ := mesh_literal_iff isMesh NameMap.empty
  exact ⟨drawn, isLiteral.2 (by decide)⟩

/-- The name `a".stl` closes its literal after `a`. -/
theorem mesh_literal_refuted :
    ofDocument "pins" (Example.meshDocument "a\".stl") = .ok [Example.mesh "a\".stl"] ∧
      (Example.mesh "a\".stl").incantation NameMap.empty = .ok "import(\"base/a\".stl\")" ∧
      ¬ IsLiteralOf "\"base/a\".stl\"" "base/a\".stl" ∧
      readString? "base/a\".stl\")".toList = some ("base/a".toList, ".stl\")".toList) := by
  refine ⟨rfl, rfl, fun isLiteral => ?_, by decide⟩
  have isLiteral : IsLiteralOf (Example.mesh "a\".stl").quotedPath ("base/" ++ (Example.mesh "a\".stl").filename) :=
    isLiteral
  exact absurd (isLiteralOf_quotedPath_iff.1 isLiteral).1 (by decide)

end Meshes

end PartCatalog.Base
