/-
# Laws of naming -- what a template is read as, and what it is filled to

A template is pieces of text and placeholders, written one after the other with each percent
sign of a text doubled (`Template.written`).  Reading is the inverse of writing: it gives the
pieces back, with texts that touch made one and empty texts left out (`Template.parse_written`),
and a template that can be read is what its pieces are written as (`Template.written_of_parse`).
It cannot be read exactly if some percent sign, going from left to right, is followed neither by
another one nor by the letter of a conversion; that follower is what the error names
(`Template.parse_eq_error_iff`).

A name is one string for each piece in order: a text itself, and for a placeholder the value of
the parameter whose turn it is, under the placeholder's conversion (`Naming.Shows`).  Pieces are
filled until the first parameter without a value (`Naming.fill_eq_error_iff`); that parameters
could run out before the placeholders do is excluded by the count that every naming carries, so
where each parameter has a value the name has all pieces (`Naming.fill_eq_ok_iff`).
-/
import PartCatalog.Naming
import PartCatalog.Proofs.NameMapLaws
import PartCatalog.Proofs.Outcome

set_option autoImplicit false

namespace PartCatalog

open Outcome

/-- What fails at the first parameter without a value succeeds when each has one. -/
theorem ResolveError.succeeds_iff {values : NameMap Value} {names : List String}
    {x : Except ResolveError String}
    (fails : ∀ e, x = .error e ↔ ∃ name, IsFirst (· ∉ values.keys) names name ∧ e = .uncollected name) :
    (∃ text, x = .ok text) ↔ ∀ name ∈ names, name ∈ values.keys := by
  have missing : (∃ e, x = .error e) ↔ ∃ name ∈ names, name ∉ values.keys := by
    simp only [fails, ← exists_isFirst_iff]
    constructor
    · rintro ⟨e, name, isFirst, -⟩
      exact ⟨name, isFirst⟩
    · rintro ⟨name, isFirst⟩
      exact ⟨_, name, isFirst, rfl⟩
  rw [exists_eq_ok_iff, missing, not_exists]
  exact forall_congr' fun name => by rw [not_and_not_right]

namespace Template

/-! ## Writing -/

/-- The characters of a text in a template, each percent sign twice. -/
def escaped (cs : List Char) : List Char := cs.flatMap fun c => if c = '%' then ['%', '%'] else [c]

/-- The characters of a piece in a template. -/
def pieceChars : Segment → List Char
  | .text s => escaped s.toList
  | .placeholder conversion => ['%', conversion.letter]

/-- The template of some pieces. -/
def written (pieces : List Segment) : String := String.ofList (pieces.flatMap pieceChars)

/-- The same pieces with texts that touch made one, and no text that is empty. -/
def merged : List Segment → List Segment
  | [] => []
  | .placeholder conversion :: rest => .placeholder conversion :: merged rest
  | .text s :: rest =>
    match merged rest with
    | .text t :: more => .text (s ++ t) :: more
    | pieces => if s = "" then pieces else .text s :: pieces

theorem merged_text_text (s t : String) (rest : List Segment) :
    merged (.text s :: .text t :: rest) = merged (.text (s ++ t) :: rest) := by
  have joined : s ++ t = "" ↔ s = "" ∧ t = "" := by
    simp only [← String.toList_inj, String.toList_append, String.toList_empty, List.append_eq_nil_iff]
  simp only [merged]
  cases merged rest with
  | nil => by_cases emptyT : t = "" <;> simp [emptyT, joined]
  | cons piece more =>
      cases piece with
      | text u => simp [String.append_assoc]
      | placeholder conversion => by_cases emptyT : t = "" <;> simp [emptyT, joined]

theorem merged_empty (rest : List Segment) : merged (.text "" :: rest) = merged rest := by
  simp only [merged]
  cases merged rest with
  | nil => simp
  | cons piece more => cases piece <;> simp

/-! ## Reading what was written -/

theorem scan_char (before : List Char) {c : Char} (plain : c ≠ '%') (rest : List Char) :
    scan before (c :: rest) = scan (c :: before) rest := by
  cases rest <;> simp [scan, plain]

theorem scan_percent (before rest : List Char) :
    scan before ('%' :: '%' :: rest) = scan ('%' :: before) rest := by
  simp [scan]

theorem ofLetter?_letter (conversion : Conversion) :
    Conversion.ofLetter? conversion.letter = some conversion := by
  cases conversion <;> rfl

theorem scan_placeholder (before : List Char) (conversion : Conversion) (rest : List Char) :
    scan before ('%' :: conversion.letter :: rest) =
      (scan [] rest).map fun pieces => flush before ++ .placeholder conversion :: pieces := by
  have letter : conversion.letter ≠ '%' := by cases conversion <;> decide
  simp [scan, letter, ofLetter?_letter]

/-- A text is read up to its end, whatever follows. -/
theorem scan_escaped (before cs rest : List Char) :
    scan before (escaped cs ++ rest) = scan (cs.reverse ++ before) rest := by
  induction cs generalizing before with
  | nil => rfl
  | cons c cs ih =>
      rw [escaped, List.flatMap_cons, List.append_assoc, ← escaped, List.reverse_cons, List.append_assoc]
      by_cases percent : c = '%'
      · subst percent
        exact (scan_percent before _).trans (ih _)
      · rw [if_neg percent]
        exact (scan_char before percent _).trans (ih _)

/-- The text before a placeholder is one piece, if there is any. -/
theorem merged_flush (before : List Char) (conversion : Conversion) (rest : List Segment) :
    merged (.text (String.ofList before.reverse) :: .placeholder conversion :: rest) =
      flush before ++ .placeholder conversion :: merged rest := by
  cases before with
  | nil => rfl
  | cons c cs =>
      simp [merged, flush]

/-- Reading goes on with the text that stands before the pieces. -/
theorem scan_written (before : List Char) (pieces : List Segment) :
    scan before (pieces.flatMap pieceChars) =
      .ok (merged (.text (String.ofList before.reverse) :: pieces)) := by
  induction pieces generalizing before with
  | nil =>
      cases before with
      | nil => rfl
      | cons c cs =>
          simp [scan, merged, flush]
  | cons piece pieces ih =>
      rw [List.flatMap_cons]
      cases piece with
      | text s =>
          have joined : String.ofList (s.toList.reverse ++ before).reverse =
              String.ofList before.reverse ++ s := by
            simp [String.ofList_append]
          rw [pieceChars, scan_escaped, ih, joined, merged_text_text]
      | placeholder conversion =>
          have after : scan [] (pieces.flatMap pieceChars) = .ok (merged pieces) := by
            rw [ih, List.reverse_nil, String.ofList_nil, merged_empty]
          rw [merged_flush]
          show scan before ('%' :: conversion.letter :: pieces.flatMap pieceChars) = _
          rw [scan_placeholder, after]
          rfl

/-- **What is written of some pieces is read as these pieces**, with texts that touch made one
and empty texts left out. -/
theorem parse_written (pieces : List Segment) : parse (written pieces) = .ok (merged pieces) := by
  rw [parse, written, String.toList_ofList, scan_written, List.reverse_nil, String.ofList_nil, merged_empty]

/-! ## What can be read -/

theorem pieceChars_flush (before : List Char) :
    (flush before).flatMap pieceChars = escaped before.reverse := by
  cases before with
  | nil => rfl
  | cons c cs => simp [flush, pieceChars]

theorem letter_of_ofLetter? {c : Char} {conversion : Conversion}
    (found : Conversion.ofLetter? c = some conversion) : conversion.letter = c := by
  unfold Conversion.ofLetter? at found
  split_ifs at found with isS isD isG
  · cases found
    exact isS.symm
  · cases found
    exact isD.symm
  · cases found
    exact isG.symm

theorem escaped_append (cs ds : List Char) : escaped (cs ++ ds) = escaped cs ++ escaped ds :=
  List.flatMap_append

/-- What was read is written as the characters it was read from, after the text before them. -/
theorem written_of_scan {before cs : List Char} {pieces : List Segment}
    (read : scan before cs = .ok pieces) : pieces.flatMap pieceChars = escaped before.reverse ++ cs := by
  fun_induction scan before cs generalizing pieces with
  | case1 before =>
      cases read
      rw [pieceChars_flush, List.append_nil]
  | case2 before => cases read
  | case3 before after ih =>
      rw [ih read, List.reverse_cons, escaped_append, List.append_assoc]
      rfl
  | case4 before d after notPercent noLetter => cases read
  | case5 before d after notPercent conversion isLetter ih =>
      obtain ⟨rest, read', rfl⟩ := map_eq_ok.1 read
      rw [List.flatMap_append, List.flatMap_cons, pieceChars_flush, ih read', pieceChars,
        letter_of_ofLetter? isLetter]
      rfl
  | case6 before c rest plain ih =>
      rw [ih read, List.reverse_cons, escaped_append, List.append_assoc]
      simp [escaped, plain]

/-- A template that can be read is what its pieces are written as. -/
theorem written_of_parse {template : String} {pieces : List Segment} (read : parse template = .ok pieces) :
    written pieces = template := by
  have chars : pieces.flatMap pieceChars = template.toList := written_of_scan read
  rw [written, chars, String.ofList_toList]

/-- Whether, from left to right, there is a percent sign that is followed neither by a second
one nor by the letter of a conversion, but by `follower`, or by nothing. -/
inductive Stray : List Char → Option Char → Prop where
  | here {rest : List Char} (unknown : ∀ d ∈ ['%', 's', 'd', 'g'], rest.head? ≠ some d) :
      Stray ('%' :: rest) rest.head?
  | afterPair {d : Char} {rest : List Char} {follower : Option Char} (known : d ∈ ['%', 's', 'd', 'g'])
      (later : Stray rest follower) : Stray ('%' :: d :: rest) follower
  | afterChar {c : Char} {rest : List Char} {follower : Option Char} (plain : c ≠ '%')
      (later : Stray rest follower) : Stray (c :: rest) follower

theorem not_stray_nil (follower : Option Char) : ¬ Stray [] follower := by
  intro stray
  cases stray

theorem stray_char_iff {c : Char} (plain : c ≠ '%') {rest : List Char} {follower : Option Char} :
    Stray (c :: rest) follower ↔ Stray rest follower := by
  constructor
  · intro stray
    cases stray with
    | here => exact absurd rfl plain
    | afterPair => exact absurd rfl plain
    | afterChar _ later => exact later
  · exact Stray.afterChar plain

theorem stray_pair_iff {d : Char} (known : d ∈ ['%', 's', 'd', 'g']) {rest : List Char}
    {follower : Option Char} : Stray ('%' :: d :: rest) follower ↔ Stray rest follower := by
  constructor
  · intro stray
    cases stray with
    | here unknown => exact absurd rfl (unknown d known)
    | afterPair _ later => exact later
    | afterChar plain => exact absurd rfl plain
  · exact Stray.afterPair known

theorem stray_here_iff {rest : List Char} (unknown : ∀ d ∈ ['%', 's', 'd', 'g'], rest.head? ≠ some d)
    {follower : Option Char} : Stray ('%' :: rest) follower ↔ follower = rest.head? := by
  constructor
  · intro stray
    cases stray with
    | here => rfl
    | afterPair known => exact absurd rfl (unknown _ known)
    | afterChar plain => exact absurd rfl plain
  · rintro rfl
    exact .here unknown

theorem ofLetter?_eq_none_iff {c : Char} : Conversion.ofLetter? c = none ↔ c ∉ ['s', 'd', 'g'] := by
  unfold Conversion.ofLetter?
  by_cases isS : c = 's'
  · simp [isS]
  · by_cases isD : c = 'd'
    · simp [isD]
    · by_cases isG : c = 'g' <;> simp [isS, isD, isG]

theorem scan_eq_error_iff {before cs : List Char} {e : ShapeFault} :
    scan before cs = .error e ↔ ∃ follower, Stray cs follower ∧ e = .unsupportedConversion follower := by
  fun_induction scan before cs with
  | case1 before => simp [not_stray_nil]
  | case2 before =>
      have unknown : ∀ d ∈ ['%', 's', 'd', 'g'], ([] : List Char).head? ≠ some d := by simp
      simp [stray_here_iff unknown, eq_comm]
  | case3 before after ih =>
      have known : '%' ∈ ['%', 's', 'd', 'g'] := by decide
      rw [ih]
      simp only [stray_pair_iff known]
  | case4 before d after notPercent noLetter =>
      have unknown : ∀ c ∈ ['%', 's', 'd', 'g'], (d :: after).head? ≠ some c := by
        have isNone := ofLetter?_eq_none_iff.1 noLetter
        rintro c member ⟨⟩
        exact (List.mem_cons.1 member).elim notPercent isNone
      simp [stray_here_iff unknown, eq_comm]
  | case5 before d after notPercent conversion isLetter ih =>
      have known : d ∈ ['%', 's', 'd', 'g'] := by
        rw [← letter_of_ofLetter? isLetter]
        cases conversion <;> decide
      rw [map_eq_error, ih]
      simp only [stray_pair_iff known]
  | case6 before c rest plain ih =>
      rw [ih]
      simp only [stray_char_iff plain]

/-- **A template is refused exactly for a stray percent sign**, and the error names what
follows it. -/
theorem parse_eq_error_iff {template : String} {e : ShapeFault} :
    parse template = .error e ↔
      ∃ follower, Stray template.toList follower ∧ e = .unsupportedConversion follower :=
  scan_eq_error_iff

/-! ## Counting placeholders -/

@[simp] theorem placeholderCount_nil : placeholderCount [] = 0 := rfl

@[simp] theorem placeholderCount_text (s : String) (pieces : List Segment) :
    placeholderCount (.text s :: pieces) = placeholderCount pieces := by
  simp [placeholderCount]

@[simp] theorem placeholderCount_placeholder (conversion : Conversion) (pieces : List Segment) :
    placeholderCount (.placeholder conversion :: pieces) = placeholderCount pieces + 1 := by
  simp [placeholderCount]

end Template

/-! ## Names -/

namespace Naming

open Template

variable {values : NameMap Value} {segments : List Segment} {names : List String} {e : ResolveError}

/-- Pieces are filled until the first parameter without a value. -/
theorem fill_eq_error_iff (balanced : placeholderCount segments = names.length) :
    fill values segments names = .error e ↔
      ∃ name, IsFirst (· ∉ values.keys) names name ∧ e = .uncollected name := by
  -- A placeholder takes the next name, so what follows it is balanced by the names that are left.
  induction segments generalizing names with
  | nil =>
      obtain rfl : names = [] := List.length_eq_zero_iff.1 balanced.symm
      simp [fill, IsFirst]
  | cons segment segments ih =>
      cases segment with
      | text s =>
          have rest : placeholderCount segments = names.length := by simpa using balanced
          rw [fill, map_eq_error, ih rest]
      | placeholder conversion =>
          cases names with
          | nil => simp at balanced
          | cons name names =>
              have rest : placeholderCount segments = names.length := by simpa using balanced
              rw [fill]
              simp only [isFirst_cons_iff]
              cases found : values.get? name with
              | none =>
                  have missing : name ∉ values.keys := NameMap.get?_eq_none_iff.1 found
                  simp [missing, eq_comm]
              | some value =>
                  have known : name ∈ values.keys := NameMap.mem_keys_of_get? found
                  simp [known, map_eq_error, ih rest]

/-- A name fails at the first of its parameters without a value, and at nothing else. -/
theorem name_eq_error_iff {naming : Naming} :
    naming.name values = .error e ↔
      ∃ name, IsFirst (· ∉ values.keys) naming.substitute name ∧ e = .uncollected name :=
  fill_eq_error_iff naming.balanced

theorem exists_name_iff {naming : Naming} :
    (∃ name, naming.name values = .ok name) ↔ ∀ name ∈ naming.substitute, name ∈ values.keys :=
  ResolveError.succeeds_iff fun _ => name_eq_error_iff

/-- What is shown for some pieces, one string for each: a text is shown as it is, and a
placeholder, the i-th of them, as the value of the i-th parameter under its conversion. -/
structure Shows (values : NameMap Value) (segments : List Segment) (names shown : List String) : Prop where
  count : shown.length = segments.length
  text : ∀ (k : Nat) s, segments[k]? = some (.text s) → shown[k]? = some s
  placeholder : ∀ (k : Nat) conversion, segments[k]? = some (.placeholder conversion) →
    ∃ name value, names[placeholderCount (segments.take k)]? = some name ∧
      values.get? name = some value ∧ shown[k]? = some (conversion.render value)

theorem shows_nil_iff {shown : List String} : Shows values [] names shown ↔ shown = [] := by
  constructor
  · intro shows
    exact List.length_eq_zero_iff.1 shows.count
  · rintro rfl
    exact ⟨rfl, by simp, by simp⟩

theorem shows_text_iff {s : String} {shown : List String} :
    Shows values (.text s :: segments) names shown ↔
      ∃ rest, shown = s :: rest ∧ Shows values segments names rest := by
  constructor
  · intro shows
    cases shown with
    | nil => cases shows.count
    | cons first rest =>
        obtain rfl : first = s := by simpa using shows.text 0 s rfl
        refine ⟨rest, rfl, by simpa using shows.count, fun k => ?_, fun k => ?_⟩
        · simpa using shows.text (k + 1)
        · simpa using shows.placeholder (k + 1)
  · rintro ⟨rest, rfl, shows⟩
    refine ⟨by simp [shows.count], fun k => ?_, fun k => ?_⟩
    · cases k with
      | zero => simp
      | succ k => simpa using shows.text k
    · cases k with
      | zero => simp
      | succ k => simpa using shows.placeholder k

theorem shows_placeholder_iff {conversion : Conversion} {name : String} {shown : List String} :
    Shows values (.placeholder conversion :: segments) (name :: names) shown ↔
      ∃ value rest, values.get? name = some value ∧ shown = conversion.render value :: rest ∧
        Shows values segments names rest := by
  constructor
  · intro shows
    cases shown with
    | nil => cases shows.count
    | cons first rest =>
        obtain ⟨_, value, isName, found, isFirst⟩ := shows.placeholder 0 conversion rfl
        cases isName
        obtain rfl : first = conversion.render value := by simpa using isFirst
        refine ⟨value, rest, found, rfl, by simpa using shows.count, fun k => ?_, fun k => ?_⟩
        · simpa using shows.text (k + 1)
        · simpa using shows.placeholder (k + 1)
  · rintro ⟨value, rest, found, rfl, shows⟩
    refine ⟨by simp [shows.count], fun k => ?_, fun k => ?_⟩
    · cases k with
      | zero => simp
      | succ k => simpa using shows.text k
    · cases k with
      | zero => simp [found]
      | succ k => simpa using shows.placeholder k

/-- Where parameters and placeholders are as many, pieces are filled to what is shown for all of
them. -/
theorem fill_eq_ok_iff (balanced : placeholderCount segments = names.length) {text : String} :
    fill values segments names = .ok text ↔
      ∃ shown, Shows values segments names shown ∧ text = String.join shown := by
  induction segments generalizing names text with
  | nil => simp [fill, shows_nil_iff, eq_comm]
  | cons segment segments ih =>
      cases segment with
      | text s =>
          have rest : placeholderCount segments = names.length := by simpa using balanced
          rw [fill, map_eq_ok]
          simp only [ih rest, shows_text_iff]
          constructor
          · rintro ⟨_, ⟨shown, shows, rfl⟩, rfl⟩
            exact ⟨s :: shown, ⟨shown, rfl, shows⟩, String.join_cons.symm⟩
          · rintro ⟨_, ⟨shown, rfl, shows⟩, rfl⟩
            exact ⟨_, ⟨shown, shows, rfl⟩, String.join_cons.symm⟩
      | placeholder conversion =>
          cases names with
          | nil => simp at balanced
          | cons name names =>
              have rest : placeholderCount segments = names.length := by simpa using balanced
              rw [fill]
              simp only [shows_placeholder_iff]
              cases found : values.get? name with
              | none => simp
              | some value =>
                  simp only [map_eq_ok, ih rest]
                  constructor
                  · rintro ⟨_, ⟨shown, shows, rfl⟩, rfl⟩
                    exact ⟨_, ⟨value, shown, rfl, rfl, shows⟩, String.join_cons.symm⟩
                  · rintro ⟨_, ⟨_, shown, ⟨⟩, rfl, shows⟩, rfl⟩
                    exact ⟨_, ⟨shown, shows, rfl⟩, String.join_cons.symm⟩

theorem name_eq_ok_iff {naming : Naming} {text : String} :
    naming.name values = .ok text ↔
      ∃ shown, Shows values naming.segments naming.substitute shown ∧ text = String.join shown :=
  fill_eq_ok_iff naming.balanced

/-- A naming that is read has the pieces of its template. -/
theorem parse_of_ofNode {node : Node} {naming : Naming} (read : ofNode node = .ok naming) :
    parse naming.template = .ok naming.segments := by
  simp only [ofNode, bind_eq_ok] at read
  obtain ⟨entries, -, field, -, template, -, read⟩ := read
  split at read <;>
  · simp only [bind_eq_ok] at read
    obtain ⟨substitute, -, segments, parsed, read⟩ := read
    split at read
    · cases read
      exact mapError_eq_ok.1 parsed
    · cases read

/-- **Templates, and the names they give.**  Pieces that are written as a template are read back
from it, and only a stray percent sign makes a template unreadable.  A naming that is read gives a
name exactly where each of its parameters has a value, made of all pieces of its template in
order, and otherwise the error names the first parameter without one. -/
theorem names_follow_templates :
    (∀ pieces, parse (written pieces) = .ok (merged pieces)) ∧
      (∀ template e, parse template = .error e ↔
        ∃ follower, Stray template.toList follower ∧ e = .unsupportedConversion follower) ∧
      ∀ node naming, ofNode node = .ok naming →
        written naming.segments = naming.template ∧
          ∀ values : NameMap Value,
            ((∃ text, naming.name values = .ok text) ↔ ∀ name ∈ naming.substitute, name ∈ values.keys) ∧
            (∀ text, naming.name values = .ok text ↔
              ∃ shown, Shows values naming.segments naming.substitute shown ∧ text = String.join shown) ∧
            ∀ e, naming.name values = .error e ↔
              ∃ name, IsFirst (· ∉ values.keys) naming.substitute name ∧ e = .uncollected name := by
  refine ⟨parse_written, fun template e => parse_eq_error_iff, fun node naming read => ?_⟩
  refine ⟨written_of_parse (parse_of_ofNode read), fun values => ?_⟩
  exact ⟨exists_name_iff, fun text => name_eq_ok_iff, fun e => name_eq_error_iff⟩

namespace Example

/-- A washer named by its diameter without fraction, a percent sign and its size. -/
def washerEntries : List (Node × Node) :=
  [(.str "template", .str "%d%% %s"), (.str "substitute", .seq [.str "d", .str "size"])]

def washer : Naming where
  template := "%d%% %s"
  substitute := ["d", "size"]
  segments := [.placeholder .integer, .text "% ", .placeholder .display]
  balanced := rfl

def diameter : NameMap Value := NameMap.ofList [("d", .number (Binary64.ofDecimal false 87 (-1)))]

theorem render_diameter :
    Conversion.render .integer (.number (Binary64.ofDecimal false 87 (-1))) = "8" := by decide +kernel

theorem read_washer : ofNode (.map washerEntries) = .ok washer := by
  have fields : Declaration.fields "naming" ["template"] ["substitute"] (.map washerEntries) =
      .ok washerEntries := rfl
  have hasTemplate : Declaration.field "naming" washerEntries "template" = .ok (.str washer.template) := rfl
  have template : Declaration.string "naming" "template" (.str washer.template) = .ok washer.template := rfl
  have isField : Node.field? washerEntries "substitute" = some (.seq [.str "d", .str "size"]) := rfl
  have substitute : Declaration.strings "naming" "substitute" (.seq [.str "d", .str "size"]) =
      .ok washer.substitute := rfl
  have segments : parse washer.template = .ok washer.segments := parse_written washer.segments
  simp only [ofNode, fields, hasTemplate, template, isField, substitute, segments, bind, Except.bind]
  rfl

end Example

/-- A washer with a diameter and a size has its name, and without a size the size is missed. -/
theorem names_follow_templates_washer :
    ofNode (.map Example.washerEntries) = .ok Example.washer ∧
      Example.washer.name (Example.diameter.insert "size" (.text "M3")) = .ok "8% M3" ∧
      Example.washer.name Example.diameter = .error (.uncollected "size") := by
  obtain ⟨-, -, named⟩ := names_follow_templates
  obtain ⟨-, filled⟩ := named _ _ Example.read_washer
  obtain ⟨-, succeeds, -⟩ := filled (Example.diameter.insert "size" (.text "M3"))
  obtain ⟨-, -, fails⟩ := filled Example.diameter
  refine ⟨Example.read_washer, (succeeds "8% M3").2 ⟨["8", "% ", "M3"], ?_, by decide⟩,
    (fails _).2 ⟨"size", ?_, rfl⟩⟩
  · have found : (Example.diameter.insert "size" (.text "M3")).get? "d" =
        some (.number (Binary64.ofDecimal false 87 (-1))) := rfl
    refine shows_placeholder_iff.2 ⟨_, ["% ", "M3"], found, by rw [Example.render_diameter], ?_⟩
    refine shows_text_iff.2 ⟨["M3"], rfl, ?_⟩
    exact shows_placeholder_iff.2 ⟨.text "M3", [], rfl, rfl, shows_nil_iff.2 rfl⟩
  · exact ⟨["d"], [], rfl, by decide, by decide⟩

end Naming

end PartCatalog
