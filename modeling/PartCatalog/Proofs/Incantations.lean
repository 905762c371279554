/-
# Incantations -- reading back the arguments of a drawing statement

A module is called with one literal for each argument, and the statement can be read back: a
literal is a string literal, or a word for a value or the digits of a number (`readLiteral?`), and
the arguments of a call are literals between commas up to the closing parenthesis
(`ReadsArguments`).  A text reads as one list of values only (`ReadsArguments.unique`), and what is
drawn reads as the values of the arguments, whatever their strings hold (`readsArguments_drawn`).
So no value ends its literal early or changes the list, and two choices of values have one
statement exactly if they agree on every argument (`incantation_reads_back`).
-/
import PartCatalog.Proofs.CheckedClasses
import PartCatalog.Proofs.LayoutReading
import PartCatalog.Proofs.StringLiterals

set_option autoImplicit false

namespace PartCatalog

open Outcome

/-! ## Agreement -/

/-- Whether two values are the same, numbers by the text shown for them. -/
inductive Value.Alike : Value → Value → Prop
  | absent : Alike .absent .absent
  | bool (b : Bool) : Alike (.bool b) (.bool b)
  | number {x y : Binary64} (same : Layout.plain.text x = Layout.plain.text y) :
      Alike (.number x) (.number y)
  | text (s : String) : Alike (.text s) (.text s)

theorem Value.Alike.refl (v : Value) : v.Alike v := by
  cases v with
  | absent => exact .absent
  | bool b => exact .bool b
  | number x => exact .number rfl
  | text s => exact .text s

namespace Base

/-! ## Reading literals -/

/-- Whether a character may stand in a literal that is no string. -/
def isWordChar (c : Char) : Bool := c.isAlphanum || c = '.' || c = '-' || c = '+'

/-- The value that a literal without quotes stands for. -/
def wordValue? (word : List Char) : Option Value :=
  if word = "undef".toList then some .absent
  else if word = "true".toList then some (.bool true)
  else if word = "false".toList then some (.bool false)
  else (Binary64.ofChars? word).map .number

/-- Read a literal: its value, and the text after it. -/
def readLiteral? : List Char → Option (Value × List Char)
  | '"' :: rest => (readString? rest).map fun read => (.text (String.ofList read.1), read.2)
  | cs => (wordValue? (cs.takeWhile isWordChar)).map fun value => (value, cs.dropWhile isWordChar)

/-- Whether a text reads as the arguments of a call, and what follows the parenthesis that closes
it. -/
inductive ReadsArguments : List Char → List Value → List Char → Prop
  | none (rest : List Char) : ReadsArguments (')' :: rest) [] rest
  | last {cs rest : List Char} {v : Value} (read : readLiteral? cs = some (v, ')' :: rest)) :
      ReadsArguments cs [v] rest
  | more {cs cs' rest : List Char} {v w : Value} {vs : List Value}
      (read : readLiteral? cs = some (v, ',' :: ' ' :: cs')) (reads : ReadsArguments cs' (w :: vs) rest) :
      ReadsArguments cs (v :: w :: vs) rest

theorem readLiteral?_close (rest : List Char) : readLiteral? (')' :: rest) = none := by
  rfl

/-- A text reads as one list of values only. -/
theorem ReadsArguments.unique {cs rest rest' : List Char} {vs vs' : List Value}
    (first : ReadsArguments cs vs rest) (second : ReadsArguments cs vs' rest') :
    vs = vs' ∧ rest = rest' := by
  induction first generalizing vs' with
  | none rest =>
      cases second with
      | none => exact ⟨rfl, rfl⟩
      | last read => cases read.symm.trans (readLiteral?_close rest)
      | more read => cases read.symm.trans (readLiteral?_close rest)
  | last read =>
      cases second with
      | none => cases read.symm.trans (readLiteral?_close rest')
      | last read' =>
          cases read.symm.trans read'
          exact ⟨rfl, rfl⟩
      | more read' => cases read.symm.trans read'
  | more read reads ih =>
      cases second with
      | none => cases read.symm.trans (readLiteral?_close rest')
      | last read' => cases read.symm.trans read'
      | more read' reads' =>
          cases read.symm.trans read'
          obtain ⟨sameValues, sameRest⟩ := ih reads'
          exact ⟨congrArg _ sameValues, sameRest⟩

/-! ## Literals that are read -/

theorem isWordChar_of_isDigit {c : Char} (digit : c.isDigit = true) : isWordChar c = true := by
  simp [isWordChar, Char.isAlphanum, digit]

/-- The digits of a number read back, and so do the words for what is not finite. -/
theorem ofChars?_plain (x : Binary64) : Binary64.ofChars? (Layout.plain.chars x) = some x := by
  cases x with
  | nan => decide
  | infinite negative => cases negative <;> decide
  | finite negative m p canonical => exact Layout.ofChars?_chars Layout.plain rfl

theorem all_isWordChar_plain (x : Binary64) : (Layout.plain.chars x).all isWordChar = true := by
  cases x with
  | nan => decide
  | infinite negative => cases negative <;> decide
  | finite negative m p canonical =>
      refine List.all_eq_true.2 fun c member => ?_
      rcases List.mem_append.1 member with sign | digits
      · cases negative with
        | false => cases sign
        | true =>
            obtain rfl := List.mem_singleton.1 sign
            decide
      · rcases Layout.mem_decimalChars digits with digit | mark
        · exact isWordChar_of_isDigit digit
        · have words : ['.', 'e', '-', '+'].all isWordChar = true := by decide
          exact List.all_eq_true.1 words c mark

/-- The words for values are no numbers. -/
theorem wordValue?_plain (x : Binary64) : wordValue? (Layout.plain.chars x) = some (.number x) := by
  have read := ofChars?_plain x
  have noNumber : ∀ word : List Char, Binary64.ofChars? word = none → Layout.plain.chars x ≠ word := by
    rintro word isNone same
    rw [same, isNone] at read
    cases read
  rw [wordValue?, if_neg (noNumber _ (by decide)), if_neg (noNumber _ (by decide)),
    if_neg (noNumber _ (by decide)), read, Option.map_some]

/-- A word is read up to the first character that cannot belong to it. -/
theorem readLiteral?_word {word rest : List Char} {value : Value} (nonempty : word ≠ [])
    (areWordChars : word.all isWordChar = true) (ends : ∀ c ∈ rest.head?, isWordChar c = false)
    (hasValue : wordValue? word = some value) : readLiteral? (word ++ rest) = some (value, rest) := by
  have stops : rest.takeWhile isWordChar = [] ∧ rest.dropWhile isWordChar = rest := by
    cases rest with
    | nil => exact ⟨rfl, rfl⟩
    | cons c rest => simp [ends c rfl]
  have isWord : ∀ c ∈ word, isWordChar c = true := List.all_eq_true.1 areWordChars
  have taken : (word ++ rest).takeWhile isWordChar = word := by
    rw [List.takeWhile_append_of_pos isWord, stops.1, List.append_nil]
  have dropped : (word ++ rest).dropWhile isWordChar = rest := by
    rw [List.dropWhile_append_of_pos isWord, stops.2]
  have noQuote : ∀ rest', word ++ rest ≠ '"' :: rest' := by
    intro rest' same
    obtain ⟨c, cs, rfl⟩ := List.exists_cons_of_ne_nil nonempty
    obtain ⟨rfl, -⟩ := List.cons.inj same
    exact absurd (isWord _ List.mem_cons_self) (by decide)
  rw [readLiteral?, taken, dropped, hasValue, Option.map_some]
  exact noQuote

/-- **The literal of a value reads back as the value**, where it does not run on. -/
theorem readLiteral?_literal (value : Value) {rest : List Char}
    (ends : ∀ c ∈ rest.head?, isWordChar c = false) :
    readLiteral? ((literal value).toList ++ rest) = some (value, rest) := by
  cases value with
  | absent => exact readLiteral?_word (by decide) (by decide) ends rfl
  | bool b => cases b <;> exact readLiteral?_word (by decide) (by decide) ends rfl
  | number x =>
      have nonempty : Layout.plain.chars x ≠ [] := by
        intro empty
        have read := ofChars?_plain x
        rw [empty] at read
        cases read
      rw [literal, Layout.text, String.toList_ofList]
      exact readLiteral?_word nonempty (all_isWordChar_plain x) ends (wordValue?_plain x)
  | text s =>
      rw [literal, stringLiteral, String.toList_ofList, List.cons_append, List.append_assoc, readLiteral?]
      rw [List.singleton_append, readString?_escaped, Option.map_some, String.ofList_toList]

/-! ## Statements -/

variable {base : Base} {name : String} {arguments : List String} {values : NameMap Value}
  {given : List Value}

/-- What is drawn between the parentheses of a call. -/
def drawn (given : List Value) : String := String.intercalate ", " (given.map literal)

/-- **Arguments read back** as the values they were drawn for, whatever follows the call. -/
theorem readsArguments_drawn (given : List Value) (rest : List Char) :
    ReadsArguments ((drawn given).toList ++ ')' :: rest) given rest := by
  rw [drawn, String.toList_intercalate, List.map_map]
  have ends : ∀ c cs, c = ',' ∨ c = ')' → ∀ d ∈ (c :: cs).head?, isWordChar d = false := by
    rintro c cs (rfl | rfl) d ⟨⟩ <;> decide
  induction given with
  | nil => exact .none rest
  | cons v given ih =>
      cases given with
      | nil =>
          rw [List.map_singleton, List.intercalate_singleton]
          exact .last (readLiteral?_literal v (ends _ _ (.inr rfl)))
      | cons w given =>
          rw [List.map_cons, List.map_cons, List.intercalate_cons_cons, List.append_assoc, List.append_assoc]
          exact .more (readLiteral?_literal v (ends _ _ (.inl rfl))) ih

/-- Whether a list has the values of the arguments, one for each place. -/
def AreGiven (values : NameMap Value) (arguments : List String) (given : List Value) : Prop :=
  List.Forall₂ (fun argument v => values.get? argument = some v) arguments given

theorem exists_areGiven (present : ∀ argument ∈ arguments, argument ∈ values.keys) :
    ∃ given, AreGiven values arguments given := by
  refine exists_forall₂_iff.2 fun argument member => ?_
  cases found : values.get? argument with
  | none => exact absurd (present argument member) (NameMap.get?_eq_none_iff.1 found)
  | some v => exact ⟨v, rfl⟩

/-- A module is called with the literals of its arguments. -/
theorem incantation_module (isModule : base.kind = .module name arguments)
    (areGiven : AreGiven values arguments given) :
    base.incantation values = .ok (name ++ "(" ++ drawn given ++ ")") := by
  have literals : arguments.mapM (argument values) = .ok (given.map literal) := by
    rw [mapM_eq_ok, List.forall₂_map_right_iff]
    refine areGiven.imp fun argument v found => ?_
    rw [Base.argument, found]
  rw [incantation, isModule]
  dsimp only
  rw [literals]
  rfl

theorem literal_of_alike {v w : Value} (alike : v.Alike w) : literal v = literal w := by
  cases alike with
  | absent => rfl
  | bool => rfl
  | number same => exact same
  | text => rfl

/-- Two lists of arguments are drawn as one text only if they are alike, place by place. -/
theorem drawn_eq_iff {given given' : List Value} :
    drawn given = drawn given' ↔ List.Forall₂ Value.Alike given given' := by
  constructor
  · intro same
    have reads := readsArguments_drawn given []
    rw [same] at reads
    obtain ⟨rfl, -⟩ := reads.unique (readsArguments_drawn given' [])
    exact List.forall₂_same.2 fun v _ => .refl v
  · intro alike
    have literals : given.map literal = given'.map literal :=
      map_eq_map_of_forall₂ alike fun _ _ => literal_of_alike
    rw [drawn, drawn, literals]

/-- Whether two choices of values agree on every argument. -/
def AlikeOn (arguments : List String) (values values' : NameMap Value) : Prop :=
  ∀ argument ∈ arguments, ∃ v v', values.get? argument = some v ∧ values'.get? argument = some v' ∧ v.Alike v'

theorem alikeOn_iff {values' : NameMap Value} {given' : List Value} (areGiven : AreGiven values arguments given)
    (areGiven' : AreGiven values' arguments given') :
    AlikeOn arguments values values' ↔ List.Forall₂ Value.Alike given given' := by
  unfold AlikeOn
  unfold AreGiven at areGiven
  induction areGiven generalizing given' with
  | nil =>
      cases areGiven'
      simp
  | cons found _ ih =>
      cases areGiven' with
      | cons found' rest' =>
          rw [List.forall_mem_cons, ih rest', List.forall₂_cons]
          simp [found, found']

/-- **What a module statement says.**  It fails at the first argument without a value, and at
nothing else.  Where all have one it calls the module with the literals of these values in order,
each reads back by itself, and the text after the opening parenthesis reads as exactly these values.
In the literal of a string no quote is bare but the last, and what is between the quotes reads as
the string, whatever follows.  So two choices of values have one statement exactly if they agree on
every argument. -/
theorem incantation_reads_back (isModule : base.kind = .module name arguments) :
    (∀ values e, base.incantation values = .error e ↔
      ∃ argument, IsFirst (· ∉ values.keys) arguments argument ∧ e = .uncollected argument) ∧
    (∀ values, (∀ argument ∈ arguments, argument ∈ values.keys) →
      ∃ given, AreGiven values arguments given ∧
        base.incantation values = .ok (name ++ "(" ++ String.intercalate ", " (given.map literal) ++ ")") ∧
        ReadsArguments (String.intercalate ", " (given.map literal) ++ ")").toList given [] ∧
        ∀ v ∈ given, readLiteral? (literal v).toList = some (v, [])) ∧
    (∀ s : String, ∃ inside, (literal (.text s)).toList = '"' :: (inside ++ ['"']) ∧
      hasBareQuote inside = false ∧
      ∀ rest, readString? (inside ++ '"' :: rest) = some (s.toList, rest)) ∧
    ∀ values values', (∀ argument ∈ arguments, argument ∈ values.keys) →
      (∀ argument ∈ arguments, argument ∈ values'.keys) →
      (base.incantation values = base.incantation values' ↔
        AlikeOn arguments values values') := by
  refine ⟨fun values e => ?_, fun values present => ?_, fun s => ?_, fun values values' present present' => ?_⟩
  · rw [incantation_eq_error_iff, Base.arguments, isModule]
  · obtain ⟨given, areGiven⟩ := exists_areGiven present
    refine ⟨given, areGiven, incantation_module isModule areGiven, ?_, fun v _ => ?_⟩
    · rw [String.toList_append]
      exact readsArguments_drawn given []
    · have read : readLiteral? ((literal v).toList ++ []) = some (v, []) := readLiteral?_literal v (by simp)
      rwa [List.append_nil] at read
  · refine ⟨s.toList.flatMap literalChar, ?_, hasBareQuote_escaped _, readString?_escaped _⟩
    rw [literal, stringLiteral, String.toList_ofList]
  · obtain ⟨given, areGiven⟩ := exists_areGiven present
    obtain ⟨given', areGiven'⟩ := exists_areGiven present'
    rw [incantation_module isModule areGiven, incantation_module isModule areGiven',
      alikeOn_iff areGiven areGiven', ← drawn_eq_iff]
    simp

namespace Example

/-- A module called with a diameter, a thread and a finish. -/
def screw : Base where
  collection := "hex"
  filename := "hex.scad"
  authors := []
  license := ⟨"MIT", "x"⟩
  source := ""
  classIds := ["hexscrew"]
  kind := .module "hex_screw" ["d", "thread", "finish"]
  parameters := ParameterSet.empty

/-- A screw whose thread tries to end its literal and add an argument. -/
def crafted : NameMap Value :=
  NameMap.ofList [("d", .number (Binary64.ofInt 3)), ("finish", .absent), ("thread", .text "M\\\", 4, \"")]

end Example

/-- A string with quotes, a backslash and commas stays one argument of three. -/
theorem incantation_reads_back_screw :
    Example.screw.incantation Example.crafted =
        .ok "hex_screw(3, \"M\\\\\\\", 4, \\\"\", undef)" ∧
      ReadsArguments "3, \"M\\\\\\\", 4, \\\"\", undef)".toList
        [.number (Binary64.ofInt 3), .text "M\\\", 4, \"", .absent] [] := by
  have present : ∀ argument ∈ ["d", "thread", "finish"], argument ∈ Example.crafted.keys := by decide +kernel
  have isModule : Example.screw.kind = .module "hex_screw" ["d", "thread", "finish"] := rfl
  obtain ⟨-, draws, -⟩ := incantation_reads_back isModule
  obtain ⟨given, areGiven, isDrawn, reads, -⟩ := draws Example.crafted present
  simp only [AreGiven, List.forall₂_cons_left_iff, List.forall₂_nil_left_iff] at areGiven
  obtain ⟨d, -, isD, ⟨thread, -, isThread, ⟨finish, -, isFinish, rfl, rfl⟩, rfl⟩, rfl⟩ := areGiven
  obtain rfl : .number (Binary64.ofInt 3) = d := Option.some.inj isD
  obtain rfl : .text "M\\\", 4, \"" = thread := Option.some.inj isThread
  obtain rfl : .absent = finish := Option.some.inj isFinish
  have shown : String.intercalate ", " ([.number (Binary64.ofInt 3), .text "M\\\", 4, \"", .absent].map literal) ++
      ")" = "3, \"M\\\\\\\", 4, \\\"\", undef)" := by decide +kernel
  rw [shown] at reads
  rw [String.append_assoc, shown] at isDrawn
  exact ⟨isDrawn, reads⟩

end Base

end PartCatalog
