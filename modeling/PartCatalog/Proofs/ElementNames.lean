/-
# Element names -- the classes that an element stands for, and what they are called

An element is read to one class under each of its names, in order, and the classes differ in
nothing else (`PartClass.ofNode_eq_ok_iff`).  Its names are found before its fields are checked,
from the list or the one value of its standard or else of its id, and an element without names is
read under the empty one, for the error it should have.  It has none if its standard is an empty
list; and an id that is a list, which is no fault either, gives names but is not one of them.
These are the only elements whose classes are not called by their standards or by their id
(`PartClass.classes_named_iff`).
-/
import PartCatalog.Proofs.ReadClasses
import PartCatalog.Proofs.WellFormed

set_option autoImplicit false

namespace PartCatalog

open Outcome

/-! ## Diagnostic forms -/

theorem Text.length_le_quoted (s : String) : s.length ≤ (quoted s).length := by
  have each : ∀ c, 1 ≤ (quotedChar c).length := by
    intro c
    unfold quotedChar
    split_ifs <;> simp
  have longer : ∀ cs : List Char, cs.length ≤ (cs.flatMap quotedChar).length := by
    intro cs
    induction cs with
    | nil => exact Nat.le_refl 0
    | cons c cs ih =>
        have head := each c
        rw [List.flatMap_cons, List.length_append, List.length_cons]
        omega
  have inside := longer s.toList
  rw [String.length_toList] at inside
  rw [quoted, String.length_ofList, List.length_cons, List.length_append]
  omega

theorem Text.length_le_wrapped (before s after : String) : s.length ≤ (before ++ s ++ after).length := by
  rw [String.length_append, String.length_append]
  omega

/-- The diagnostic form of a node is no shorter than its text. -/
theorem Node.length_text_le : ∀ node : Node, node.text.length ≤ node.diagnostic.length
  | .null => Nat.le_refl 4
  | .bool true => Nat.le_add_right 4 6
  | .bool false => Nat.le_add_right 5 6
  | .int n => Text.length_le_wrapped "Number(" (intText n) ")"
  | .float x => Text.length_le_wrapped "Number(" (Layout.document.text x) ")"
  | .str s => Nat.le_trans (Text.length_le_quoted s) (Text.length_le_wrapped "String(" (Text.quoted s) ")")
  | .seq _ => Nat.le_refl _
  | .map _ => Nat.le_refl _
  | .tagged tag value =>
      Nat.le_trans (length_text_le value)
        (Text.length_le_wrapped ("TaggedValue \x7b tag: !" ++ tag ++ ", value: ") value.diagnostic " \x7d")

/-- So a list is never called by its only item. -/
theorem Node.text_seq_ne (item : Node) : (Node.seq [item]).text ≠ item.text := by
  have inside : String.intercalate ", " (diagnosticItems [item]) = item.diagnostic :=
    String.intercalate_singleton
  have joined : (Node.seq [item]).text = "Sequence [" ++ item.diagnostic ++ "]" :=
    congrArg (fun s => "Sequence [" ++ s ++ "]") inside
  have opening : "Sequence [".length = 10 := rfl
  intro same
  have longer := length_text_le item
  rw [← same, joined, String.length_append, String.length_append, opening] at longer
  generalize "]".length = closing at longer
  omega

theorem Node.texts_of_not_seq {node : Node} (single : ∀ items, node ≠ .seq items) : node.texts = [node.text] := by
  unfold texts
  split
  · next items => exact absurd rfl (single items)
  · rfl

theorem Node.texts_eq_nil_iff {node : Node} : node.texts = [] ↔ node = .seq [] := by
  constructor
  · intro none_
    unfold texts at none_
    split at none_
    · next items => rw [List.map_eq_nil_iff.1 none_]
    · cases none_
  · rintro rfl
    rfl

namespace PartClass

variable {element : Node} {entries : List (Node × Node)} {name : String} {c : PartClass}
  {classes : List PartClass}

/-- **An element is read to one class under each name**, the same but for the name. -/
theorem ofNode_eq_ok_iff :
    ofNode element = .ok classes ↔
      ∃ entries shared, element.asMapping? = some entries ∧ ofFieldsWithin entries "" = .ok shared ∧
        classes = (givenNames entries).map shared.named := by
  constructor
  · intro read
    obtain ⟨entries, isMapping⟩ := exists_asMapping_of_ofNode read
    rw [ofNode_eq_mapM isMapping, mapM_eq_ok] at read
    have read := read.imp fun _ _ => ofFieldsWithin_eq_ok_iff.1
    obtain ⟨name, rest, some_⟩ := List.exists_cons_of_ne_nil (givenNames_ne_nil entries)
    obtain ⟨shared, isShared⟩ : ∃ shared, ofFieldsWithin entries "" = .ok shared := by
      rw [some_, List.forall₂_cons_left_iff] at read
      obtain ⟨_, _, ⟨shared, isShared, -⟩, -⟩ := read
      exact ⟨shared, isShared⟩
    refine ⟨entries, shared, isMapping, isShared, ?_⟩
    simp only [isShared, Except.ok.injEq, exists_eq_left'] at read
    rw [← List.forall₂_eq_eq_eq, List.forall₂_map_right_iff]
    exact read.flip
  · rintro ⟨entries, shared, isMapping, isShared, rfl⟩
    rw [ofNode_eq_mapM isMapping, mapM_eq_ok, List.forall₂_map_right_iff, List.forall₂_same]
    exact fun name _ => ofFieldsWithin_eq_ok_iff.2 ⟨shared, isShared, rfl⟩

/-! ## What the classes are called -/

/-- Whether the classes of an element are called by its standards: one by each entry of a list in
order, one by a single value, and without a standard one by the id. -/
structure NamedByStandard (entries : List (Node × Node)) (classes : List PartClass) : Prop where
  list : ∀ items, Node.field? entries "standard" = some (.seq items) →
    classes.map (·.name) = items.map Node.text
  single : ∀ node, Node.field? entries "standard" = some node → (∀ items, node ≠ .seq items) →
    classes.map (·.name) = [node.text]
  absent : Node.field? entries "standard" = none → ∃ c, classes = [c] ∧ c.name = c.id
  own : ∀ c ∈ classes, (∀ standard, c.standard = some standard → c.name ∈ standard) ∧
    (c.standard = none → c.name = c.id)

/-- Whether an element has no standard that is an empty list, and no id that is a list where it
has no standard. -/
def HasNames (entries : List (Node × Node)) : Prop :=
  Node.field? entries "standard" ≠ some (.seq []) ∧
    (Node.field? entries "standard" = none →
      ∃ id, Node.field? entries "id" = some id ∧ ∀ items, id ≠ .seq items)

/-- The field that names an element: its standard, or else its id. -/
def source? (entries : List (Node × Node)) : Option Node :=
  (Node.field? entries "standard").or (Node.field? entries "id")

theorem givenNames_of_source {node : Node} (isSource : source? entries = some node)
    (nonempty : node ≠ .seq []) : givenNames entries = node.texts := by
  have isElement : elementNames entries = node.texts := by
    rw [elementNames, ← source?, isSource]
  rw [givenNames, isElement, if_neg (mt Node.texts_eq_nil_iff.1 nonempty)]

theorem givenNames_of_nameless (empty : source? entries = some (.seq [])) : givenNames entries = [""] := by
  have isElement : elementNames entries = [] := by
    rw [elementNames, ← source?, empty]
    rfl
  rw [givenNames, if_pos isElement]

theorem source?_of_standard {node : Node} (isStandard : Node.field? entries "standard" = some node) :
    source? entries = some node := by
  rw [source?, isStandard]
  rfl

theorem source?_of_absent (absent : Node.field? entries "standard" = none) :
    source? entries = Node.field? entries "id" := by
  rw [source?, absent]
  rfl

section Shared

variable {shared : PartClass}

theorem map_name_named (shared : PartClass) (given : List String) :
    (given.map shared.named).map (·.name) = given := by
  rw [List.map_map]
  exact List.map_id given

/-- With standards the classes are called by them, if there are any. -/
theorem namedByStandard_of_standard {node : Node} (standard : Node.field? entries "standard" = some node)
    (nonempty : node ≠ .seq []) (isStandard : shared.standard = some node.texts) :
    NamedByStandard entries ((givenNames entries).map shared.named) := by
  have given : givenNames entries = node.texts := givenNames_of_source (source?_of_standard standard) nonempty
  constructor
  case list =>
    intro items isList
    cases standard.symm.trans isList
    rw [map_name_named, given]
    rfl
  case single =>
    intro single isSingle notList
    cases standard.symm.trans isSingle
    rw [map_name_named, given, Node.texts_of_not_seq notList]
  case absent =>
    intro absent
    cases standard.symm.trans absent
  case own =>
    intro c member
    obtain ⟨name, isGiven, rfl⟩ := List.mem_map.1 member
    rw [standard_named, isStandard]
    refine ⟨?_, fun absent => by cases absent⟩
    rintro _ ⟨⟩
    exact given ▸ isGiven

/-- Without, there is one class, and it is called by the id, if that is one name. -/
theorem namedByStandard_of_absent {id : Node} (absent : Node.field? entries "standard" = none)
    (hasId : Node.field? entries "id" = some id) (notList : ∀ items, id ≠ .seq items)
    (isId : shared.id = id.text) (isStandard : shared.standard = none) :
    NamedByStandard entries ((givenNames entries).map shared.named) := by
  have given : givenNames entries = [shared.id] := by
    rw [givenNames_of_source ((source?_of_absent absent).trans hasId) (notList []),
      Node.texts_of_not_seq notList, isId]
  rw [given]
  constructor
  case list =>
    intro items isList
    cases absent.symm.trans isList
  case single =>
    intro node isSingle
    cases absent.symm.trans isSingle
  case absent => exact fun _ => ⟨_, rfl, rfl⟩
  case own =>
    intro c member
    obtain rfl := List.mem_singleton.1 member
    rw [standard_named, isStandard]
    exact ⟨fun _ isSome => (by cases isSome), fun _ => rfl⟩

/-- With names in the right place the classes are called by them. -/
theorem namedByStandard_of_hasNames (hasNames : HasNames entries) (readFrom : ReadFrom entries shared) :
    NamedByStandard entries ((givenNames entries).map shared.named) := by
  obtain ⟨nonempty, isOne⟩ := hasNames
  have isStandard := readFrom.standard
  cases standard : Node.field? entries "standard" with
  | some node =>
      rw [standard] at isStandard
      exact namedByStandard_of_standard standard (fun empty => nonempty (empty ▸ standard)) isStandard
  | none =>
      obtain ⟨id, hasId, notList⟩ := isOne standard
      obtain ⟨_, hasId', isId⟩ := readFrom.id
      cases hasId.symm.trans hasId'
      rw [standard] at isStandard
      exact namedByStandard_of_absent standard hasId notList isId isStandard

/-- Otherwise they are not: a class is left over, or is called by an item of the id. -/
theorem hasNames_of_namedByStandard (readFrom : ReadFrom entries shared)
    (named : NamedByStandard entries ((givenNames entries).map shared.named)) : HasNames entries := by
  refine ⟨fun empty => ?_, fun absent => ?_⟩
  · have noName := named.list [] empty
    rw [map_name_named] at noName
    exact givenNames_ne_nil entries noName
  · obtain ⟨c, one, called⟩ := named.absent absent
    obtain ⟨name, given, rfl⟩ := List.map_eq_singleton_iff.1 one
    obtain ⟨id, hasId, isId⟩ := readFrom.id
    have called : name = id.text := called.trans isId
    have isSource := (source?_of_absent absent).trans hasId
    refine ⟨id, hasId, ?_⟩
    rintro items rfl
    cases items with
    | nil =>
        rw [givenNames_of_nameless isSource] at given
        rw [← List.singleton_inj.1 given] at called
        exact absurd called (by decide)
    | cons item items =>
        -- A list of one item would have to be called by that item.
        rw [givenNames_of_source isSource (by simp)] at given
        obtain ⟨rfl, rest⟩ := List.cons.inj given
        obtain rfl := List.map_eq_nil_iff.1 rest
        exact Node.text_seq_ne item called.symm

end Shared

/-- **What the classes of an element are called.**  They are one class under each of its names.
That is by its standards or by its id exactly if neither is a list in the wrong place: under an
empty list of standards there is a class without a name, and an id that is a list gives its items
for names. -/
theorem classes_named_iff (read : ofNode element = .ok classes) :
    ∃ (entries : List (Node × Node)) (shared : PartClass), element.asMapping? = some entries ∧
      classes = (givenNames entries).map shared.named ∧
      (∃ id, Node.field? entries "id" = some id ∧ shared.id = id.text) ∧
      shared.standard = (Node.field? entries "standard").map Node.texts ∧
      (NamedByStandard entries classes ↔ HasNames entries) := by
  obtain ⟨entries, shared, isMapping, isShared, rfl⟩ := ofNode_eq_ok_iff.1 read
  have readFrom := readFrom_of_ofFieldsWithin isShared
  exact ⟨entries, shared, isMapping, rfl, readFrom.id, readFrom.standard, hasNames_of_namedByStandard readFrom,
    fun hasNames => namedByStandard_of_hasNames hasNames readFrom⟩

namespace Example

open ParameterSet.Example (mapping texts)

/-- The entries of a screw, with its id and the standards it is made to. -/
def screwEntries (id standard : Node) : List (Node × Node) := [
  (.str "id", id), (.str "naming", mapping [("template", .str "Screw")]), (.str "source", .str "drawing"),
  (.str "standard", standard)]

/-- A screw that is called by its two standards. -/
def hexScrew : Node := .map (screwEntries (.str "hex") (texts ["DIN931-1", "ISO 4014"]))

/-- A screw with a list of standards, and none in it. -/
def bareScrew : Node := .map (screwEntries (.str "hex") (.seq []))

end Example

/-- Two standards, two classes, each called by its own. -/
theorem classes_named_hexScrew :
    ∃ classes entries, ofNode Example.hexScrew = .ok classes ∧ NamedByStandard entries classes ∧
      classes.map (fun c => (c.name, c.openscadName, c.id)) =
        [("DIN931-1", "DIN931_1", "hex"), ("ISO 4014", "ISO_4014", "hex")] := by
  have shown : (ofNode Example.hexScrew).toOption.map
      (·.map fun c => (c.name, c.openscadName, c.id)) =
        some [("DIN931-1", "DIN931_1", "hex"), ("ISO 4014", "ISO_4014", "hex")] := by decide +kernel
  obtain ⟨classes, isRead, called⟩ := Option.map_eq_some_iff.1 shown
  have read : ofNode Example.hexScrew = .ok classes := toOption_eq_some.1 isRead
  obtain ⟨entries, shared, isMapping, -, -, -, named⟩ := classes_named_iff read
  cases isMapping
  exact ⟨classes, _, read, named.2 ⟨by decide, fun absent => absurd absent (by decide)⟩, called⟩

/-- An empty list of standards gives a class all the same, and it has no name. -/
theorem classes_named_refuted :
    ∃ c, ofNode Example.bareScrew = .ok [c] ∧ c.name = "" ∧ c.standard = some [] ∧
      ¬ NamedByStandard (Example.screwEntries (.str "hex") (.seq [])) [c] := by
  have shown : (ofNode Example.bareScrew).toOption.map (·.map fun c => (c.name, c.standard)) =
      some [("", some [])] := by decide +kernel
  obtain ⟨classes, isRead, called⟩ := Option.map_eq_some_iff.1 shown
  obtain ⟨c, rfl, fields⟩ := List.map_eq_singleton_iff.1 called
  obtain ⟨name, standard⟩ := Prod.mk.inj fields
  refine ⟨c, toOption_eq_some.1 isRead, name, standard, fun named => ?_⟩
  exact List.cons_ne_nil _ _ (named.list [] rfl)

end PartClass

end PartCatalog
