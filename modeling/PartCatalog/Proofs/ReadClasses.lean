/-
# Read classes -- what the classes of an element are made of

An element is read once under each of its names, and once under the empty one where it has none
(`PartClass.ofNode_eq_mapM`).  The name has no part in what is read (`PartClass.ofFields_eq_map`),
so the classes of an element differ in nothing but their names, and fail alike.  A class has its
id, its standards and its parameters from the fields of its element, and is read without a
successor (`PartClass.ReadFrom`).
-/
import PartCatalog.Collection
import PartCatalog.Proofs.Outcome

set_option autoImplicit false

namespace PartCatalog

open Outcome

/-! ## Elements -/

namespace Element

variable {element name : String} {mandatory optional : List String} {entries : List (Node × Node)} {node : Node}

theorem check_eq_ok_iff :
    check element mandatory optional entries = .ok () ↔
      Schema.check element mandatory optional entries = .ok () := by
  rw [check, Load.ofDeclaration, mapError_eq_ok, mapError_eq_ok]

theorem field_eq_ok_iff : field element entries name = .ok node ↔ Node.field? entries name = some node := by
  rw [field, Load.ofDeclaration, mapError_eq_ok, Declaration.field_eq_ok_iff]

end Element

namespace PartClass

variable {element : Node} {entries : List (Node × Node)} {name : String} {c : PartClass}
  {cs : List PartClass} {e : LoadError}

/-! ## One element under several names -/

/-- A class under another name. -/
def named (c : PartClass) (name : String) : PartClass :=
  { c with name, openscadName := identifier name }

@[simp] theorem name_named (c : PartClass) (name : String) : (c.named name).name = name := rfl

@[simp] theorem id_named (c : PartClass) (name : String) : (c.named name).id = c.id := rfl

@[simp] theorem standard_named (c : PartClass) (name : String) : (c.named name).standard = c.standard := rfl

/-- The name has no part in what is read. -/
theorem ofFields_eq_map (entries : List (Node × Node)) (name : String) :
    ofFields entries name = (ofFields entries "").map (·.named name) := by
  unfold ofFields
  simp only [map_bind]
  rfl

theorem ofFields_eq_error_iff : ofFields entries name = .error e ↔ ofFields entries "" = .error e := by
  rw [ofFields_eq_map, map_eq_error]

theorem ofFieldsWithin_eq_ok_iff :
    ofFieldsWithin entries name = .ok c ↔
      ∃ shared, ofFieldsWithin entries "" = .ok shared ∧ c = shared.named name := by
  simp only [ofFieldsWithin, Load.within, mapError_eq_ok]
  rw [ofFields_eq_map, map_eq_ok]
  simp only [eq_comm]

/-- The names an element is read under. -/
def givenNames (entries : List (Node × Node)) : List String :=
  if elementNames entries = [] then [""] else elementNames entries

theorem givenNames_ne_nil (entries : List (Node × Node)) : givenNames entries ≠ [] := by
  unfold givenNames
  split
  · exact List.cons_ne_nil _ _
  · assumption

theorem ofNode_eq_mapM (isMapping : element.asMapping? = some entries) :
    ofNode element = (givenNames entries).mapM (ofFieldsWithin entries) := by
  simp only [ofNode, isMapping, givenNames]
  cases elementNames entries with
  | nil =>
      rw [if_pos rfl, List.mapM_cons, List.mapM_nil]
      cases ofFieldsWithin entries "" <;> rfl
  | cons name names => rfl

theorem exists_asMapping_of_ofNode (read : ofNode element = .ok cs) :
    ∃ entries, element.asMapping? = some entries := by
  cases isMapping : element.asMapping? with
  | some entries => exact ⟨entries, rfl⟩
  | none =>
      rw [ofNode, isMapping] at read
      cases read

/-- Each class of an element is read from its entries under one name. -/
theorem exists_ofFieldsWithin (read : ofNode element = .ok cs) :
    ∀ c ∈ cs, ∃ entries name, ofFieldsWithin entries name = .ok c := by
  obtain ⟨entries, isMapping⟩ := exists_asMapping_of_ofNode read
  rw [ofNode_eq_mapM isMapping, mapM_eq_ok] at read
  intro c member
  obtain ⟨name, -, readOne⟩ := exists_left_of_forall₂ read c member
  exact ⟨entries, name, readOne⟩

/-! ## One class -/

/-- What a class has from the entries of its element. -/
structure ReadFrom (entries : List (Node × Node)) (c : PartClass) : Prop where
  id : ∃ node, Node.field? entries "id" = some node ∧ c.id = node.text
  standard : c.standard = (Node.field? entries "standard").map Node.texts
  parameters : Element.parameters (Node.field? entries "parameters") = .ok c.parameters
  unreplaced : c.replacedBy = none

theorem readFrom_of_ofFieldsWithin (read : ofFieldsWithin entries name = .ok c) : ReadFrom entries c := by
  simp only [ofFieldsWithin, Load.within, mapError_eq_ok, ofFields, bind_eq_ok, pure_eq,
    Except.ok.injEq] at read
  obtain ⟨-, -, -, -, naming, -, status, -, params, readParams, id, isId, source, -, rfl⟩ := read
  constructor
  case id => exact ⟨id, Element.field_eq_ok_iff.1 isId, rfl⟩
  case standard => rfl
  case parameters => exact readParams
  case unreplaced => rfl

end PartClass

/-! ## Collections -/

namespace Collection

variable {document : Node} {root header : List (Node × Node)} {coll : Collection}

/-- A document is read as far as its header if both fit their schemas, and the version is the
current one. -/
theorem readHeader_eq_ok_iff :
    readHeader document = .ok (root, header) ↔
      document.asMapping? = some root ∧
        Schema.check "collection file" ["collection", "classes"] [] root = .ok () ∧
        (∃ node, Node.field? root "collection" = some node ∧ node.asMapping? = some header) ∧
        Schema.check "collection" headerMandatory headerOptional header = .ok () ∧
        ∃ version, Node.field? header "blt-version" = some version ∧ checkVersion version = .ok () := by
  unfold readHeader
  cases document.asMapping? with
  | none => simp [Load.fail, bind_eq_ok]
  | some entries =>
      simp only [bind_eq_ok, Element.field_eq_ok_iff]
      constructor
      · rintro ⟨_, ⟨⟩, ⟨⟩, rootFits, node, isNode, rest⟩
        cases isMapping : node.asMapping? with
        | none => simp [isMapping, Load.fail, bind_eq_ok] at rest
        | some entries' =>
            simp only [isMapping, bind_eq_ok, pure_eq] at rest
            obtain ⟨_, ⟨⟩, ⟨⟩, headerFits, version, isVersion, ⟨⟩, isCurrent, ⟨⟩⟩ := rest
            exact ⟨rfl, Element.check_eq_ok_iff.1 rootFits, ⟨node, isNode, isMapping⟩,
              Element.check_eq_ok_iff.1 headerFits, version, Element.field_eq_ok_iff.1 isVersion, isCurrent⟩
      · rintro ⟨⟨⟩, rootFits, ⟨node, isNode, isMapping⟩, headerFits, version, isVersion, isCurrent⟩
        refine ⟨_, rfl, (), Element.check_eq_ok_iff.2 rootFits, node, isNode, ?_⟩
        simp only [isMapping, bind_eq_ok, pure_eq]
        exact ⟨header, rfl, (), Element.check_eq_ok_iff.2 headerFits, version,
          Element.field_eq_ok_iff.2 isVersion, (), isCurrent, rfl⟩

theorem readClasses_of_ofNode (read : ofNode document = .ok coll) :
    ∃ elements, readClasses elements = .ok coll.classes := by
  simp only [ofNode, bind_eq_ok, pure_eq, Except.ok.injEq] at read
  obtain ⟨⟨root, header⟩, -, id, -, -, -, authors, -, -, -, license, -, -, -, elements, -, classes, reads,
    rfl⟩ := read
  exact ⟨elements, reads⟩

/-- Each class of a collection is read from an element under one name. -/
theorem exists_ofFieldsWithin (read : ofNode document = .ok coll) :
    ∀ c ∈ coll.classes, ∃ entries name, PartClass.ofFieldsWithin entries name = .ok c := by
  obtain ⟨elements, reads⟩ := readClasses_of_ofNode read
  obtain ⟨lists, readLists, flat⟩ := map_eq_ok.1 reads
  rw [← flat]
  intro c member
  obtain ⟨cs, isList, inList⟩ := List.mem_flatten.1 member
  obtain ⟨element, -, readOne⟩ := exists_left_of_forall₂ (mapM_eq_ok.1 readLists) cs isList
  exact PartClass.exists_ofFieldsWithin (mapError_eq_ok.1 readOne) c inList

end Collection

end PartCatalog
