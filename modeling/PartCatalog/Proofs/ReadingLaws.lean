/-
# Laws of reading -- what a set read from an element is made of

`Reading` names, for each field of a parameter set, the section it was read from and
the reader that did it; `ofNode_eq_ok` says that an element can be read exactly when its
sections can.  The other laws say what each section gives: every parameter has a type
(`keys_of_readTypes`), only parameters are described (`keys_of_readDescription`), every
free parameter has a default its type admits (`keys_of_readDefaults`,
`admits_of_readDefaults`).
-/
import PartCatalog.Proofs.CommonLaws
import PartCatalog.Proofs.SchemaLaws

set_option autoImplicit false

namespace PartCatalog.ParameterSet

open Outcome

/-! ## The sections -/

/-- The common combinations of a set for a declaration that may be missing. -/
def readCommon (params : ParameterSet) (declared? : Option Node) :
    Declaration.Result (Option (List (List Value))) :=
  match declared? with
  | some declared => (params.expandCommon declared).map some
  | none => .ok params.allCombinations?

/-- How the fields of a set come from the entries of an element, by way of the tables as
they are written there. -/
structure Reading (entries : List (Node × Node)) (raws : List (Table Node))
    (raws2d : List (Table2D Node)) (params : ParameterSet) : Prop where
  literal : readLiteral (Node.field? entries "literal") = .ok params.literal
  free : readFree (Node.field? entries "free") = .ok params.free
  written : readMany Table.ofNode (Node.field? entries "tables") = .ok raws
  written2d : readMany Table2D.ofNode (Node.field? entries "tables2d") = .ok raws2d
  parameters : params.parameters = parameterNames params.literal params.free raws raws2d
  types : readTypes params.parameters (Node.field? entries "types") = .ok params.types
  description :
    readDescription params.parameters (Node.field? entries "description") = .ok params.description
  tables : raws.mapM (Table.typed params.types) = .ok params.tables
  tables2d : raws2d.mapM (Table2D.typed params.types) = .ok params.tables2d
  defaults : readDefaults params.free params.types (Node.field? entries "defaults") = .ok params.defaults
  choices :
    params.choices = Choices.compute params.free params.types params.tables params.tables2d
  common : params.readCommon (Node.field? entries "common") = .ok params.common

theorem asMapping?_of_fields {element : String} {mandatory optional : List String} {node : Node}
    {entries : List (Node × Node)}
    (fields : Declaration.fields element mandatory optional node = .ok entries) :
    node.asMapping? = some entries :=
  (Declaration.fields_eq_ok.1 fields).1

/-- An element is read exactly when all its sections are. -/
theorem ofNode_eq_ok {node : Node} {params : ParameterSet} :
    ofNode node = .ok params ↔
      ∃ entries raws raws2d,
        Declaration.fields "parameters" [] sections node = .ok entries ∧
          Reading entries raws raws2d params := by
  constructor
  · intro read
    simp only [ofNode, bind_eq_ok, Declaration.ofCell, mapError_eq_ok] at read
    obtain ⟨entries, fields, literal, isLiteral, free, isFree, raws, written, raws2d, written2d,
      types, areTypes, description, isDescription, tables, areTables, tables2d, areTables2d,
      defaults, areDefaults, rest⟩ := read
    refine ⟨entries, raws, raws2d, fields, ?_⟩
    split at rest
    · next declared found =>
      -- Combinations are expanded before they are put in, which does not change them.
      obtain ⟨combos, expanded, rfl⟩ := map_eq_ok.1 rest
      refine ⟨isLiteral, isFree, written, written2d, rfl, areTypes, isDescription, areTables,
        areTables2d, areDefaults, rfl, ?_⟩
      rw [found]
      exact map_eq_ok.2 ⟨combos, expanded, rfl⟩
    · next missing =>
      cases rest
      refine ⟨isLiteral, isFree, written, written2d, rfl, areTypes, isDescription, areTables,
        areTables2d, areDefaults, rfl, ?_⟩
      rw [missing]
      rfl
  · rintro ⟨entries, raws, raws2d, fields, reading⟩
    have common := reading.common
    simp only [ofNode, bind_eq_ok, Declaration.ofCell, mapError_eq_ok]
    refine ⟨entries, fields, params.literal, reading.literal, params.free, reading.free, raws,
      reading.written, raws2d, reading.written2d, params.types, ?_, params.description, ?_,
      params.tables, reading.tables, params.tables2d, reading.tables2d, params.defaults,
      reading.defaults, ?_⟩
    · rw [← reading.parameters]
      exact reading.types
    · rw [← reading.parameters]
      exact reading.description
    · rw [← reading.parameters, ← reading.choices]
      cases found : Node.field? entries "common" with
      | some declared =>
          rw [found] at common
          obtain ⟨combos, expanded, isCommon⟩ := map_eq_ok.1 common
          have same : { params with common := some combos } = params := by rw [isCommon]
          exact map_eq_ok.2 ⟨combos, expanded, same⟩
      | none =>
          rw [found, readCommon, Except.ok.injEq] at common
          have same : { params with common := params.allCombinations? } = params := by rw [common]
          exact congrArg Except.ok same

/-- The elements of a section: those of an untagged list, or the one that stands there. -/
def elements : Option Node → List Node
  | none => []
  | some (.seq items) => items
  | some node => [node]

theorem readMany_eq_mapM {α : Type} (readOne : Node → Declaration.Result α) (section? : Option Node) :
    readMany readOne section? = (elements section?).mapM readOne := by
  have one : ∀ node, (readOne node).map (fun x => [x]) = [node].mapM readOne := by
    intro node
    rw [List.mapM_cons, List.mapM_nil]
    cases readOne node <;> rfl
  cases section? with
  | none => rfl
  | some node =>
      cases node with
      | seq items => rfl
      | _ => exact one _

theorem exists_of_readMany {α : Type} {readOne : Node → Declaration.Result α}
    {section? : Option Node} {xs : List α} (read : readMany readOne section? = .ok xs) :
    ∀ x ∈ xs, ∃ node, readOne node = .ok x := by
  intro x member
  rw [readMany_eq_mapM] at read
  obtain ⟨node, -, one⟩ := exists_left_of_forall₂ (mapM_eq_ok.1 read) x member
  exact ⟨node, one⟩

/-- A section of one element is read as that element. -/
theorem readMany_of_only {α : Type} {readOne : Node → Declaration.Result α} {section? : Option Node}
    {element : Node} {x : α} (notList : ∀ items, element ≠ .seq items)
    (only : section? = some element ∨ section? = some (.seq [element]))
    (read : readMany readOne section? = .ok [x]) : readOne element = .ok x := by
  have isOnly : elements section? = [element] := by
    rcases only with rfl | rfl
    · cases element with
      | seq items => exact absurd rfl (notList items)
      | _ => rfl
    · rfl
  rw [readMany_eq_mapM, isOnly] at read
  exact (List.forall₂_cons.1 (mapM_eq_ok.1 read)).1

/-! ## Names -/

theorem mem_parameterNames {literal : NameMap Value} {free : List String}
    {tables : List (Table Node)} {tables2d : List (Table2D Node)} {name : String} :
    name ∈ NameMap.keys (parameterNames literal free tables tables2d) ↔
      name ∈ literal.keys ∨ name ∈ free ∨ (∃ table ∈ tables, name ∈ table.parameters) ∨
        ∃ table ∈ tables2d, name ∈ table.parameters := by
  simp only [parameterNames, NameSet.mem_keys_ofNames, List.mem_append, List.mem_flatMap, or_assoc]

theorem keys_of_readTypes {parameters : NameSet} {section? : Option Node} {types : TypeMap}
    (read : readTypes parameters section? = .ok types) :
    NameMap.keys types = NameMap.keys parameters := by
  obtain ⟨declared, -, rfl⟩ := map_eq_ok.1 read
  rw [NameMap.keys_mapWithName]

theorem keys_of_readNamed {α : Type} {place : String} {parameters : NameSet}
    {readOne : String → Node → Declaration.Result α} {section? : Option Node} {named : NameMap α}
    (read : readNamed place parameters readOne section? = .ok named) :
    ∀ name ∈ named.keys, name ∈ NameMap.keys parameters := by
  intro name member
  unfold readNamed at read
  split at read
  · cases read
    simp at member
  · simp only [bind_eq_ok, pure_eq, Except.ok.injEq] at read
    obtain ⟨entries, -, list, reads, rfl⟩ := read
    obtain ⟨⟨listed, x⟩, inList, rfl⟩ := List.mem_map.1 (NameMap.mem_keys_ofList.1 member)
    obtain ⟨⟨key, value⟩, -, one⟩ := exists_left_of_forall₂ (mapM_eq_ok.1 reads) _ inList
    split at one
    · next known =>
      obtain ⟨y, -, same⟩ := map_eq_ok.1 one
      cases same
      exact NameMap.contains_iff.1 known
    · cases one

theorem keys_of_readDescription {parameters : NameSet} {section? : Option Node}
    {description : NameMap String} (read : readDescription parameters section? = .ok description) :
    ∀ name ∈ description.keys, name ∈ NameMap.keys parameters :=
  keys_of_readNamed read

/-! ## Defaults -/

theorem readDefaults_eq_ok {free : List String} {types : TypeMap} {section? : Option Node}
    {defaults : NameMap Value} (read : readDefaults free types section? = .ok defaults) :
    ∃ declared : List (String × Value),
      (∀ e ∈ declared, (types.typeOf e.1).Admits e.2) ∧
        defaults = (NameSet.ofNames free).mapWithName fun name _ =>
          ((NameMap.ofList declared).get? name).getD (types.typeOf name).defaultValue := by
  cases section? <;>
    simp only [readDefaults, bind_eq_ok, pure_eq, Except.ok.injEq] at read <;>
    obtain ⟨entries, -, declared, reads, rfl⟩ := read
  all_goals
    refine ⟨declared, fun e member => ?_, rfl⟩
    obtain ⟨⟨key, cell⟩, -, one⟩ := exists_left_of_forall₂ (mapM_eq_ok.1 reads) e member
    split at one
    · obtain ⟨value, typed, rfl⟩ := map_eq_ok.1 one
      exact ParameterType.admits_of_normalize (mapError_eq_ok.1 typed)
    · cases one

theorem keys_of_readDefaults {free : List String} {types : TypeMap} {section? : Option Node}
    {defaults : NameMap Value} (read : readDefaults free types section? = .ok defaults)
    {name : String} : name ∈ defaults.keys ↔ name ∈ free := by
  obtain ⟨declared, -, rfl⟩ := readDefaults_eq_ok read
  rw [NameMap.keys_mapWithName, NameSet.mem_keys_ofNames]

theorem admits_of_readDefaults {free : List String} {types : TypeMap} {section? : Option Node}
    {defaults : NameMap Value} (read : readDefaults free types section? = .ok defaults)
    (known : ∀ name ∈ free, name ∈ NameMap.keys types) {name : String} {value : Value}
    (found : defaults.get? name = some value) : types.Admits name value := by
  have isFree : name ∈ free := (keys_of_readDefaults read).1 (NameMap.mem_keys_of_get? found)
  refine ⟨types.typeOf name, TypeMap.get?_eq_typeOf (known name isFree), ?_⟩
  obtain ⟨declared, admitted, rfl⟩ := readDefaults_eq_ok read
  rw [NameMap.get?_mapWithName] at found
  obtain ⟨_, -, rfl⟩ := Option.map_eq_some_iff.1 found
  cases given : (NameMap.ofList declared).get? name with
  | none => exact ParameterType.admits_defaultValue _
  | some v =>
      rw [NameMap.get?_ofList] at given
      exact admitted (name, v) (NameMap.mem_of_lastEntry given)

end PartCatalog.ParameterSet
