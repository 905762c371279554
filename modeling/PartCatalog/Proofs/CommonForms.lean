/-
# Forms of common combinations -- one list of positions, or a list of such lists

A set with declared combinations is the set without them, with what the declaration says in
the place of all combinations (`ofNode_declaring_iff`).  A declaration is told apart by its
shape: a list of lists of positions is read as one combination after the other
(`expandCommon_lists`), any other list as the positions of one combination
(`expandCommon_single`).  So `:` for each free parameter declares what is common anyway, in
both forms (`common_of_every_value`).  One list of positions means the same alone and in a
list of its own, but for one shape: where each position is a list and lists nothing but `:`,
it looks like several combinations and is read as these (`common_flat_iff_nested`,
`common_flat_iff_nested_refuted`).
-/
import PartCatalog.Proofs.AllCombinations

set_option autoImplicit false

namespace PartCatalog.ParameterSet

open Outcome

variable {params params' : ParameterSet} {node declaring declared : Node}
  {before after entries entries' : List (Node × Node)}

/-! ## Adding a declaration -/

/-- Whether an element is another one with a declaration of common combinations among its
entries. -/
structure Declares (before after : List (Node × Node)) (node declaring declared : Node) : Prop where
  entries : node.asMapping? = some (before ++ after)
  undeclared : Node.field? (before ++ after) "common" = none
  declaring : declaring.asMapping? = some (before ++ (.str "common", declared) :: after)

theorem Declares.field?_common (declares : Declares before after node declaring declared) :
    Node.field? (before ++ (.str "common", declared) :: after) "common" = some declared := by
  have undeclared := declares.undeclared
  simp only [Node.field?_eq_map_entryNamed?, Node.entryNamed?, List.find?_append, Option.map_eq_none_iff,
    Option.or_eq_none_iff] at undeclared ⊢
  rw [undeclared.1]
  simp [Node.isString]

theorem field?_of_ne {name : String} (other : name ≠ "common") :
    Node.field? (before ++ (.str "common", declared) :: after) name = Node.field? (before ++ after) name := by
  have skipped : (Node.str "common").isString name = false := by simp [Node.isString, other.symm]
  simp [Node.field?_eq_map_entryNamed?, Node.entryNamed?, List.find?_append, skipped]

/-- The declaration is a section, so it passes where the other entries do. -/
theorem check_declaring_iff :
    Schema.check "parameters" [] sections (before ++ (.str "common", declared) :: after) = .ok () ↔
      Schema.check "parameters" [] sections (before ++ after) = .ok () := by
  have isSection : (Node.str "common").text ∈ sections := by decide
  simp only [Schema.check_eq_ok, List.forall_mem_append, List.forall_mem_cons, isSection, or_true, true_and,
    List.nil_diff]

/-- Only the common combinations are read from their section. -/
theorem Reading.withCommon {raws : List (Table Node)} {raws2d : List (Table2D Node)}
    (reading : Reading entries raws raws2d params)
    (same : ∀ name, name ≠ "common" → Node.field? entries' name = Node.field? entries name)
    {common : Option (List (List Value))}
    (isCommon : params.readCommon (Node.field? entries' "common") = .ok common) :
    Reading entries' raws raws2d { params with common } where
  literal := by rw [same _ (by decide)]; exact reading.literal
  free := by rw [same _ (by decide)]; exact reading.free
  written := by rw [same _ (by decide)]; exact reading.written
  written2d := by rw [same _ (by decide)]; exact reading.written2d
  parameters := reading.parameters
  types := by rw [same _ (by decide)]; exact reading.types
  description := by rw [same _ (by decide)]; exact reading.description
  tables := reading.tables
  tables2d := reading.tables2d
  defaults := by rw [same _ (by decide)]; exact reading.defaults
  choices := reading.choices
  common := isCommon

/-- An element with a declaration is read as the one without it, but for what is common. -/
theorem ofNode_declaring_iff (declares : Declares before after node declaring declared) :
    ofNode declaring = .ok params' ↔
      ∃ params combos, ofNode node = .ok params ∧ params.expandCommon declared = .ok combos ∧
        params' = { params with common := some combos } := by
  have isCommon := declares.field?_common
  constructor
  · intro read
    obtain ⟨entries, raws, raws2d, fields, reading⟩ := ofNode_eq_ok.1 read
    obtain ⟨isMapping, passed⟩ := Declaration.fields_eq_ok.1 fields
    obtain rfl := Option.some.inj (declares.declaring.symm.trans isMapping)
    have common := reading.common
    rw [isCommon] at common
    obtain ⟨combos, expanded, found⟩ := map_eq_ok.1 common
    have undeclared : params'.readCommon (Node.field? (before ++ after) "common") =
        .ok params'.allCombinations? := by rw [declares.undeclared]; rfl
    refine ⟨{ params' with common := params'.allCombinations? }, combos, ofNode_eq_ok.2 ?_, expanded, ?_⟩
    · exact ⟨_, raws, raws2d, Declaration.fields_eq_ok.2 ⟨declares.entries, check_declaring_iff.1 passed⟩,
        reading.withCommon (fun _ other => (field?_of_ne other).symm) undeclared⟩
    · rw [found]
  · rintro ⟨params, combos, read, expanded, rfl⟩
    obtain ⟨entries, raws, raws2d, fields, reading⟩ := ofNode_eq_ok.1 read
    obtain ⟨isMapping, passed⟩ := Declaration.fields_eq_ok.1 fields
    obtain rfl := Option.some.inj (declares.entries.symm.trans isMapping)
    refine ofNode_eq_ok.2 ⟨_, raws, raws2d,
      Declaration.fields_eq_ok.2 ⟨declares.declaring, check_declaring_iff.2 passed⟩,
      reading.withCommon (fun _ other => field?_of_ne other) ?_⟩
    rw [isCommon]
    exact map_eq_ok.2 ⟨combos, expanded, rfl⟩

theorem ofNode_declaring_iff_of_read (declares : Declares before after node declaring declared)
    (read : ofNode node = .ok params) :
    ofNode declaring = .ok params' ↔
      ∃ combos, params.expandCommon declared = .ok combos ∧
        params' = { params with common := some combos } := by
  simp only [ofNode_declaring_iff declares, read, Except.ok.injEq, exists_and_left, exists_eq_left']

/-- Without the declaration all combinations are common. -/
theorem Declares.common_eq (declares : Declares before after node declaring declared)
    (read : ofNode node = .ok params) : params.common = params.allCombinations? := by
  refine common_eq_allCombinations? read fun entries isMapping => ?_
  obtain rfl := Option.some.inj (declares.entries.symm.trans isMapping)
  exact declares.undeclared

/-! ## The two forms -/

/-- A list of entries that are all lists of positions is read as the combinations of one entry
after the other. -/
theorem expandCommon_entries {entries : List Node} {lists : List (List Node)} (some_entry : entries ≠ [])
    (areLists : entries.mapM positions? = some lists) :
    params.expandCommon (.seq entries) = (lists.mapM params.expandPositions).map List.flatten := by
  cases entries with
  | nil => exact absurd rfl some_entry
  | cons entry entries => simp only [expandCommon, Node.asSequence?, Node.untagged, areLists]

/-- A list of lists of positions is read as the combinations of one list after the other. -/
theorem expandCommon_lists {lists : List (List Node)} (some_list : lists ≠ [])
    (positions : ∀ list ∈ lists, ∀ x ∈ list, isPosition x = true) :
    params.expandCommon (.seq (lists.map .seq)) =
      (lists.mapM params.expandPositions).map List.flatten := by
  refine expandCommon_entries (mt List.map_eq_nil_iff.1 some_list) ?_
  refine mapM_eq_some.2 (List.forall₂_map_left_iff.2 (List.forall₂_same.2 fun list member => ?_))
  simp only [positions?, Node.asSequence?, Node.untagged, Option.filter_some, List.all_eq_true]
  exact if_pos (positions list member)

/-- A list with an item that is no list of positions is read as the positions of one
combination, as an empty one is. -/
theorem expandCommon_flat {specs : List Node}
    (single : specs = [] ∨ ∃ spec ∈ specs, positions? spec = none) :
    params.expandCommon (.seq specs) = params.expandPositions specs := by
  cases specs with
  | nil => rfl
  | cons spec specs =>
      have notNested : (spec :: specs).mapM positions? = none := by
        rw [Option.eq_none_iff_forall_ne_some]
        intro lists isNested
        obtain absurd' | ⟨x, member, none⟩ := single
        · cases absurd'
        · obtain ⟨list, -, found⟩ := exists_left_of_forall₂ (mapM_eq_some.1 isNested).flip x member
          rw [none] at found
          cases found
      simp only [expandCommon, Node.asSequence?, Node.untagged, notNested]

/-- In a list of its own, a list of positions is read as one combination. -/
theorem expandCommon_single {specs : List Node} (positions : ∀ spec ∈ specs, isPosition spec = true) :
    params.expandCommon (.seq [.seq specs]) = params.expandPositions specs := by
  have one : params.expandCommon (.seq ([specs].map .seq)) =
      ([specs].mapM params.expandPositions).map List.flatten :=
    expandCommon_lists (List.cons_ne_nil specs []) (List.forall_mem_singleton.2 positions)
  rw [List.map_singleton] at one
  rw [one, List.mapM_cons, List.mapM_nil]
  cases params.expandPositions specs with
  | error e => rfl
  | ok combos => exact congrArg Except.ok (List.append_nil combos)

/-! ## Positions -/

/-- Whether a position stands for some values of a free parameter: `:` for all of them, a list
for those that its cells are read as. -/
def Denotes (params : ParameterSet) (name : String) (position : Node) (domain : List Value) : Prop :=
  (position = .str fullDomainWord ∧ params.fullDomain name = .ok domain) ∨
    ∃ cells, position = .seq cells ∧
      List.Forall₂ (fun cell v => (params.types.typeOf name).normalize name cell = .ok v) cells domain

theorem positionDomain_eq_ok {name : String} {position : Node} {domain : List Value} :
    params.positionDomain name position = .ok domain ↔ params.Denotes name position domain := by
  unfold positionDomain Denotes
  cases position with
  | str word =>
      by_cases isWord : word = fullDomainWord <;> simp [isWord, mapError_eq_ok]
  | seq cells => simp [mapM_eq_ok, Declaration.ofCell, mapError_eq_ok]
  | _ => simp

/-- A list of positions has one for each free parameter, and stands for the cross product of
what they stand for. -/
theorem expandPositions_eq_ok {positions : List Node} {combos : List (List Value)} :
    params.expandPositions positions = .ok combos ↔
      params.free.length = positions.length ∧
        ∃ domains, List.Forall₂ (fun e domain => params.Denotes e.1 e.2 domain)
          (params.free.zip positions) domains ∧ combos = crossProduct domains := by
  unfold expandPositions
  by_cases sameLength : positions.length = params.free.length
  · simp only [sameLength, if_true, map_eq_ok, mapM_eq_ok, positionDomain_eq_ok, true_and,
      @eq_comm _ combos]
  · simp [sameLength, @eq_comm _ params.free.length]

/-- The word for every value, once for each free parameter. -/
def everyValue (params : ParameterSet) : List Node := params.free.map fun _ => .str fullDomainWord

theorem isPosition_of_mem_everyValue : ∀ x ∈ params.everyValue, isPosition x = true := by
  intro x member
  obtain ⟨name, -, rfl⟩ := List.mem_map.1 member
  rfl

/-- Every value of each free parameter makes up all combinations, if there are such. -/
theorem expandPositions_everyValue {combos : List (List Value)} :
    params.expandPositions params.everyValue = .ok combos ↔ params.allCombinations? = some combos := by
  have paired : params.free.zip params.everyValue =
      params.free.map fun name => (name, Node.str fullDomainWord) := by
    have together : (params.free.map id).zip params.everyValue =
        params.free.map fun name => (name, Node.str fullDomainWord) := List.zip_map'
    rwa [List.map_id] at together
  have denotes : ∀ name domain, params.Denotes name (.str fullDomainWord) domain ↔
      params.fullDomain name = .ok domain := by
    simp [Denotes]
  rw [expandPositions_eq_ok, allCombinations?_eq_some, paired]
  simp only [everyValue, List.length_map, true_and, List.forall₂_map_left_iff, denotes]

/-- Positions that only say `:` are accepted where each does so for a free parameter and
without a tag. -/
theorem eq_everyValue_of_words {cells : List Node} {combos : List (List Value)}
    (words : ∀ cell ∈ cells, cell.asString? = some fullDomainWord)
    (expanded : params.expandPositions cells = .ok combos) : cells = params.everyValue := by
  obtain ⟨sameLength, domains, denote, -⟩ := expandPositions_eq_ok.1 expanded
  have isWord : ∀ cell ∈ cells, cell = .str fullDomainWord := by
    intro cell member
    have isSecond : cell ∈ (params.free.zip cells).map Prod.snd := by
      rwa [List.map_snd_zip (Nat.le_of_eq sameLength.symm)]
    obtain ⟨⟨name, cell⟩, paired, rfl⟩ := List.mem_map.1 isSecond
    obtain ⟨domain, -, ⟨isWord, -⟩ | ⟨items, isList, -⟩⟩ := exists_left_of_forall₂ denote.flip _ paired
    · exact isWord
    · have noWord := words _ member
      rw [isList] at noWord
      cases noWord
  rw [everyValue, List.map_const', sameLength]
  exact List.eq_replicate_iff.2 ⟨rfl, isWord⟩

/-! ## Declaring what is common anyway -/

/-- **Every value of each free parameter is what is common where nothing is declared.**  An
element that declares it, as the positions of a combination or as a list of one such, can be
read exactly when the one without the declaration has common combinations, and is then read as
the same set. -/
theorem common_of_every_value (read : ofNode node = .ok params)
    (declares : Declares before after node declaring declared)
    (everything : declared = .seq params.everyValue ∨ declared = .seq [.seq params.everyValue]) :
    ((∃ params', ofNode declaring = .ok params') ↔ params.common.isSome = true) ∧
      ∀ params', ofNode declaring = .ok params' → params' = params := by
  have notLists : params.everyValue = [] ∨ ∃ spec ∈ params.everyValue, positions? spec = none := by
    unfold everyValue
    cases params.free with
    | nil => exact .inl rfl
    | cons name names => exact .inr ⟨_, List.mem_cons_self, rfl⟩
  have expands : params.expandCommon declared = params.expandPositions params.everyValue := by
    rcases everything with rfl | rfl
    · exact expandCommon_flat notLists
    · exact expandCommon_single isPosition_of_mem_everyValue
  have isCommon := declares.common_eq read
  have same : ∀ params', ofNode declaring = .ok params' ↔
      ∃ combos, params.common = some combos ∧ params' = { params with common := some combos } := by
    simp only [ofNode_declaring_iff_of_read declares read, expands, expandPositions_everyValue, isCommon,
      implies_true]
  refine ⟨?_, fun params' read' => ?_⟩
  · rw [Option.isSome_iff_exists]
    constructor
    · rintro ⟨params', read'⟩
      obtain ⟨combos, all, -⟩ := (same params').1 read'
      exact ⟨combos, all⟩
    · rintro ⟨combos, all⟩
      exact ⟨_, (same _).2 ⟨combos, all, rfl⟩⟩
  · obtain ⟨combos, all, rfl⟩ := (same params').1 read'
    rw [← all]

namespace Example

/-- The sections of a bolt: it has the sizes of its table, and may be coated. -/
def boltSections : List (String × Node) := [
  ("free", texts ["size", "coated"]),
  ("types", mapping [("size", .str "Table Index"), ("coated", .str "Bool")]),
  ("tables", mapping [("index", .str "size"), ("columns", texts ["d"]),
    ("data", mapping [("M3", texts ["None"]), ("M4", texts ["None"])])])]

/-- The bolt with a declaration of what is common. -/
def declaringBolt (declared : Node) : Node := mapping (boltSections ++ [("common", declared)])

theorem declares_bolt (declared : Node) :
    Declares (boltSections.map fun (key, x) => (.str key, x)) [] (mapping boltSections)
      (declaringBolt declared) declared where
  entries := rfl
  undeclared := rfl
  declaring := rfl

def bolt : ParameterSet := result (ofNode (mapping boltSections))

theorem read_bolt : ofNode (mapping boltSections) = .ok bolt := eq_ok_result (by decide)

theorem everyValue_bolt : bolt.everyValue = [.str ":", .str ":"] := by
  have free : bolt.free = ["size", "coated"] := by decide
  rw [everyValue, free]
  rfl

end Example

/-- The bolt is the same with all its combinations declared, in both forms, and without. -/
theorem common_of_every_value_bolt :
    ofNode (Example.mapping Example.boltSections) = .ok Example.bolt ∧
      ofNode (Example.declaringBolt (Example.texts [":", ":"])) = .ok Example.bolt ∧
      ofNode (Example.declaringBolt (.seq [Example.texts [":", ":"]])) = .ok Example.bolt := by
  have isCommon : Example.bolt.common.isSome = true := by decide
  have isEvery : Example.texts [":", ":"] = .seq Example.bolt.everyValue := by
    rw [Example.everyValue_bolt]
    rfl
  obtain ⟨accepted, same⟩ := common_of_every_value Example.read_bolt (Example.declares_bolt _) (.inl isEvery)
  obtain ⟨accepted', same'⟩ := common_of_every_value Example.read_bolt
    (Example.declares_bolt (.seq [Example.texts [":", ":"]])) (.inr (by rw [isEvery]))
  obtain ⟨flat, read⟩ := accepted.2 isCommon
  obtain ⟨nested, read'⟩ := accepted'.2 isCommon
  exact ⟨Example.read_bolt, same _ read ▸ read, same' _ read' ▸ read'⟩

/-! ## One combination in both forms -/

/-- Whether a node is `:` or a list without a list in it, such as one of scalars. -/
def IsDomainSpec : Node → Prop
  | .str word => word = fullDomainWord
  | .seq cells => ∀ cell ∈ cells, ∀ items, cell ≠ .seq items
  | _ => False

/-- Whether a node is a list with nothing in it but `:`, tagged or not. -/
def ListsWord (spec : Node) : Prop :=
  ∃ cells, spec = .seq cells ∧ ∀ cell ∈ cells, cell.asString? = some fullDomainWord

theorem IsDomainSpec.isPosition {spec : Node} (isSpec : IsDomainSpec spec) : isPosition spec = true := by
  cases spec with
  | str word =>
      obtain rfl : word = fullDomainWord := isSpec
      rfl
  | seq cells => rfl
  | _ => cases isSpec

theorem isPosition_of_word {cell : Node} (isWord : cell.asString? = some fullDomainWord) :
    isPosition cell = true := by
  cases cell with
  | seq items => rfl
  | _ => exact decide_eq_true isWord

/-- A position of one combination is no list of positions unless it lists nothing but `:`. -/
theorem IsDomainSpec.positions?_eq_none {spec : Node} (isSpec : IsDomainSpec spec)
    (other : ¬ ListsWord spec) : positions? spec = none := by
  cases spec with
  | str word => rfl
  | seq cells =>
      refine if_neg fun positions => other ⟨cells, rfl, fun cell member => ?_⟩
      have isPosition := List.all_eq_true.1 positions cell member
      cases cell with
      | seq items => exact absurd rfl (isSpec _ member items)
      | _ => exact of_decide_eq_true isPosition
  | _ => cases isSpec

theorem exists_lists_of_words {specs : List Node} (words : ∀ spec ∈ specs, ListsWord spec) :
    ∃ lists : List (List Node), specs = lists.map .seq ∧
      ∀ cells ∈ lists, ∀ cell ∈ cells, cell.asString? = some fullDomainWord := by
  obtain ⟨lists, areLists⟩ := exists_forall₂_iff.2 words
  have listed : specs.map id = lists.map .seq := map_eq_map_of_forall₂ areLists fun _ _ => And.left
  refine ⟨lists, by rwa [List.map_id] at listed, fun cells inLists => ?_⟩
  obtain ⟨-, -, -, onlyWords⟩ := exists_left_of_forall₂ areLists cells inLists
  exact onlyWords

/-- Lists of nothing but `:` are accepted as several combinations where each has one for
each free parameter, and are then all combinations, over and over. -/
theorem expandCommon_words {lists : List (List Node)} {combos : List (List Value)} (some_list : lists ≠ [])
    (words : ∀ cells ∈ lists, ∀ cell ∈ cells, cell.asString? = some fullDomainWord) :
    params.expandCommon (.seq (lists.map .seq)) = .ok combos ↔
      ∃ all, params.allCombinations? = some all ∧ (∀ cells ∈ lists, cells = params.everyValue) ∧
        combos = lists.flatMap fun _ => all := by
  rw [expandCommon_lists some_list fun cells inLists cell inCells =>
    isPosition_of_word (words cells inLists cell inCells)]
  simp only [map_eq_ok, mapM_eq_ok]
  constructor
  · rintro ⟨parts, expanded, rfl⟩
    have isAll : List.Forall₂ (fun cells part => cells = params.everyValue ∧
        params.allCombinations? = some part) lists parts := by
      refine ((List.forall₂_and_left _ _).2 ⟨words, expanded⟩).imp fun cells part ⟨areWords, expands⟩ => ?_
      obtain rfl := eq_everyValue_of_words areWords expands
      exact ⟨rfl, expandPositions_everyValue.1 expands⟩
    obtain ⟨cells, inLists⟩ := List.exists_mem_of_ne_nil lists some_list
    obtain ⟨all, -, -, isAll'⟩ := exists_left_of_forall₂ isAll.flip cells inLists
    refine ⟨all, isAll', fun cells inLists => ?_, ?_⟩
    · obtain ⟨-, -, same, -⟩ := exists_left_of_forall₂ isAll.flip cells inLists
      exact same
    · have parts_eq : lists.map (fun _ => all) = parts.map id := map_eq_map_of_forall₂ isAll
        fun _ part ⟨_, isPart⟩ => Option.some.inj (isAll'.symm.trans isPart)
      rw [List.flatMap_def, parts_eq, List.map_id]
  · rintro ⟨all, isAll, areAll, rfl⟩
    refine ⟨lists.map fun _ => all, ?_, (List.flatMap_def).symm⟩
    refine List.forall₂_map_right_iff.2 (List.forall₂_same.2 fun cells inLists => ?_)
    rw [areAll cells inLists]
    exact expandPositions_everyValue.2 isAll

/-- **One list of positions, alone or in a list of its own.**  In a list of its own it stands
for the cross product of what its positions stand for.  Alone it means the same, unless each of
its positions lists nothing but `:`.  Then each position that is not empty is a combination of
its own. -/
theorem common_flat_iff_nested {flat nested : Node} {specs : List Node}
    (isFlat : Declares before after node flat (.seq specs))
    (isNested : Declares before after node nested (.seq [.seq specs]))
    (areSpecs : ∀ spec ∈ specs, IsDomainSpec spec) :
    (∀ params, ofNode nested = .ok params → params.free.length = specs.length ∧
      ∃ domains, List.Forall₂ (fun e domain => params.Denotes e.1 e.2 domain)
        (params.free.zip specs) domains ∧ params.common = some (crossProduct domains)) ∧
    ((specs = [] ∨ ∃ spec ∈ specs, ¬ ListsWord spec) →
      ∀ params, ofNode flat = .ok params ↔ ofNode nested = .ok params) ∧
    (specs ≠ [] → (∀ spec ∈ specs, ListsWord spec ∧ spec ≠ .seq []) →
      ∀ params, ofNode flat = .ok params ↔ ∃ undeclared all, ofNode node = .ok undeclared ∧
        undeclared.common = some all ∧ (∀ spec ∈ specs, spec = .seq undeclared.everyValue) ∧
        params = { undeclared with common := some (specs.flatMap fun _ => all) }) := by
  have positions : ∀ spec ∈ specs, isPosition spec = true := fun spec member =>
    (areSpecs spec member).isPosition
  refine ⟨fun params read => ?_, fun single params => ?_, fun some_spec words params => ?_⟩
  · obtain ⟨undeclared, combos, -, expanded, rfl⟩ := (ofNode_declaring_iff isNested).1 read
    rw [expandCommon_single positions] at expanded
    obtain ⟨sameLength, domains, denote, rfl⟩ := expandPositions_eq_ok.1 expanded
    exact ⟨sameLength, domains, denote, rfl⟩
  · have flatOnly : specs = [] ∨ ∃ spec ∈ specs, positions? spec = none :=
      single.imp_right fun ⟨spec, member, other⟩ =>
        ⟨spec, member, (areSpecs spec member).positions?_eq_none other⟩
    simp only [ofNode_declaring_iff isFlat, ofNode_declaring_iff isNested, expandCommon_flat flatOnly,
      expandCommon_single positions]
  · obtain ⟨lists, rfl, areWords⟩ := exists_lists_of_words fun spec member => (words spec member).1
    have some_list : lists ≠ [] := fun none => some_spec (by rw [none, List.map_nil])
    simp only [ofNode_declaring_iff isFlat, expandCommon_words some_list areWords, List.forall_mem_map,
      Node.seq.injEq, List.flatMap_map]
    constructor
    · rintro ⟨undeclared, _, read, ⟨all, isAll, areAll, rfl⟩, rfl⟩
      exact ⟨undeclared, all, read, (isFlat.common_eq read).trans isAll, areAll, rfl⟩
    · rintro ⟨undeclared, all, read, isAll, areAll, rfl⟩
      exact ⟨undeclared, _, read, ⟨all, (isFlat.common_eq read).symm.trans isAll, areAll, rfl⟩, rfl⟩

namespace Example

/-- Two sizes, one of them written `:`, with every value of the coating. -/
def sizesCoated : List Node := [texts [":", "M3"], .str ":"]

theorem areSpecs_sizesCoated : ∀ spec ∈ sizesCoated, IsDomainSpec spec := by
  refine List.forall_mem_cons.2 ⟨fun cell member items => ?_, List.forall_mem_singleton.2 rfl⟩
  obtain ⟨word, -, rfl⟩ := List.mem_map.1 member
  exact Node.noConfusion

/-- The bolt with two sizes to pick from, coated or not. -/
def pickedBolt : ParameterSet := result (ofNode (declaringBolt (.seq [.seq sizesCoated])))

theorem read_pickedBolt : ofNode (declaringBolt (.seq [.seq sizesCoated])) = .ok pickedBolt :=
  eq_ok_result (by decide)

end Example

/-- A size may be written `:` in both forms, as long as another position is no list. -/
theorem common_flat_iff_nested_bolt :
    ofNode (Example.declaringBolt (.seq Example.sizesCoated)) = .ok Example.pickedBolt ∧
      ofNode (Example.declaringBolt (.seq [.seq Example.sizesCoated])) = .ok Example.pickedBolt ∧
      Example.pickedBolt.common = some [[.text ":", .bool true], [.text ":", .bool false],
        [.text "M3", .bool true], [.text "M3", .bool false]] := by
  obtain ⟨-, same, -⟩ := common_flat_iff_nested (Example.declares_bolt _) (Example.declares_bolt _)
    Example.areSpecs_sizesCoated
  have notList : ¬ ListsWord (.str ":") := by
    rintro ⟨cells, isList, -⟩
    cases isList
  have inSpecs : Node.str ":" ∈ Example.sizesCoated := by simp [Example.sizesCoated]
  exact ⟨(same (.inr ⟨_, inSpecs, notList⟩) _).2 Example.read_pickedBolt, Example.read_pickedBolt, by decide⟩

namespace Example

/-- A rivet, coated or not. -/
def rivetSections : List (Node × Node) :=
  [(.str "free", texts ["coated"]), (.str "types", mapping [("coated", .str "Bool")])]

/-- The rivet with a declaration of what is common. -/
def declaringRivet (declared : Node) : Node := .map (rivetSections ++ [(.str "common", declared)])

end Example

/-- One position that lists `:` is taken for a combination of its own, that is for every value.
In a list of its own it stands for a value that the type has not. -/
theorem common_flat_iff_nested_refuted :
    Declares Example.rivetSections [] (.map Example.rivetSections)
        (Example.declaringRivet (.seq [Example.texts [":"]])) (.seq [Example.texts [":"]]) ∧
      Declares Example.rivetSections [] (.map Example.rivetSections)
        (Example.declaringRivet (.seq [.seq [Example.texts [":"]]])) (.seq [.seq [Example.texts [":"]]]) ∧
      IsDomainSpec (Example.texts [":"]) ∧
      (∃ params, ofNode (Example.declaringRivet (.seq [Example.texts [":"]])) = .ok params ∧
        params.free = ["coated"] ∧ params.common = some [[.bool true], [.bool false]]) ∧
      ofNode (Example.declaringRivet (.seq [.seq [Example.texts [":"]]])) =
        .error (.cell (.invalidBool "coated" ":")) := by
  have isSpec : IsDomainSpec (Example.texts [":"]) := by
    refine List.forall_mem_singleton.2 fun items => ?_
    exact Node.noConfusion
  refine ⟨⟨rfl, rfl, rfl⟩, ⟨rfl, rfl, rfl⟩, isSpec, ⟨_, rfl, rfl, rfl⟩, rfl⟩

end PartCatalog.ParameterSet
