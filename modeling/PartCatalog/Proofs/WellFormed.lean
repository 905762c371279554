/-
# Well-formed sets -- what holds of every parameter set that can be built

A set is built by reading an element, by taking the set without parameters, and by
uniting sets (`Reachable`).  `WellFormed` says how the fields of such a set hang together:
its parameters are the names its sections mention, all of them typed; its tables, its
defaults and its common combinations fit those types; its choices belong to free indices
that a table uses, and take in every key that all tables using the index share.  Reading
establishes all of it (`wellFormed_of_ofNode`), and a union keeps it
(`wellFormed_joined`), because the types of a union keep the types of both sides.
-/
import PartCatalog.Proofs.ReadingLaws
import PartCatalog.Proofs.UnionLaws

set_option autoImplicit false

namespace PartCatalog.ParameterSet

open Outcome

/-! ## Definitions -/

/-- The sets that can be built. -/
inductive Reachable : ParameterSet → Prop where
  | empty : Reachable empty
  | read {node : Node} {params : ParameterSet} (read : ofNode node = .ok params) : Reachable params
  | union {left right united : ParameterSet} (left_ : Reachable left) (right_ : Reachable right)
      (joined : left.union right = .ok united) : Reachable united

/-- Whether a section of a set brings up a name. -/
def Mentions (params : ParameterSet) (name : String) : Prop :=
  name ∈ params.literal.keys ∨ name ∈ params.free ∨
    (∃ table ∈ params.tables, name ∈ table.parameters) ∨
    ∃ table ∈ params.tables2d, name ∈ table.parameters

/-- Whether a table of a set is indexed by a name. -/
abbrev Uses (params : ParameterSet) (name : String) : Prop :=
  Choices.Used params.tables params.tables2d name

/-- Whether all tables of a set that are indexed by a name have a key. -/
abbrev Shares (params : ParameterSet) (name key : String) : Prop :=
  Choices.SharedKey params.tables params.tables2d name key

/-- What the choices of an index are: it is free and keys tables, a table uses it, and
the choices take in every key that the tables share, each once, as they are presented. -/
structure ChoicesOf (params : ParameterSet) (name : String) (choices : List String) : Prop where
  free : name ∈ params.free
  index : params.types.get? name = some .tableIndex
  used : params.Uses name
  nodup : choices.Nodup
  sorted : ChoiceOrder.sort choices = choices
  complete : ∀ key, params.Shares name key → key ∈ choices

/-- How the fields of a set hang together. -/
structure WellFormed (params : ParameterSet) : Prop where
  parameters : ∀ name, name ∈ NameMap.keys params.parameters ↔ params.Mentions name
  types : NameMap.keys params.types = NameMap.keys params.parameters
  defaults : ∀ name, name ∈ params.defaults.keys ↔ name ∈ params.free
  description : ∀ name ∈ params.description.keys, name ∈ NameMap.keys params.parameters
  tables : ∀ table ∈ params.tables, table.Fits params.types
  tables2d : ∀ table ∈ params.tables2d, table.Fits params.types
  defaultsFit : ∀ name value, params.defaults.get? name = some value → params.types.Admits name value
  choices : ∀ name choices, params.choices.get? name = some choices → params.ChoicesOf name choices
  common : ∀ combos, params.common = some combos → ∀ combo ∈ combos, params.AdmitsCombination combo

theorem WellFormed.known {params : ParameterSet} (well : params.WellFormed) {name : String}
    (mentioned : params.Mentions name) : name ∈ NameMap.keys params.types := by
  rw [well.types]
  exact (well.parameters name).2 mentioned

/-! ## The set without parameters -/

theorem wellFormed_empty : WellFormed empty where
  parameters := by simp [empty, Mentions]
  types := rfl
  defaults := by simp [empty]
  description := by simp [empty]
  tables := by simp [empty]
  tables2d := by simp [empty]
  defaultsFit := by simp [empty]
  choices := by simp [empty]
  common := by
    intro combos isCommon combo member
    cases isCommon
    cases List.mem_singleton.1 member
    exact .nil

/-! ## Sets that are read -/

section Reading

variable {entries : List (Node × Node)} {raws : List (Table Node)} {raws2d : List (Table2D Node)}
  {params : ParameterSet}

/-- The typed tables have the names of the written ones. -/
theorem Reading.mem_parameters_iff (reading : Reading entries raws raws2d params) (name : String) :
    name ∈ NameMap.keys params.parameters ↔ params.Mentions name := by
  have inTables : (∃ raw ∈ raws, name ∈ raw.parameters) ↔
      ∃ table ∈ params.tables, name ∈ table.parameters :=
    exists_mem_congr (mapM_eq_ok.1 reading.tables) fun raw table run => by
      rw [Table.parameters_of_typed run]
  have inTables2d : (∃ raw ∈ raws2d, name ∈ raw.parameters) ↔
      ∃ table ∈ params.tables2d, name ∈ table.parameters :=
    exists_mem_congr (mapM_eq_ok.1 reading.tables2d) fun raw table run => by
      rw [Table2D.parameters_of_typed run]
  rw [reading.parameters, mem_parameterNames, inTables, inTables2d, Mentions]

theorem Reading.known (reading : Reading entries raws raws2d params) {name : String}
    (mentioned : params.Mentions name) : name ∈ NameMap.keys params.types := by
  rw [keys_of_readTypes reading.types]
  exact (reading.mem_parameters_iff name).2 mentioned

theorem choicesOf_of_compute {name : String} {choices : List String}
    (found : (Choices.compute params.free params.types params.tables params.tables2d).get? name =
      some choices) : params.ChoicesOf name choices := by
  rw [Choices.get?_compute] at found
  split at found
  · next isIndex =>
    obtain ⟨used, nodup, sorted, members⟩ := Choices.ofIndex?_eq_some_iff.1 found
    exact ⟨isIndex.1, isIndex.2, used, nodup, sorted, fun key => (members key).2⟩
  · cases found

theorem Reading.wellFormed (reading : Reading entries raws raws2d params) : params.WellFormed where
  parameters := reading.mem_parameters_iff
  types := keys_of_readTypes reading.types
  defaults := fun _ => keys_of_readDefaults reading.defaults
  description := keys_of_readDescription reading.description
  tables := by
    intro table member
    obtain ⟨raw, -, run⟩ := exists_left_of_forall₂ (mapM_eq_ok.1 reading.tables) table member
    refine Table.fits_of_typed (fun name inColumns => reading.known ?_) run
    have inTable : name ∈ table.parameters := by
      rw [Table.parameters_of_typed run]
      exact List.mem_cons_of_mem _ inColumns
    exact .inr (.inr (.inl ⟨table, member, inTable⟩))
  tables2d := by
    intro table member
    obtain ⟨raw, inRaws, run⟩ := exists_left_of_forall₂ (mapM_eq_ok.1 reading.tables2d) table member
    obtain ⟨node, one⟩ := exists_of_readMany reading.written2d raw inRaws
    refine Table2D.fits_of_typed (reading.known ?_) (Table2D.indices_ne_of_ofNode one) run
    have inTable : raw.result ∈ table.parameters := by
      rw [Table2D.parameters_of_typed run]
      simp [Table2D.parameters]
    exact .inr (.inr (.inr ⟨table, member, inTable⟩))
  defaultsFit := by
    intro name value found
    exact admits_of_readDefaults reading.defaults (fun n isFree => reading.known (.inr (.inl isFree))) found
  choices := by
    intro name choices found
    rw [reading.choices] at found
    exact choicesOf_of_compute found
  common := by
    intro combos isCommon
    have known : ∀ name ∈ params.free, name ∈ params.types.keys := fun name isFree =>
      reading.known (.inr (.inl isFree))
    have read := reading.common
    unfold readCommon at read
    split at read
    · obtain ⟨list, expanded, isCommon'⟩ := map_eq_ok.1 read
      rw [isCommon, Option.some.injEq] at isCommon'
      exact admits_of_expandCommon known (isCommon' ▸ expanded)
    · rw [isCommon, Except.ok.injEq] at read
      exact admits_of_allCombinations? read

theorem wellFormed_of_ofNode {node : Node} (read : ofNode node = .ok params) : params.WellFormed := by
  obtain ⟨entries, raws, raws2d, -, reading⟩ := ofNode_eq_ok.1 read
  exact reading.wellFormed

/-- A set that is read offers what its tables give. -/
theorem choices_of_read {node : Node} (read : ofNode node = .ok params) :
    params.choices = Choices.compute params.free params.types params.tables params.tables2d := by
  obtain ⟨entries, raws, raws2d, -, reading⟩ := ofNode_eq_ok.1 read
  exact reading.choices

end Reading

/-! ## Unions -/

section Union

variable {left right : ParameterSet}

theorem keeps_right (left right : ParameterSet) : (left.joined right).types.Keeps right.types := by
  intro name type typed
  have overlaid : (left.joined right).types = left.types.overlay right.types := rfl
  rw [overlaid, NameMap.get?_overlay, typed, Option.some_or]

/-- The right types win, but what they win over is the same. -/
theorem keeps_left (agrees : left.Agrees right) : (left.joined right).types.Keeps left.types := by
  intro name type typed
  have overlaid : (left.joined right).types = left.types.overlay right.types := rfl
  rw [overlaid, NameMap.get?_overlay, typed]
  cases typed' : right.types.get? name with
  | none => rfl
  | some theirs => rw [Option.some_or, agrees.types name type theirs typed typed']

theorem mentions_joined_iff (name : String) :
    (left.joined right).Mentions name ↔ left.Mentions name ∨ right.Mentions name := by
  simp only [Mentions, joined, NameMap.mem_keys_overlay, List.mem_append, or_and_right, exists_or]
  grind

theorem choicesOf_joined (agrees : left.Agrees right) (wellLeft : left.WellFormed)
    (wellRight : right.WellFormed) {name : String} {choices : List String}
    (found : (left.joined right).choices.get? name = some choices) :
    (left.joined right).ChoicesOf name choices := by
  simp only [joined, get?_mergeChoices, Option.or_eq_some_iff, Option.map_eq_some_iff] at found
  rcases found with ⟨theirs, inRight, rfl⟩ | ⟨-, inLeft⟩
  · have choicesOf := wellRight.choices name theirs inRight
    exact {
      free := List.mem_append_right _ choicesOf.free
      index := keeps_right left right _ _ choicesOf.index
      used := Choices.used_append.2 (.inr choicesOf.used)
      nodup := nodup_narrowed choicesOf.nodup fun ours inLeft => (wellLeft.choices name ours inLeft).nodup
      sorted := ChoiceOrder.sort_sort _
      complete := fun key shared => by
        obtain ⟨sharedLeft, sharedRight⟩ := Choices.sharedKey_append.1 shared
        refine mem_narrowed.2 ⟨choicesOf.complete key sharedRight, fun ours inLeft => ?_⟩
        exact (wellLeft.choices name ours inLeft).complete key sharedLeft }
  · have choicesOf := wellLeft.choices name choices inLeft
    exact {
      free := List.mem_append_left _ choicesOf.free
      index := keeps_left agrees _ _ choicesOf.index
      used := Choices.used_append.2 (.inl choicesOf.used)
      nodup := choicesOf.nodup
      sorted := choicesOf.sorted
      complete := fun key shared => choicesOf.complete key (Choices.sharedKey_append.1 shared).1 }

theorem wellFormed_joined (agrees : left.Agrees right) (wellLeft : left.WellFormed)
    (wellRight : right.WellFormed) : (left.joined right).WellFormed where
  parameters := fun name => by
    rw [mentions_joined_iff, ← wellLeft.parameters, ← wellRight.parameters]
    exact NameSet.mem_keys_union
  types := NameMap.keys_eq_of_mem_iff fun name => by
    simp only [joined, NameMap.mem_keys_overlay, NameSet.mem_keys_union, wellLeft.types, wellRight.types]
    exact or_comm
  defaults := fun name => by
    simp only [joined, NameMap.mem_keys_overlay, wellLeft.defaults, wellRight.defaults, List.mem_append]
    exact or_comm
  description := fun name described => by
    simp only [joined, NameMap.mem_keys_overlay, NameSet.mem_keys_union] at described ⊢
    exact described.symm.imp (wellLeft.description name) (wellRight.description name)
  tables := fun table member => by
    rcases List.mem_append.1 member with member | member
    · exact (wellLeft.tables table member).mono (keeps_left agrees)
    · exact (wellRight.tables table member).mono (keeps_right left right)
  tables2d := fun table member => by
    rcases List.mem_append.1 member with member | member
    · exact (wellLeft.tables2d table member).mono (keeps_left agrees)
    · exact (wellRight.tables2d table member).mono (keeps_right left right)
  defaultsFit := fun name value found => by
    simp only [joined, NameMap.get?_overlay, Option.or_eq_some_iff] at found
    rcases found with found | ⟨-, found⟩
    · exact (wellRight.defaultsFit name value found).mono (keeps_right left right)
    · exact (wellLeft.defaultsFit name value found).mono (keeps_left agrees)
  choices := fun _ _ => choicesOf_joined agrees wellLeft wellRight
  common := fun combos isCommon => by cases isCommon

end Union

/-- **Every set that can be built is well formed.** -/
theorem Reachable.wellFormed {params : ParameterSet} (reach : Reachable params) :
    params.WellFormed := by
  induction reach with
  | empty => exact wellFormed_empty
  | read read => exact wellFormed_of_ofNode read
  | union _ _ joined wellLeft wellRight =>
      obtain ⟨agrees, rfl⟩ := union_eq_ok.1 joined
      exact wellFormed_joined agrees wellLeft wellRight

/-! ## A screw and its base -/

namespace Example

/-- A mapping with strings for its keys. -/
def mapping (entries : List (String × Node)) : Node := .map (entries.map fun (key, x) => (.str key, x))

/-- A list of strings. -/
def texts (items : List String) : Node := .seq (items.map .str)

/-- What a reader gives where it succeeds. -/
def result (read : Declaration.Result ParameterSet) : ParameterSet := read.toOption.getD default

theorem eq_ok_result {read : Declaration.Result ParameterSet} (succeeds : read.isOk = true) :
    read = .ok (result read) := by
  cases read with
  | error e => cases succeeds
  | ok params => rfl

/-- The parameters of a screw: its size selects a diameter, and it may have a collar. -/
def screwNode : Node := mapping [
  ("literal", mapping [("name", .str "screw")]),
  ("free", texts ["size", "collar"]),
  ("types", mapping [("size", .str "Table Index"), ("collar", .str "Bool")]),
  ("tables", mapping [("index", .str "size"), ("columns", texts ["d"]),
    ("data", mapping [("M4", texts ["4"]), ("M3", texts ["3"])])])]

/-- The parameters of its base: the size selects a head, the size and the finish a price. -/
def baseNode : Node := mapping [
  ("free", texts ["size", "finish"]),
  ("types", mapping [("size", .str "Table Index"), ("finish", .str "Table Index"),
    ("head", .str "Number")]),
  ("tables", mapping [("index", .str "size"), ("columns", texts ["head"]),
    ("data", mapping [("M3", texts ["5.5"]), ("M4", texts ["7"]), ("M5", texts ["8"])])]),
  ("tables2d", mapping [("rowindex", .str "size"), ("colindex", .str "finish"),
    ("columns", texts ["plain", "zinc"]), ("result", .str "price"),
    ("data", mapping [("M3", texts ["1", "2"]), ("M4", texts ["2", "None"])])])]

def screw : ParameterSet := result (ofNode screwNode)

def base : ParameterSet := result (ofNode baseNode)

def united : ParameterSet := result (screw.union base)

theorem read_screw : ofNode screwNode = .ok screw := eq_ok_result (by decide +kernel)

theorem read_base : ofNode baseNode = .ok base := eq_ok_result (by decide +kernel)

theorem union_screw_base : screw.union base = .ok united := eq_ok_result (by decide +kernel)

theorem reachable_united : Reachable united :=
  .union (.read read_screw) (.read read_base) union_screw_base

end Example

/-! ## The invariant in full -/

/-- What holds of every set that can be built.  The parameters are the names that the sections
bring up, all of them typed, the free ones with a default; indices key tables and rows
are complete; cells, defaults and common combinations are values of their types; choices
belong to free indices. -/
theorem invariant_of_reachable {params : ParameterSet} (reach : Reachable params) :
    ((∀ name, name ∈ NameMap.keys params.parameters ↔
        name ∈ params.literal.keys ∨ name ∈ params.free ∨
          (∃ table ∈ params.tables, name = table.index ∨ name ∈ table.columns) ∨
          ∃ table ∈ params.tables2d,
            name = table.rowIndex ∨ name = table.colIndex ∨ name = table.result) ∧
      NameMap.keys params.types = NameMap.keys params.parameters) ∧
    ((∀ name, name ∈ params.defaults.keys ↔ name ∈ params.free) ∧
      ∀ name ∈ params.description.keys, name ∈ NameMap.keys params.parameters) ∧
    ((∀ table ∈ params.tables,
        params.types.get? table.index = some .tableIndex ∧
        ∀ key row, table.row? key = some row → row.length = table.columns.length) ∧
      ∀ table ∈ params.tables2d,
        params.types.get? table.rowIndex = some .tableIndex ∧
        params.types.get? table.colIndex = some .tableIndex ∧ table.rowIndex ≠ table.colIndex ∧
        ∀ key row, table.data.get? key = some row → row.length = table.columns.length) ∧
    ((∀ table ∈ params.tables, ∀ key row, table.row? key = some row →
        ∀ column cell, (column, cell) ∈ table.columns.zip row →
          ∃ type, params.types.get? column = some type ∧ type.Admits cell) ∧
      (∀ table ∈ params.tables2d, ∀ key row, table.data.get? key = some row → ∀ cell ∈ row,
        ∃ type, params.types.get? table.result = some type ∧ type.Admits cell) ∧
      ∀ name value, params.defaults.get? name = some value →
        ∃ type, params.types.get? name = some type ∧ type.Admits value) ∧
    (∀ name choices, params.choices.get? name = some choices →
      name ∈ params.free ∧ params.types.get? name = some .tableIndex ∧ choices.Nodup ∧
        ChoiceOrder.sort choices = choices) ∧
    ∀ combos, params.common = some combos → ∀ combo ∈ combos,
      List.Forall₂ (fun name value => ∃ type, params.types.get? name = some type ∧ type.Admits value)
        params.free combo := by
  have well := reach.wellFormed
  refine ⟨⟨fun name => ?_, well.types⟩, ⟨well.defaults, well.description⟩, ⟨fun table member => ?_,
    fun table member => ?_⟩, ⟨fun table member key row found column cell inRow => ?_,
    fun table member => (well.tables2d table member).cells, well.defaultsFit⟩,
    fun name choices found => ?_, well.common⟩
  · rw [well.parameters, Mentions]
    simp only [Table.parameters, Table2D.parameters, List.mem_cons, List.not_mem_nil, or_false]
  · have fits := well.tables table member
    exact ⟨fits.index, fun key row found => (fits.rows key row found).length_eq.symm⟩
  · have fits := well.tables2d table member
    exact ⟨fits.rowIndex, fits.colIndex, fits.different, fits.lengths⟩
  · exact List.forall₂_zip ((well.tables table member).rows key row found) inRow
  · have choicesOf := well.choices name choices found
    exact ⟨choicesOf.free, choicesOf.index, choicesOf.nodup, choicesOf.sorted⟩

/-- The screw with its base has a type for each of its parameters and a default for each
free one, two of which are the size. -/
theorem invariant_united :
    Reachable Example.united ∧
      NameMap.keys Example.united.types = NameMap.keys Example.united.parameters ∧
      Example.united.free = ["size", "collar", "size", "finish"] ∧
      ∀ name, name ∈ Example.united.defaults.keys ↔ name ∈ Example.united.free :=
  have reach := Example.reachable_united
  ⟨reach, (invariant_of_reachable reach).1.2, by decide +kernel, (invariant_of_reachable reach).2.1.1⟩

end PartCatalog.ParameterSet
