/-
# Index keys -- a row is chosen by the scalar it is written under

The key of a row is the text of its node.  A caller names the row by the same scalar: in a
document, where it is read as a cell of the index's type, or on the command line, where its
text is.  What either reads is shown as the text of the scalar (`exists_normalize_scalar`),
even where it is no text but the absent value.  An index that no column is named for keeps
the caller's value until its table is reached, so the table lays the row that was written
under the scalar (`written_key_chooses_row`).
-/
import PartCatalog.CommandLine.PartQuery
import PartCatalog.Proofs.LiteralKeys

set_option autoImplicit false

namespace PartCatalog

open Outcome

/-! ## Scalars -/

namespace Node

/-- Whether a node is no sequence and no mapping, below its tags. -/
def isScalar (node : Node) : Bool :=
  match node.untagged with
  | .seq _ | .map _ => false
  | _ => true

theorem untagged_dropTag (node : Node) : (ParameterType.dropTag node).untagged = node.untagged := by
  cases node <;> rfl

theorem text_dropTag (node : Node) : (ParameterType.dropTag node).text = node.text := by
  cases node with
  | tagged tag value => rw [ParameterType.dropTag, text]
  | _ => rfl

theorem isScalar_dropTag (node : Node) : (ParameterType.dropTag node).isScalar = node.isScalar := by
  rw [isScalar, isScalar, untagged_dropTag]

end Node

namespace ParameterType

/-- A scalar is read as a value of an index that is shown as the scalar was written. -/
theorem exists_normalize_scalar {key : Node} (scalar : key.isScalar = true) (param : String) :
    ∃ v, tableIndex.normalize param key = .ok v ∧ v.display = key.text := by
  rw [normalize, ← Node.text_dropTag]
  rw [← Node.isScalar_dropTag] at scalar
  generalize dropTag key = raw at scalar ⊢
  cases raw with
  | null => exact ⟨.absent, rfl, rfl⟩
  | str s =>
      by_cases absent : s = "None"
      · exact ⟨.absent, if_pos absent, absent.symm⟩
      · exact ⟨.text s, if_neg absent, rfl⟩
  | seq items => cases scalar
  | map entries => cases scalar
  | bool b => exact ⟨_, rfl, rfl⟩
  | int n => exact ⟨_, rfl, rfl⟩
  | float x => exact ⟨_, rfl, rfl⟩
  | tagged tag value => exact ⟨_, rfl, rfl⟩

end ParameterType

/-! ## Assignments -/

/-- A word that begins with a name and an equals sign is split after the name. -/
theorem CommandLine.Word.splitAtEquals_append {name : String} (noEquals : '=' ∉ name.toList) (raw : String) :
    splitAtEquals (name ++ "=" ++ raw).toList = (name, some raw) := by
  have chars : (name ++ "=" ++ raw).toList = name.toList ++ '=' :: raw.toList := by
    simp [String.toList_append]
  have plain : ∀ c ∈ name.toList, (decide (c ≠ '=')) = true := by
    intro c member
    exact decide_eq_true fun same => noEquals (same ▸ member)
  rw [chars, splitAtEquals, List.takeWhile_append_of_pos plain, List.dropWhile_append_of_pos plain]
  simp

theorem PartQuery.assignment_eq_ok {params : ParameterSet} {name raw : String} {v : Value}
    (noEquals : '=' ∉ name.toList) (isFree : name ∈ params.free)
    (read : (params.types.typeOf name).normalize name (.str raw) = .ok v) :
    assignment params (name ++ "=" ++ raw) = .ok (name, v) := by
  have typed : ((params.typeOf? name).getD default).normalize name (.str raw) = .ok v := read
  have listed : params.free.contains name = true := List.contains_iff_mem.2 isFree
  simp only [assignment, CommandLine.Word.splitAtEquals_append noEquals, listed, typed, if_true]

/-! ## Written tables -/

namespace ParameterSet

/-- How the table at some place is written: in an element of the section, with some entries
for its rows, as a table of nodes. -/
structure WrittenAt (node : Node) (place : Nat) (element : Node) (entries : List (Node × Node))
    (raw : Table Node) : Prop where
  isElement : (elements (node.child? "tables"))[place]? = some element
  areEntries : element.childEntries? "data" = some entries
  read : Table.ofNode element = .ok raw

variable {node : Node} {params : ParameterSet} {place : Nat} {table : Table Value}

/-- Every table of a set that was read is written somewhere. -/
theorem exists_writtenAt (read : ofNode node = .ok params) (isTable : params.tables[place]? = some table) :
    ∃ element entries raw, WrittenAt node place element entries raw ∧
      raw.typed params.types = .ok table ∧ ∀ e ∈ entries, e.1.text ∈ raw.data.keys := by
  obtain ⟨sections, raws, raws2d, fields, reading⟩ := ofNode_eq_ok.1 read
  obtain ⟨raw, isRaw, typed⟩ := exists_getElem?_of_forall₂ (mapM_eq_ok.1 reading.tables) isTable
  have written := reading.written
  rw [readMany_eq_mapM] at written
  obtain ⟨element, isElement, readOne⟩ := exists_getElem?_of_forall₂ (mapM_eq_ok.1 written) isRaw
  obtain ⟨entries, areEntries, rowsOf⟩ := Table.ReadsRows.exists_rowsOf (.inl ⟨raw, readOne, rfl⟩)
  have isSection : node.child? "tables" = Node.field? sections "tables" := by
    rw [Node.child?, asMapping?_of_fields fields, Option.bind_some]
  exact ⟨element, entries, raw, ⟨isSection ▸ isElement, areEntries, readOne⟩, typed,
    fun e member => rowsOf.mem_keys_iff.2 (List.mem_map_of_mem member)⟩

/-! ## Rows -/

/-- Whether every caller who gives the index of the table at some place a value finds there the
row under a key, once the tables before it are laid. -/
def Chooses (params : ParameterSet) (place : Nat) (table : Table Value) (v : Value) (key : String)
    (row : List Value) : Prop :=
  ∀ given before : NameMap Value, given.get? table.index = some v →
    (params.tables.take place).foldlM applyTable (params.start given) = .ok before →
    indexKey before table.index = .ok key ∧ table.row? key = some row ∧
      applyTable before table = .ok (before.insertAll (table.columns.zip row))

/-- How a key chooses a row: what is stored under its text, which values a document and a
command line read it as, and that either value chooses the row. -/
structure ChosenBy (params : ParameterSet) (place : Nat) (table : Table Value) (raw : Table Node)
    (key : Node) (cells : List Node) (row : List Value) (declared assigned : Value) : Prop where
  stored : raw.data.get? key.text = some cells
  typed : Table.typedRow params.types table.columns key.text cells = .ok row
  declares : (params.types.typeOf table.index).normalize table.index key = .ok declared
  reads : (params.types.typeOf table.index).normalize table.index (.str key.text) = .ok assigned
  assigns : '=' ∉ table.index.toList →
    PartQuery.assignment params (table.index ++ "=" ++ key.text) = .ok (table.index, assigned)
  byDeclared : params.Chooses place table declared key.text row
  byAssigned : params.Chooses place table assigned key.text row

/-- Tables that have no column of a name leave its value alone. -/
theorem get?_foldlM_applyTable {tables : List (Table Value)} {name : String} {v w : NameMap Value}
    (spared : ∀ table ∈ tables, name ∉ table.columns) (laid : tables.foldlM applyTable v = .ok w) :
    w.get? name = v.get? name := by
  rw [← Layer.run_map Table.applyTable_eq] at laid
  refine Layer.get?_run ?_ laid
  intro layer member u es isLaid e inEntries same
  obtain ⟨table, isTable, rfl⟩ := List.mem_map.1 member
  obtain ⟨value, row, -, -, rfl⟩ := Table.layer_eq_ok.1 isLaid
  exact spared table isTable (same ▸ (List.of_mem_zip inEntries).1)

/-- A value that is shown as a key chooses the row under it. -/
theorem chooses_of_display {key : String} {row : List Value} {v : Value}
    (notColumn : ∀ other ∈ params.tables, table.index ∉ other.columns) (isRow : table.row? key = some row)
    (shown : v.display = key) : params.Chooses place table v key row := by
  intro given before isGiven laid
  have isStart : (params.start given).get? table.index = some v := by
    rw [start, NameMap.get?_overlay, isGiven, Option.some_or]
  have kept : before.get? table.index = some v := by
    rw [get?_foldlM_applyTable (fun other member => notColumn other (List.mem_of_mem_take member)) laid,
      isStart]
  refine ⟨indexKey_eq_ok.2 ⟨v, kept, shown⟩, isRow, ?_⟩
  have isLayer : table.layer before = .ok (table.columns.zip row) :=
    Table.layer_eq_ok.2 ⟨v, row, kept, shown ▸ isRow, rfl⟩
  rw [Table.applyTable_eq, isLayer]
  rfl

/-- **A row is chosen by the scalar it is written under.**  Where an index is free and no
column is named for it, a caller who has the scalar read, as a cell or as the text of an
assignment, is given the row that is stored under its text. -/
theorem written_key_chooses_row (read : ofNode node = .ok params)
    (isTable : params.tables[place]? = some table) (isFree : table.index ∈ params.free)
    (notColumn : ∀ other ∈ params.tables, table.index ∉ other.columns) :
    ∃ element entries raw, WrittenAt node place element entries raw ∧
      ∀ key cellsNode, (key, cellsNode) ∈ entries → key.isScalar = true →
        ∃ cells row declared assigned,
          ChosenBy params place table raw key cells row declared assigned := by
  obtain ⟨element, entries, raw, written, typed, keys⟩ := exists_writtenAt read isTable
  refine ⟨element, entries, raw, written, fun key cellsNode member scalar => ?_⟩
  obtain ⟨cells, stored⟩ := NameMap.mem_keys_iff.1 (keys _ member)
  obtain ⟨row, isRow, typedRow⟩ := Table.exists_row?_of_typed stored typed
  have isIndex : params.types.typeOf table.index = .tableIndex := by
    obtain ⟨isIndex, sameIndex, -, -⟩ := Table.typed_eq_ok.1 typed
    rw [TypeMap.typeOf, sameIndex, isIndex, Option.getD_some]
  obtain ⟨declared, isDeclared, showsDeclared⟩ :=
    ParameterType.exists_normalize_scalar scalar table.index
  obtain ⟨assigned, isAssigned, showsAssigned⟩ : ∃ v,
      ParameterType.tableIndex.normalize table.index (.str key.text) = .ok v ∧
        v.display = (Node.str key.text).text :=
    ParameterType.exists_normalize_scalar rfl table.index
  have declares : (params.types.typeOf table.index).normalize table.index key = .ok declared :=
    isIndex ▸ isDeclared
  have assigns : (params.types.typeOf table.index).normalize table.index (.str key.text) = .ok assigned :=
    isIndex ▸ isAssigned
  refine ⟨cells, row, declared, assigned, stored, typedRow, declares, assigns, ?_, ?_, ?_⟩
  · exact fun noEquals => PartQuery.assignment_eq_ok noEquals isFree assigns
  · exact chooses_of_display notColumn isRow showsDeclared
  · exact chooses_of_display notColumn isRow (showsAssigned.trans (by rw [Node.text]))

namespace Example

/-- A table with a row for no size, whose key is null under a tag. -/
def sizedNode : Node := mapping [
  ("free", texts ["size"]),
  ("types", mapping [("size", .str "Table Index"), ("d", .str "String")]),
  ("tables", mapping [("index", .str "size"), ("columns", texts ["d"]),
    ("data", .map [(.bool true, texts ["4"]), (.tagged "size" .null, texts ["5"])])])]

def sized : ParameterSet := result (ofNode sizedNode)

theorem read_sized : ofNode sizedNode = .ok sized := eq_ok_result (by decide +kernel)

end Example

/-- The row for no size is the one that the absent value chooses, which `size=None` is. -/
theorem written_key_chooses_row_sized :
    ∃ table element entries raw, Example.sized.tables[0]? = some table ∧
      WrittenAt Example.sizedNode 0 element entries raw ∧
      ∃ cells row, ChosenBy Example.sized 0 table raw (.tagged "size" .null) cells row .absent .absent ∧
        PartQuery.assignment Example.sized "size=None" = .ok ("size", .absent) := by
  obtain ⟨table, isTable⟩ : ∃ table, Example.sized.tables[0]? = some table :=
    Option.isSome_iff_exists.1 (by decide +kernel)
  have index : table.index = "size" := by
    have known : Example.sized.tables[0]?.map (·.index) = some "size" := by decide +kernel
    rw [isTable] at known
    exact Option.some.inj known
  have isFree : table.index ∈ Example.sized.free := by
    rw [index]
    decide +kernel
  have notColumn : ∀ other ∈ Example.sized.tables, table.index ∉ other.columns := by
    rw [index]
    decide +kernel
  obtain ⟨element, entries, raw, written, chosen⟩ :=
    written_key_chooses_row Example.read_sized isTable isFree notColumn
  obtain rfl : _ = element := Option.some.inj written.isElement
  obtain rfl : _ = entries := Option.some.inj written.areEntries
  obtain ⟨cells, row, declared, assigned, chosenBy⟩ :=
    chosen (.tagged "size" .null) _ (List.mem_cons_of_mem _ List.mem_cons_self) rfl
  have isIndex : Example.sized.types.typeOf table.index = .tableIndex := by
    rw [index]
    decide +kernel
  obtain rfl : Value.absent = declared := by
    have declares := chosenBy.declares
    rw [isIndex] at declares
    exact Except.ok.inj declares
  obtain rfl : Value.absent = assigned := by
    have reads := chosenBy.reads
    rw [isIndex] at reads
    exact Except.ok.inj reads
  refine ⟨table, _, _, raw, isTable, written, cells, row, chosenBy, ?_⟩
  have assigns := chosenBy.assigns
  rw [index] at assigns
  exact assigns (by decide)

end ParameterSet

end PartCatalog
