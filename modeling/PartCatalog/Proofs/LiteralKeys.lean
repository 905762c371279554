/-
# Literal keys -- an index that only a literal sets

The key of a row is the text of its node, and a literal becomes a value first, which is
looked up by its display.  In a document whose only table has its index from a literal, the
row under the very scalar that the literal is written with is found by every caller exactly
when the scalar keeps its text (`literal_finds_row_iff`).  For every scalar that does not
there is a document in which the literal is no key of the table (`Example.resolve_keyed`);
`3.0` is such a scalar (`literal_finds_row_refuted`).
-/
import Mathlib
import PartCatalog.Proofs.LastWriter
import PartCatalog.Proofs.NumberTexts
import PartCatalog.Proofs.TableRows

set_option autoImplicit false

namespace PartCatalog

open Outcome

/-! ## The row under a key -/

/-- Whether a data mapping has a row under a key, and none under another key of its text. -/
def Table.HasRow (entries : List (Node × Node)) (key : Node) (cells : List Node) : Prop :=
  ∃ row : Node, row.asSequence? = some cells ∧ (key, row) ∈ entries ∧
    ∀ e ∈ entries, e.1.text = key.text → e = (key, row)

namespace Table

/-- Of the rows that are read, the one under a text that no other key has is there. -/
theorem RowsOf.get?_of_hasRow {entries : List (Node × Node)} {key : Node} {cells : List Node}
    {data : NameMap (List Node)} (rowsOf : RowsOf entries data) (hasRow : HasRow entries key cells) :
    data.get? key.text = some cells := by
  obtain ⟨row, isSequence, inEntries, only⟩ := hasRow
  have listed : (key.text, row) ∈ entries.map fun e => (e.1.text, e.2) :=
    List.mem_map_of_mem (f := fun e : Node × Node => (e.1.text, e.2)) inEntries
  obtain ⟨last, isLast⟩ := Option.isSome_iff_exists.1
    (NameMap.lastEntry_isSome_iff.2 (List.mem_map_of_mem listed))
  obtain ⟨e, member, same⟩ := List.mem_map.1 (NameMap.mem_of_lastEntry isLast)
  obtain ⟨sameText, rfl⟩ := Prod.mk.inj same
  rw [rowsOf.last, isLast, Option.bind_some, only e member sameText, isSequence]

theorem get?_data_of_ofNode {element : Node} {raw : Table Node} {entries : List (Node × Node)}
    {key : Node} {cells : List Node} (data : element.childEntries? "data" = some entries)
    (hasRow : HasRow entries key cells) (read : ofNode element = .ok raw) :
    raw.data.get? key.text = some cells := by
  obtain ⟨entries', data', rowsOf⟩ := ReadsRows.exists_rowsOf (.inl ⟨raw, read, rfl⟩)
  obtain rfl : entries = entries' := Option.some.inj (data.symm.trans data')
  exact rowsOf.get?_of_hasRow hasRow

/-- A typed table has under a key the typed row of what was written there. -/
theorem exists_row?_of_typed {types : TypeMap} {raw : Table Node} {table : Table Value} {key : String}
    {cells : List Node} (written : raw.data.get? key = some cells) (run : raw.typed types = .ok table) :
    ∃ row, table.row? key = some row ∧ typedRow types table.columns key cells = .ok row := by
  obtain ⟨-, -, sameColumns, read⟩ := typed_eq_ok.1 run
  obtain ⟨sameKeys, typedFrom⟩ := NameMap.traverse_eq_ok read
  have isKey : key ∈ table.data.keys := sameKeys ▸ NameMap.mem_keys_of_get? written
  obtain ⟨row, isRow⟩ := NameMap.mem_keys_iff.1 isKey
  obtain ⟨cells', written', typedRow'⟩ := typedFrom key row isRow
  obtain rfl : cells = cells' := Option.some.inj (written.symm.trans written')
  exact ⟨row, isRow, sameColumns ▸ typedRow'⟩

end Table

namespace ParameterSet

/-- A document with one table, whose index nothing but a literal sets: to the value written
`key`, and under this key the table has the row `cells`. -/
structure KeyedByLiteral (node : Node) (params : ParameterSet) (table : Table Value) (key : Node)
    (cells : List Node) : Prop where
  accepted : ofNode node = .ok params
  single : params.tables = [table]
  single2d : params.tables2d = []
  notFree : table.index ∉ params.free
  notColumn : table.index ∉ table.columns
  literal : ∃ literals, node.childEntries? "literal" = some literals ∧
    NameMap.lastEntry table.index (literals.map fun e => (e.1.text, e.2)) = some key
  row : ∃ element rows, (node.child? "tables" = some element ∨ node.child? "tables" = some (.seq [element])) ∧
    element.childEntries? "data" = some rows ∧ Table.HasRow rows key cells

/-- Whether all callers who leave the index of a table alone and give the free parameters
values find the cells of a row under its columns, under a repeated column the last one. -/
def FindsRow (params : ParameterSet) (table : Table Value) (key : String) (cells : List Node) : Prop :=
  ∀ given : NameMap Value, table.index ∉ given.keys → (∀ name ∈ params.free, name ∈ given.keys) →
    ∃ row values, Table.typedRow params.types table.columns key cells = .ok row ∧
      params.resolve given = .ok values ∧
      ∀ column ∈ table.columns, values.get? column = NameMap.lastEntry column (table.columns.zip row)

variable {node : Node} {params : ParameterSet} {table : Table Value} {key : Node} {cells : List Node}

theorem KeyedByLiteral.get?_literal (keyed : KeyedByLiteral node params table key cells) :
    params.literal.get? table.index = some (Value.ofNode key) := by
  obtain ⟨entries, raws, raws2d, fields, reading⟩ := ofNode_eq_ok.1 keyed.accepted
  obtain ⟨literals, isSection, last⟩ := keyed.literal
  rw [Node.childEntries?, Node.child?, asMapping?_of_fields fields, Option.bind_some,
    Option.bind_eq_some_iff] at isSection
  obtain ⟨literal, isField, isMapping⟩ := isSection
  have read := reading.literal
  simp only [isField, readLiteral, Declaration.mapping, isMapping, bind_eq_ok, pure_eq,
    Except.ok.injEq, exists_eq_left'] at read
  have valued := NameMap.lastEntry_map Value.ofNode table.index (literals.map fun e => (e.1.text, e.2))
  rw [last, List.map_map] at valued
  rw [← read, NameMap.get?_ofList]
  exact valued

theorem KeyedByLiteral.exists_row? (keyed : KeyedByLiteral node params table key cells) :
    ∃ row, table.row? key.text = some row ∧
      Table.typedRow params.types table.columns key.text cells = .ok row := by
  obtain ⟨entries, raws, raws2d, fields, reading⟩ := ofNode_eq_ok.1 keyed.accepted
  obtain ⟨element, rows, isElement, data, hasRow⟩ := keyed.row
  rw [Node.child?, asMapping?_of_fields fields, Option.bind_some] at isElement
  have typed := mapM_eq_ok.1 reading.tables
  rw [keyed.single] at typed
  cases typed with
  | @cons raw _ raws _ run none =>
    cases none
    have read := readMany_of_only (fun items isList => ?_) isElement reading.written
    · exact Table.exists_row?_of_typed (Table.get?_data_of_ofNode data hasRow read) run
    · rw [isList] at data
      cases data

theorem KeyedByLiteral.uses_iff (keyed : KeyedByLiteral node params table key cells) {name : String} :
    params.Uses name ↔ table.index = name := by
  simp [Uses, Choices.Used, keyed.single, keyed.single2d]

theorem KeyedByLiteral.indicesApart (keyed : KeyedByLiteral node params table key cells) :
    params.IndicesApart where
  columns := by
    intro other member column inColumns used
    rw [keyed.single, List.mem_singleton] at member
    rw [member, ← keyed.uses_iff.1 used] at inColumns
    exact keyed.notColumn inColumns
  results := by simp [keyed.single2d]

/-- A literal that keeps its text finds the row. -/
theorem KeyedByLiteral.findsRow (keyed : KeyedByLiteral node params table key cells)
    (keeps : key.KeepsText) : params.FindsRow table key.text cells := by
  intro given notGiven freeGiven
  have well := (Reachable.read keyed.accepted).wellFormed
  obtain ⟨row, isRow, typed⟩ := keyed.exists_row?
  have isValue : (params.start given).get? table.index = some (Value.ofNode key) := by
    rw [start, NameMap.get?_overlay, NameMap.get?_eq_none_iff.2 notGiven, Option.none_or,
      keyed.get?_literal]
  have sameText : (Value.ofNode key).display = key.text := (Value.display_ofNode_eq_text_iff key).2 keeps
  have lays : params.Lays (params.start given) [table.columns.zip row] [] := {
    rows := by
      rw [keyed.single]
      exact .cons (Table.layer_eq_ok.2 ⟨_, row, isValue, sameText ▸ isRow, rfl⟩) .nil
    cells := by
      rw [keyed.single2d]
      exact .nil }
  refine ⟨row, _, typed,
    (resolve_eq_ok_of_apart keyed.indicesApart).2 ⟨⟨_, _, lays, rfl⟩, fun name known => ?_⟩, ?_⟩
  · refine (lays.mem_keys_iff well).2 ?_
    rcases mentions_iff.1 ((well.parameters name).1 known) with isSet | isFree | used
    · exact .inr isSet
    · exact .inl (freeGiven name isFree)
    · rw [← keyed.uses_iff.1 used]
      exact .inr (.inl (NameMap.mem_keys_of_get? keyed.get?_literal))
  · intro column inColumns
    have isTable : table ∈ params.tables := keyed.single ▸ List.mem_singleton_self table
    have lengths := (well.tables table isTable).lengths key.text row isRow
    have named : (table.columns.zip row).map (·.1) = table.columns :=
      List.map_fst_zip (Nat.le_of_eq lengths.symm)
    rw [NameMap.get?_insertAll, List.append_nil, List.flatten_singleton]
    exact Option.or_of_isSome (NameMap.lastEntry_isSome_iff.2 (named.symm ▸ inColumns))

/-! ## The document of a key -/

namespace Example

/-- One table of one row, under a key that a literal gives to the index. -/
def keyedNode (key : Node) : Node := mapping [
  ("literal", mapping [("size", key)]),
  ("types", mapping [("size", .str "Table Index"), ("d", .str "String")]),
  ("tables", mapping [("index", .str "size"), ("columns", texts ["d"]),
    ("data", .map [(key, texts ["4"])])])]

def keyedTable (key : Node) : Table Value where
  index := "size"
  columns := ["d"]
  data := NameMap.ofList [(key.text, [.text "4"])]

def keyed (key : Node) : ParameterSet where
  literal := NameMap.ofList [("size", Value.ofNode key)]
  free := []
  tables := [keyedTable key]
  tables2d := []
  types := NameMap.ofList [("d", .string), ("size", .tableIndex)]
  description := NameMap.empty
  defaults := NameMap.empty
  choices := NameMap.empty
  common := some [[]]
  parameters := NameSet.ofNames ["d", "size"]

theorem read_keyed (key : Node) : ofNode (keyedNode key) = .ok (keyed key) := by cbv

theorem keyedByLiteral (key : Node) :
    KeyedByLiteral (keyedNode key) (keyed key) (keyedTable key) key [.str "4"] where
  accepted := read_keyed key
  single := rfl
  single2d := rfl
  notFree := List.not_mem_nil
  notColumn := by simp [keyedTable]
  literal := ⟨[(.str "size", key)], rfl, by simp [NameMap.lastEntry, keyedTable, Node.text]⟩
  row := by
    refine ⟨_, _, .inl rfl, rfl, texts ["4"], rfl, List.mem_singleton_self _, fun e member _ => ?_⟩
    exact List.mem_singleton.1 member

/-- Where the literal is shown by another text than the key, it has no row. -/
theorem resolve_keyed {key : Node} (differs : (Value.ofNode key).display ≠ key.text) :
    (keyed key).resolve NameMap.empty = .error (.missingRow "size" (Value.ofNode key).display) := by
  have isLiteral := (keyedByLiteral key).get?_literal
  have isValue : ((keyed key).literal.overlay NameMap.empty).get? (keyedTable key).index =
      some (Value.ofNode key) := by
    rw [NameMap.get?_overlay, NameMap.get?_empty, Option.none_or, isLiteral]
  have noRow : (keyedTable key).row? (Value.ofNode key).display = none := by
    rw [Table.row?, NameMap.get?_eq_none_iff, keyedTable, NameMap.mem_keys_ofList]
    exact fun isKey => differs (List.mem_singleton.1 isKey)
  have isKey := indexKey_eq_ok.2 ⟨_, isValue, rfl⟩
  have laid : applyTable ((keyed key).literal.overlay NameMap.empty) (keyedTable key) =
      .error (.missingRow "size" (Value.ofNode key).display) := by
    simp only [applyTable, isKey, bind, Except.bind, noRow]
    rfl
  have folded : (keyed key).tables.foldlM applyTable ((keyed key).literal.overlay NameMap.empty) =
      .error (.missingRow "size" (Value.ofNode key).display) := by
    rw [keyed, List.foldlM_cons]
    exact congrArg (· >>= _) laid
  rw [resolve, folded]
  rfl

end Example

/-- A caller can find the row only where the scalar keeps its text. -/
theorem keepsText_of_findsRow {key : Node}
    (finds : (Example.keyed key).FindsRow (Example.keyedTable key) key.text [.str "4"]) : key.KeepsText := by
  obtain ⟨row, values, -, resolved, -⟩ :=
    finds NameMap.empty List.not_mem_nil fun _ isFree => absurd isFree List.not_mem_nil
  by_contra changes
  rw [Example.resolve_keyed (mt (Value.display_ofNode_eq_text_iff key).1 changes)] at resolved
  cases resolved

/-- **A literal finds the row under its own scalar** in every document exactly when the
scalar keeps its text. -/
theorem literal_finds_row_iff (key : Node) :
    (∀ node params table cells, KeyedByLiteral node params table key cells →
      params.FindsRow table key.text cells) ↔ key.KeepsText := by
  constructor
  · intro finds
    -- One document is enough to tell, the one with nothing else in it.
    have found := finds _ _ _ _ (Example.keyedByLiteral key)
    exact keepsText_of_findsRow found
  · intro keeps node params table cells keyed
    exact keyed.findsRow keeps

/-- A whole number that is written as a double. -/
def Example.three : Node := .float (Binary64.ofInt 3)

/-- A key and a literal that are both written `3.0` miss each other, because the literal is
shown as `3`. -/
theorem literal_finds_row_refuted :
    KeyedByLiteral (Example.keyedNode Example.three) (Example.keyed Example.three)
      (Example.keyedTable Example.three) Example.three [.str "4"] ∧
      Example.three.text = "3.0" ∧
      (Example.keyed Example.three).resolve NameMap.empty = .error (.missingRow "size" "3") ∧
      ¬ (Example.keyed Example.three).FindsRow (Example.keyedTable Example.three)
        Example.three.text [.str "4"] := by
  have isKey : Example.three.text = "3.0" := by decide +kernel
  have isShown : (Value.ofNode Example.three).display = "3" := by decide +kernel
  have differs : (Value.ofNode Example.three).display ≠ Example.three.text := by
    rw [isKey, isShown]
    decide
  have missed := Example.resolve_keyed differs
  rw [isShown] at missed
  refine ⟨Example.keyedByLiteral _, isKey, missed, fun finds => ?_⟩
  exact Node.not_keepsText_float_ofInt (by decide) (keepsText_of_findsRow finds)

end ParameterSet

end PartCatalog
