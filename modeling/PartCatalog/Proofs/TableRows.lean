/-
# Table rows -- which rows of a document a table has

The rows of a data mapping are kept under the texts of their keys, and different keys can
have one text: the integer `8` and the string `"8"` have.  A table is read exactly when all
its rows are lists, and then has under each text the row of the last key of that text
(`Table.rows_eq_ok`).  So it has all rows of the document just where no two keys have one
text (`Table.rows_kept_iff`); a document can have two rows of which the table has only the
second (`Table.rows_kept_refuted`).
-/
import Mathlib.Data.List.Dedup
import PartCatalog.Proofs.NameMapLaws
import PartCatalog.Proofs.SchemaLaws

set_option autoImplicit false

namespace PartCatalog

open Outcome

/-! ## Documents -/

/-- The node under a field of an element. -/
def Node.child? (element : Node) (name : String) : Option Node :=
  element.asMapping?.bind fun entries => Node.field? entries name

/-- The entries under a field of an element, where it is a mapping. -/
def Node.childEntries? (element : Node) (name : String) : Option (List (Node × Node)) :=
  (element.child? name).bind Node.asMapping?

/-! ## Reading rows -/

namespace Table

/-- Whether a map has the rows of some entries: each is a list, and under a text stands the
last row of that text. -/
structure RowsOf (entries : List (Node × Node)) (data : NameMap (List Node)) : Prop where
  lists : ∀ e ∈ entries, ∃ cells, e.2.asSequence? = some cells
  last : ∀ text, data.get? text =
    (NameMap.lastEntry text (entries.map fun e => (e.1.text, e.2))).bind Node.asSequence?

variable {element : String} {node : Node} {entries : List (Node × Node)} {data : NameMap (List Node)}

/-- Rows that are listed under the texts of their keys. -/
theorem rowsOf_of_listed {listed : List (String × List Node)}
    (each : List.Forall₂ (fun e row => (e.1.text, e.2.asSequence?) = (row.1, some row.2)) entries listed) :
    RowsOf entries (NameMap.ofList listed) where
  lists := by
    intro e member
    obtain ⟨row, -, same⟩ := exists_left_of_forall₂ each.flip e member
    exact ⟨row.2, (Prod.mk.inj same).2⟩
  last := by
    intro text
    have sameRows : (entries.map fun e => (e.1.text, e.2)).map (fun e => (e.1, e.2.asSequence?)) =
        listed.map fun row => (row.1, some row.2) := by
      rw [List.map_map]
      exact map_eq_map_of_forall₂ each fun e row same => same
    -- The last row and the last node of a text stand at one place.
    have sameLast := congrArg (NameMap.lastEntry text) sameRows
    rw [NameMap.lastEntry_map, NameMap.lastEntry_map] at sameLast
    have joined := congrArg (Option.bind · id) sameLast
    simp only [Option.bind_map, Function.id_comp, Option.bind_fun_some] at joined
    rw [NameMap.get?_ofList, joined]

/-- One row of a data mapping, under the text of its key. -/
def readRow (element : String) (e : Node × Node) : Declaration.Result (String × List Node) :=
  match e.2.asSequence? with
  | some cells => .ok (e.1.text, cells)
  | none => .error (.malformed element (.rowNotList e.1.text))

theorem rows_eq_readRow (element : String) (node : Node) :
    rows element node = Declaration.mapping element node >>= fun entries =>
      entries.mapM (readRow element) >>= fun rows => pure (NameMap.ofList rows) :=
  rfl

theorem readRow_eq_ok {e : Node × Node} {row : String × List Node} :
    readRow element e = .ok row ↔ (e.1.text, e.2.asSequence?) = (row.1, some row.2) := by
  obtain ⟨text, cells⟩ := row
  unfold readRow
  cases e.2.asSequence? <;> simp

/-- **Reading rows**: all of them are lists, and the last of a text is kept. -/
theorem rows_eq_ok :
    rows element node = .ok data ↔ ∃ entries, node.asMapping? = some entries ∧ RowsOf entries data := by
  simp only [rows_eq_readRow, bind_eq_ok, Declaration.mapping_eq_ok, mapM_eq_ok, readRow_eq_ok, pure_eq,
    Except.ok.injEq]
  refine exists_congr fun entries => and_congr_right fun _ => ?_
  constructor
  · rintro ⟨listed, each, rfl⟩
    exact rowsOf_of_listed each
  · intro rowsOf
    obtain ⟨listed, each⟩ : ∃ listed : List (String × List Node),
        List.Forall₂ (fun e row => (e.1.text, e.2.asSequence?) = (row.1, some row.2)) entries listed := by
      refine exists_forall₂_iff.2 fun e member => ?_
      obtain ⟨cells, isSequence⟩ := rowsOf.lists e member
      exact ⟨(e.1.text, cells), congrArg (Prod.mk _) isSequence⟩
    refine ⟨listed, each, NameMap.ext_get? fun text => ?_⟩
    rw [(rowsOf_of_listed each).last, rowsOf.last]

/-! ## Keeping rows -/

/-- Whether a map has one row for each entry, with its cells under the text of its key. -/
structure KeepsRows (entries : List (Node × Node)) (data : NameMap (List Node)) : Prop where
  count : data.size = entries.length
  cells : ∀ e ∈ entries, ∃ cells, e.2.asSequence? = some cells ∧ data.get? e.1.text = some cells

theorem map_fst_listed (entries : List (Node × Node)) :
    (entries.map fun e => (e.1.text, e.2)).map (·.1) = entries.map fun e => e.1.text := by
  rw [List.map_map]
  rfl

theorem RowsOf.mem_keys_iff (rowsOf : RowsOf entries data) {text : String} :
    text ∈ data.keys ↔ text ∈ entries.map fun e => e.1.text := by
  rw [NameMap.mem_keys_iff, rowsOf.last, ← map_fst_listed, ← NameMap.lastEntry_isSome_iff]
  cases last : NameMap.lastEntry text (entries.map fun e => (e.1.text, e.2)) with
  | none => simp
  | some row =>
      obtain ⟨e, member, same⟩ := List.mem_map.1 (NameMap.mem_of_lastEntry last)
      obtain ⟨cells, isSequence⟩ := rowsOf.lists e member
      rw [(Prod.mk.inj same).2] at isSequence
      simp [isSequence]

theorem RowsOf.size_eq (rowsOf : RowsOf entries data) :
    data.size = (entries.map fun e => e.1.text).dedup.length := by
  have perm : data.keys.Perm (entries.map fun e => e.1.text).dedup :=
    (List.perm_ext_iff_of_nodup (NameMap.nodup_keys _) (List.nodup_dedup _)).2 fun text => by
      rw [rowsOf.mem_keys_iff, List.mem_dedup]
  rw [← perm.length_eq, NameMap.keys, List.length_map, NameMap.size]

/-- A row is lost exactly if two keys have one text. -/
theorem RowsOf.keepsRows_iff (rowsOf : RowsOf entries data) :
    KeepsRows entries data ↔ (entries.map fun e => e.1.text).Nodup := by
  constructor
  · intro keeps
    have sameLength : (entries.map fun e => e.1.text).dedup.length = (entries.map fun e => e.1.text).length := by
      rw [← rowsOf.size_eq, keeps.count, List.length_map]
    exact List.dedup_eq_self.1 ((List.dedup_sublist _).eq_of_length sameLength)
  · intro distinct
    refine ⟨?_, fun e member => ?_⟩
    · rw [rowsOf.size_eq, distinct.dedup, List.length_map]
    · obtain ⟨cells, isSequence⟩ := rowsOf.lists e member
      rw [← map_fst_listed] at distinct
      have isLast := (NameMap.lastEntry_eq_some_iff distinct).2 (List.mem_map_of_mem member)
      exact ⟨cells, isSequence, by rw [rowsOf.last, isLast, Option.bind_some, isSequence]⟩

/-- The rows that are read from an element are those of its data mapping. -/
theorem exists_rowsOf {mandatory optional : List String} {fields : List (Node × Node)} {value : Node}
    (isElement : Declaration.fields element mandatory optional node = .ok fields)
    (isField : Declaration.field element fields "data" = .ok value) (read : rows element value = .ok data) :
    ∃ entries, node.childEntries? "data" = some entries ∧ RowsOf entries data := by
  obtain ⟨entries, isMapping, rowsOf⟩ := rows_eq_ok.1 read
  refine ⟨entries, ?_, rowsOf⟩
  rw [Node.childEntries?, Node.child?, (Declaration.fields_eq_ok.1 isElement).1, Option.bind_some,
    Declaration.field_eq_ok_iff.1 isField, Option.bind_some, isMapping]

/-- Whether these are the rows that are read from an element, as a table or as a two-way
table. -/
def ReadsRows (node : Node) (data : NameMap (List Node)) : Prop :=
  (∃ table, ofNode node = .ok table ∧ table.data = data) ∨
    ∃ table, Table2D.ofNode node = .ok table ∧ table.data = data

theorem ReadsRows.exists_rowsOf (reads : ReadsRows node data) :
    ∃ entries, node.childEntries? "data" = some entries ∧ RowsOf entries data := by
  rcases reads with ⟨table, read, rfl⟩ | ⟨table, read, rfl⟩
  · simp only [ofNode, bind_eq_ok, pure_eq, Except.ok.injEq] at read
    obtain ⟨fields, isElement, -, -, index, -, -, -, columns, -, value, isField, data, isData, rfl⟩ := read
    exact Table.exists_rowsOf isElement isField isData
  · simp only [Table2D.ofNode, bind_eq_ok] at read
    obtain ⟨fields, isElement, -, -, rowIndex, -, -, -, colIndex, -, read⟩ := read
    split at read
    · cases read
    · simp only [bind_eq_ok, pure_eq, Except.ok.injEq] at read
      obtain ⟨-, -, columns, -, -, -, result, -, value, isField, data, isData, rfl⟩ := read
      exact Table.exists_rowsOf isElement isField isData

/-- **No row is lost exactly where no two keys have one text.**  Of the rows of one text the
last is always there. -/
theorem rows_kept_iff (reads : ReadsRows node data) :
    ∃ entries, node.childEntries? "data" = some entries ∧ RowsOf entries data ∧
      (KeepsRows entries data ↔ (entries.map fun e => e.1.text).Nodup) := by
  obtain ⟨entries, isData, rowsOf⟩ := reads.exists_rowsOf
  exact ⟨entries, isData, rowsOf, rowsOf.keepsRows_iff⟩

namespace Example

/-- A table of one column. -/
def rowsNode (rows : List (Node × Node)) : Node := .map [
  (.str "index", .str "size"), (.str "columns", .seq [.str "d"]), (.str "data", .map rows)]

def rowsTable (data : NameMap (List Node)) : Table Node := ⟨"size", ["d"], data⟩

/-- Rows under keys of several kinds. -/
def mixedRows : List (Node × Node) :=
  [(.int 8, .seq [.str "4"]), (.str "M3", .seq [.str "3"]), (.bool true, .seq [.null])]

def mixedData : NameMap (List Node) :=
  NameMap.ofList [("8", [.str "4"]), ("M3", [.str "3"]), ("True", [.null])]

theorem read_mixed : ofNode (rowsNode mixedRows) = .ok (rowsTable mixedData) := rfl

/-- Rows under a number and under the string of its digits. -/
def eightRows : List (Node × Node) := [(.int 8, .seq [.str "4"]), (.str "8", .seq [.str "5"])]

def eightData : NameMap (List Node) := NameMap.ofList [("8", [.str "5"])]

theorem read_eight : ofNode (rowsNode eightRows) = .ok (rowsTable eightData) := rfl

end Example

/-- Keys of several kinds keep their rows. -/
theorem rows_kept_mixed :
    ReadsRows (Example.rowsNode Example.mixedRows) Example.mixedData ∧
      KeepsRows Example.mixedRows Example.mixedData := by
  have reads : ReadsRows (Example.rowsNode Example.mixedRows) Example.mixedData :=
    .inl ⟨_, Example.read_mixed, rfl⟩
  obtain ⟨entries, isData, -, keeps⟩ := rows_kept_iff reads
  obtain rfl : Example.mixedRows = entries := Option.some.inj isData
  exact ⟨reads, keeps.2 (by decide +kernel)⟩

/-- A document with two different keys has two rows, and the table that is read from it only
the second. -/
theorem rows_kept_refuted :
    Yaml.distinctKeys Example.eightRows = true ∧
      (Example.rowsNode Example.eightRows).childEntries? "data" = some Example.eightRows ∧
      ofNode (Example.rowsNode Example.eightRows) = .ok (Example.rowsTable Example.eightData) ∧
      Example.eightData.toList = [("8", [.str "5"])] ∧
      ¬ KeepsRows Example.eightRows Example.eightData :=
  ⟨by decide, rfl, Example.read_eight, rfl, fun keeps => absurd keeps.count (by decide)⟩

end Table

end PartCatalog
