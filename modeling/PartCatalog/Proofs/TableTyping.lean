/-
# Table typing -- when the cells of a table can be typed, and which cell is at fault

A table is typed row by row in ascending order of the row keys, and a row cell by cell.  Both
kinds of tables do the same: they check their indices in order and then read each row as the
cells of some parameters, one parameter for each position, where an ordinary table has the
parameter of the column and a two-way table its result at every position (`typedData`).  So one
description fits both (`Typing`): a table can be typed exactly if its indices key tables and
each row has one readable cell for each position; what it is typed to has the readings of its
cells in their places; and if the indices are right, the error is that of the smallest row key
at fault, namely its length or else its leftmost unreadable cell (`RowFault`).  Nothing but
the types of the indices and of the positions has a part in it (`typedData_congr`).
-/
import PartCatalog.Proofs.TypedTables

set_option autoImplicit false

namespace PartCatalog

open Outcome

/-! ## Rows -/

namespace Table

variable {types more : TypeMap} {positions : List String} {key : String} {row : List Node}
  {values : List Value} {e : CellError}

/-- Whether a row has a cell for each position, and each of them can be read. -/
structure RowFits (types : TypeMap) (positions : List String) (row : List Node) : Prop where
  count : row.length = positions.length
  cells : ∀ (i : Nat) name cell, positions[i]? = some name → row[i]? = some cell →
    ∃ v, (types.typeOf name).normalize name cell = .ok v

/-- Whether these are the readings of the cells of a row, each in its place. -/
structure RowReads (types : TypeMap) (positions : List String) (row : List Node) (values : List Value) :
    Prop where
  count : row.length = positions.length
  sameCount : values.length = positions.length
  cells : ∀ (i : Nat) name cell, positions[i]? = some name → row[i]? = some cell →
    ∃ v, values[i]? = some v ∧ (types.typeOf name).normalize name cell = .ok v

/-- What is wrong with a row: its length, or else its leftmost cell that cannot be read. -/
inductive RowFault (types : TypeMap) (positions : List String) (key : String) (row : List Node) :
    CellError → Prop where
  | length (different : row.length ≠ positions.length) :
      RowFault types positions key row (.rowLength key positions.length row.length)
  | cell {i : Nat} {name : String} {cell : Node} {e : CellError} (count : row.length = positions.length)
      (isName : positions[i]? = some name) (isCell : row[i]? = some cell)
      (fails : (types.typeOf name).normalize name cell = .error e)
      (leftmost : ∀ j < i, ∀ other left, positions[j]? = some other → row[j]? = some left →
        ∃ v, (types.typeOf other).normalize other left = .ok v) :
      RowFault types positions key row e

theorem typedRow_eq_ok_iff : typedRow types positions key row = .ok values ↔ RowReads types positions row values := by
  unfold typedRow
  split
  · next count =>
    have zipped : (positions.zip row).length = positions.length := by rw [List.length_zip, count, Nat.min_self]
    rw [mapM_eq_ok_iff_getElem?, zipped]
    constructor
    · rintro ⟨sameCount, reads⟩
      exact ⟨count, sameCount, fun i name cell isName isCell =>
        reads i (name, cell) (List.getElem?_zip_eq_some.2 ⟨isName, isCell⟩)⟩
    · rintro ⟨-, sameCount, reads⟩
      refine ⟨sameCount, fun i pair isPair => ?_⟩
      obtain ⟨isName, isCell⟩ := List.getElem?_zip_eq_some.1 isPair
      exact reads i pair.1 pair.2 isName isCell
  · next different => exact iff_of_false (fun read => nomatch read) fun reads => different reads.count

theorem typedRow_eq_error_iff : typedRow types positions key row = .error e ↔ RowFault types positions key row e := by
  unfold typedRow
  split
  · next count =>
    rw [mapM_eq_error]
    simp only [isFirst_iff_getElem?, ← exists_eq_ok_iff]
    constructor
    · rintro ⟨⟨name, cell⟩, ⟨i, isPair, -, leftmost⟩, fails⟩
      obtain ⟨isName, isCell⟩ := List.getElem?_zip_eq_some.1 isPair
      refine .cell count isName isCell fails fun j below other left isOther isLeft => ?_
      exact leftmost j below (other, left) (List.getElem?_zip_eq_some.2 ⟨isOther, isLeft⟩)
    · intro fault
      cases fault with
      | length different => exact absurd count different
      | @cell i name cell e _ isName isCell fails leftmost =>
          refine ⟨(name, cell), ⟨i, List.getElem?_zip_eq_some.2 ⟨isName, isCell⟩, ⟨e, fails⟩, ?_⟩, fails⟩
          intro j below pair isPair
          obtain ⟨isOther, isLeft⟩ := List.getElem?_zip_eq_some.1 isPair
          exact leftmost j below pair.1 pair.2 isOther isLeft
  · next different =>
    constructor
    · rintro ⟨⟩
      exact .length different
    · intro fault
      cases fault with
      | length => rfl
      | cell count => exact absurd count different

/-- A row fits exactly if it can be read. -/
theorem exists_typedRow_iff : (∃ values, typedRow types positions key row = .ok values) ↔ RowFits types positions row := by
  constructor
  · rintro ⟨values, read⟩
    have reads := typedRow_eq_ok_iff.1 read
    refine ⟨reads.count, fun i name cell isName isCell => ?_⟩
    exact (reads.cells i name cell isName isCell).imp fun _ => And.right
  · intro fits
    rw [exists_eq_ok_iff]
    rintro ⟨e, fails⟩
    cases typedRow_eq_error_iff.1 fails with
    | length different => exact different fits.count
    | @cell i name cell _ _ isName isCell failsToo _ =>
        obtain ⟨v, read⟩ := fits.cells i name cell isName isCell
        cases read.symm.trans failsToo

theorem typedRow_congr (same : ∀ name ∈ positions, more.typeOf name = types.typeOf name) :
    typedRow more positions = typedRow types positions := by
  funext key row
  have each : ∀ pair ∈ positions.zip row,
      (more.typeOf pair.1).normalize pair.1 pair.2 = (types.typeOf pair.1).normalize pair.1 pair.2 := by
    intro pair member
    rw [same pair.1 (List.of_mem_zip member).1]
  unfold typedRow
  rw [Outcome.mapM_congr each]

end Table

/-- A row of a two-way table is read as the cells of its result, one for each column. -/
theorem Table2D.typedRow_eq (types : TypeMap) (result : String) (columns : List String) :
    typedRow types result columns = Table.typedRow types (columns.map fun _ => result) := by
  funext key row
  unfold typedRow Table.typedRow
  rw [List.length_map]
  split
  · next count => rw [Outcome.mapM_zip_const count.symm]
  · rfl

/-! ## Tables -/

/-- The readings of the rows of a table with these indices and one parameter for each position. -/
def typedData (types : TypeMap) (indices positions : List String) (data : NameMap (List Node)) :
    Except CellError (NameMap (List Value)) :=
  indices.mapM (Table.requireIndex types) >>= fun _ => data.traverse (Table.typedRow types positions)

/-- What the typing of rows comes to: when it succeeds and with what, and with which error it
fails. -/
structure Typing (types : TypeMap) (indices positions : List String) (data : NameMap (List Node))
    (run : Except CellError (NameMap (List Value))) : Prop where
  /-- It succeeds exactly if all indices key tables and all rows fit. -/
  succeeds : (∃ read, run = .ok read) ↔
    (∀ index ∈ indices, types.typeOf index = .tableIndex) ∧
      ∀ key row, data.get? key = some row → Table.RowFits types positions row
  /-- It then gives, under the same keys, the readings of the cells in their places. -/
  values : ∀ read, run = .ok read → read.keys = data.keys ∧
    ∀ key row, data.get? key = some row →
      ∃ values, read.get? key = some values ∧ Table.RowReads types positions row values
  /-- If all indices key tables, it fails with what is wrong with the smallest key at fault. -/
  fault : (∀ index ∈ indices, types.typeOf index = .tableIndex) → ∀ e, run = .error e ↔
    ∃ key row, data.get? key = some row ∧ Table.RowFault types positions key row e ∧
      ∀ other before, data.get? other = some before → other < key → Table.RowFits types positions before
  /-- Else it fails with the first index that does not. -/
  index : (∃ index ∈ indices, types.typeOf index ≠ .tableIndex) → ∃ index,
    IsFirst (fun index => types.typeOf index ≠ .tableIndex) indices index ∧
      run = .error (.indexNotTableIndex index (types.typeOf index))

section typedData

variable {types more : TypeMap} {indices positions : List String} {data : NameMap (List Node)}
  {e : CellError}

theorem Table.requireIndex_eq_error {name : String} :
    Table.requireIndex types name = .error e ↔
      types.typeOf name ≠ .tableIndex ∧ e = .indexNotTableIndex name (types.typeOf name) := by
  unfold Table.requireIndex
  split
  · next right => simp [right]
  · next found other =>
    have wrong : types.typeOf name ≠ .tableIndex := fun right => other right
    simp [wrong, eq_comm]

theorem mapM_requireIndex_eq_error :
    indices.mapM (Table.requireIndex types) = .error e ↔ ∃ index,
      IsFirst (fun index => types.typeOf index ≠ .tableIndex) indices index ∧
        e = .indexNotTableIndex index (types.typeOf index) := by
  simp only [mapM_eq_error, Table.requireIndex_eq_error, exists_and_left, exists_eq, and_true]
  constructor
  · rintro ⟨index, first, -, isError⟩
    exact ⟨index, first, isError⟩
  · rintro ⟨index, first, isError⟩
    exact ⟨index, first, first.has, isError⟩

theorem exists_mapM_requireIndex_iff :
    (∃ units, indices.mapM (Table.requireIndex types) = .ok units) ↔
      ∀ index ∈ indices, types.typeOf index = .tableIndex := by
  rw [exists_eq_ok_iff]
  simp only [mapM_requireIndex_eq_error]
  constructor
  · intro noneWrong index member
    by_contra wrong
    obtain ⟨first, isFirst⟩ := exists_isFirst_iff.2
      (⟨index, member, wrong⟩ : ∃ index ∈ indices, types.typeOf index ≠ .tableIndex)
    exact noneWrong ⟨_, first, isFirst, rfl⟩
  · rintro right ⟨e, index, first, -⟩
    exact first.has (right index first.mem)

theorem typing_typedData (types : TypeMap) (indices positions : List String) (data : NameMap (List Node)) :
    Typing types indices positions data (typedData types indices positions data) where
  succeeds := by
    rw [← exists_mapM_requireIndex_iff]
    simp only [typedData, bind_eq_ok]
    rw [exists_comm]
    simp only [exists_and_left, exists_and_right, NameMap.exists_traverse_iff, Table.exists_typedRow_iff]
  values := by
    intro read run
    obtain ⟨-, -, run⟩ := bind_eq_ok.1 run
    obtain ⟨sameKeys, reads⟩ := NameMap.traverse_eq_ok_iff_get?.1 run
    refine ⟨sameKeys, fun key row found => ?_⟩
    obtain ⟨values, found', read⟩ := reads key row found
    exact ⟨values, found', Table.typedRow_eq_ok_iff.1 read⟩
  fault := by
    intro right e
    obtain ⟨units, checked⟩ := exists_mapM_requireIndex_iff.2 right
    have started : typedData types indices positions data = data.traverse (Table.typedRow types positions) := by
      rw [typedData, checked]
      rfl
    rw [started, NameMap.traverse_eq_error_iff_get?]
    simp only [Table.typedRow_eq_error_iff, Table.exists_typedRow_iff]
  index := by
    intro wrong
    obtain ⟨index, first⟩ := exists_isFirst_iff.2 wrong
    exact ⟨index, first, bind_eq_error.2 (.inl (mapM_requireIndex_eq_error.2 ⟨index, first, rfl⟩))⟩

/-- Only the types of the indices and of the positions matter. -/
theorem typedData_congr (indexed : ∀ index ∈ indices, more.typeOf index = types.typeOf index)
    (placed : ∀ name ∈ positions, more.typeOf name = types.typeOf name) :
    typedData more indices positions data = typedData types indices positions data := by
  have checked : ∀ index ∈ indices, Table.requireIndex more index = Table.requireIndex types index := by
    intro index member
    unfold Table.requireIndex
    rw [indexed index member]
  rw [typedData, typedData, Outcome.mapM_congr checked, Table.typedRow_congr placed]

end typedData

theorem Table.typed_eq (types : TypeMap) (table : Table Node) :
    table.typed types = (typedData types [table.index] table.columns table.data).map
      fun data => { table with data } := by
  simp only [typed, typedData, List.mapM_cons, List.mapM_nil]
  cases requireIndex types table.index with
  | error => rfl
  | ok => cases table.data.traverse (typedRow types table.columns) <;> rfl

theorem Table.data_typed (types : TypeMap) (table : Table Node) :
    (table.typed types).map (·.data) = typedData types [table.index] table.columns table.data := by
  rw [typed_eq]
  cases typedData types [table.index] table.columns table.data <;> rfl

theorem Table2D.typed_eq (types : TypeMap) (table : Table2D Node) :
    table.typed types =
      (typedData types [table.rowIndex, table.colIndex] (table.columns.map fun _ => table.result) table.data).map
        fun data => { table with data } := by
  simp only [typed, typedData, List.mapM_cons, List.mapM_nil, typedRow_eq]
  cases Table.requireIndex types table.rowIndex with
  | error => rfl
  | ok =>
      cases Table.requireIndex types table.colIndex with
      | error => rfl
      | ok => cases table.data.traverse (Table.typedRow types _) <;> rfl

theorem Table2D.data_typed (types : TypeMap) (table : Table2D Node) :
    (table.typed types).map (·.data) = typedData types [table.rowIndex, table.colIndex]
      (table.columns.map fun _ => table.result) table.data := by
  rw [typed_eq]
  cases typedData types [table.rowIndex, table.colIndex] (table.columns.map fun _ => table.result) table.data
  all_goals rfl

/-- **Tables are typed cell by cell.**  A table can be typed exactly if its index keys tables and
each row has one readable cell for each column, a two-way table exactly if both its indices do and
each row has one readable cell of the result for each column.  The typed table has the names and
the keys it had, and in each place the reading of the cell that stood there.  If the indices are
right, the error is that of the smallest row key at fault: its length, or else its leftmost cell
that cannot be read.  Only the types of the parameters of a table matter. -/
theorem tables_typed_cell_by_cell (types : TypeMap) :
    (∀ table : Table Node,
      Typing types [table.index] table.columns table.data ((table.typed types).map (·.data)) ∧
        (∀ typed, table.typed types = .ok typed →
          typed.index = table.index ∧ typed.columns = table.columns) ∧
        ∀ more : TypeMap, (∀ name ∈ table.parameters, more.typeOf name = types.typeOf name) →
          table.typed more = table.typed types) ∧
      ∀ table : Table2D Node,
        Typing types [table.rowIndex, table.colIndex] (table.columns.map fun _ => table.result) table.data
            ((table.typed types).map (·.data)) ∧
          (∀ typed, table.typed types = .ok typed → typed.rowIndex = table.rowIndex ∧
            typed.colIndex = table.colIndex ∧ typed.columns = table.columns ∧ typed.result = table.result) ∧
          ∀ more : TypeMap, (∀ name ∈ table.parameters, more.typeOf name = types.typeOf name) →
            table.typed more = table.typed types := by
  refine ⟨fun table => ⟨?_, ?_, ?_⟩, fun table => ⟨?_, ?_, ?_⟩⟩
  · rw [Table.data_typed]
    exact typing_typedData types _ _ _
  · intro typed run
    rw [Table.typed_eq, map_eq_ok] at run
    obtain ⟨data, -, rfl⟩ := run
    exact ⟨rfl, rfl⟩
  · intro more same
    obtain ⟨indexed, placed⟩ := List.forall_mem_cons.1 same
    rw [Table.typed_eq, Table.typed_eq, typedData_congr (by simpa using indexed) placed]
  · rw [Table2D.data_typed]
    exact typing_typedData types _ _ _
  · intro typed run
    rw [Table2D.typed_eq, map_eq_ok] at run
    obtain ⟨data, -, rfl⟩ := run
    exact ⟨rfl, rfl, rfl, rfl⟩
  · intro more same
    have indexed : ∀ index ∈ [table.rowIndex, table.colIndex], more.typeOf index = types.typeOf index := by
      intro index member
      exact same index (List.mem_append_left [table.result] member)
    have placed : ∀ name ∈ table.columns.map fun _ => table.result, more.typeOf name = types.typeOf name := by
      intro name member
      obtain ⟨-, -, rfl⟩ := List.mem_map.1 member
      exact same table.result (by simp [Table2D.parameters])
    rw [Table2D.typed_eq, Table2D.typed_eq, typedData_congr indexed placed]

/-- Of a row without a head and a row with two of them, the one of the smaller key counts, and a
width has no part in it. -/
theorem tables_typed_cell_by_cell_screws :
    let types : TypeMap := NameMap.ofList [("size", .tableIndex)]
    let table : Table Node :=
      ⟨"size", ["head"], NameMap.ofList [("M3", [.str "none"]), ("M10", [.int 16, .int 18])]⟩
    types.typeOf "size" = .tableIndex ∧ table.typed types = .error (.rowLength "M10" 1 2) ∧
      (∀ name ∈ table.parameters, TypeMap.typeOf (types.insert "width" .number) name = types.typeOf name) ∧
      table.typed (types.insert "width" .number) = table.typed types := by
  intro types table
  obtain ⟨typing, -, dependence⟩ := (tables_typed_cell_by_cell types).1 table
  have right : ∀ index ∈ [table.index], types.typeOf index = .tableIndex := by decide
  have same : ∀ name ∈ table.parameters,
      TypeMap.typeOf (types.insert "width" .number) name = types.typeOf name := by decide
  have first : table.data.get? "M10" = some [.int 16, .int 18] := rfl
  have keys : table.data.keys = ["M10", "M3"] := by decide
  refine ⟨by decide, map_eq_error.1 ((typing.fault right _).2 ⟨"M10", _, first, ?_, ?_⟩), same,
    dependence _ same⟩
  · exact .length (by decide)
  · intro other row found below
    have known : other ∈ table.data.keys := NameMap.mem_keys_of_get? found
    have smallest : ∀ other ∈ ["M10", "M3"], ¬ other < "M10" := by decide
    exact absurd below (smallest other (keys ▸ known))

end PartCatalog
