/-
# Last writers -- where the value of each name comes from

Where no table overwrites an index, every table finds its indices as the caller and the
literals have them, so what each lays over the values is known from the start.  Of what is
laid under one name the last counts (`lastEntry_flatten_eq_some`): a name has the cell of
the last two-way table with that result, else the cell of the last table with that column,
else the caller's value, else its literal (`ValueOf`).  Resolving succeeds exactly when each
index has a value whose text is a key of its table and each parameter has a source
(`Resolvable`).
-/
import PartCatalog.Proofs.UnionResolve

set_option autoImplicit false

namespace PartCatalog

open Outcome

/-! ## The last of a list -/

/-- Whether `x` is the last member of a list that has a property. -/
def IsLast {α : Type} (p : α → Prop) (xs : List α) (x : α) : Prop :=
  ∃ before after, xs = before ++ x :: after ∧ p x ∧ ∀ y ∈ after, ¬ p y

section IsLast

variable {α : Type} {p : α → Prop}

theorem IsLast.mem {xs : List α} {x : α} (last : IsLast p xs x) : x ∈ xs := by
  obtain ⟨before, after, rfl, -, -⟩ := last
  exact List.mem_append_right _ List.mem_cons_self

theorem IsLast.has {xs : List α} {x : α} (last : IsLast p xs x) : p x := by
  obtain ⟨before, after, -, has, -⟩ := last
  exact has

theorem isLast_cons_iff {x y : α} {xs : List α} :
    IsLast p (y :: xs) x ↔ IsLast p xs x ∨ (x = y ∧ p y ∧ ∀ z ∈ xs, ¬ p z) := by
  constructor
  · rintro ⟨before, after, split, has, none_after⟩
    cases before with
    | nil =>
        obtain ⟨rfl, rfl⟩ := List.cons.inj split
        exact .inr ⟨rfl, has, none_after⟩
    | cons z before =>
        obtain ⟨-, rfl⟩ := List.cons.inj split
        exact .inl ⟨before, after, rfl, has, none_after⟩
  · rintro (⟨before, after, rfl, has, none_after⟩ | ⟨rfl, has, none_after⟩)
    · exact ⟨y :: before, after, rfl, has, none_after⟩
    · exact ⟨[], xs, rfl, has, none_after⟩

end IsLast

namespace NameMap

variable {α β : Type} {name : String}

theorem lastEntry_append (es fs : List (String × α)) :
    lastEntry name (es ++ fs) = (lastEntry name fs).or (lastEntry name es) := by
  induction es with
  | nil => simp [lastEntry]
  | cons e es ih => rw [List.cons_append, lastEntry, lastEntry, ih, Option.or_assoc]

/-- In names side by side with payloads, the last payload of a name stands where the name
does for the last time. -/
theorem lastEntry_zip_eq_some {names : List String} {xs : List α} {x : α}
    (sameLength : names.length = xs.length) :
    lastEntry name (names.zip xs) = some x ↔
      ∃ pos : Nat, names[pos]? = some name ∧ xs[pos]? = some x ∧
        ∀ later, pos < later → names[later]? ≠ some name := by
  induction names generalizing xs with
  | nil => simp [lastEntry]
  | cons n names ih =>
      cases xs with
      | nil => cases sameLength
      | cons y xs =>
          have lengths : names.length = xs.length := Nat.succ.inj sameLength
          rw [List.zip_cons_cons, lastEntry, Option.or_eq_some_iff, ih lengths,
            lastEntry_eq_none_iff, List.map_fst_zip (Nat.le_of_eq lengths)]
          constructor
          · rintro (⟨pos, isName, isCell, none_later⟩ | ⟨absent, here⟩)
            · refine ⟨pos + 1, isName, isCell, fun later above => ?_⟩
              obtain ⟨later, rfl⟩ := Nat.exists_eq_add_of_lt above
              exact none_later (pos + 1 + later) (by omega)
            · split at here
              · next same =>
                cases here
                refine ⟨0, congrArg some same, rfl, fun later above isName => absent ?_⟩
                cases later with
                | zero => exact absurd above (Nat.lt_irrefl _)
                | succ later => exact List.mem_iff_getElem?.2 ⟨later, isName⟩
              · cases here
          · rintro ⟨pos, isName, isCell, none_later⟩
            cases pos with
            | zero =>
                have same : n = name := Option.some.inj isName
                obtain rfl : y = x := Option.some.inj isCell
                refine .inr ⟨fun member => ?_, if_pos same⟩
                obtain ⟨later, isLater⟩ := List.mem_iff_getElem?.1 (member : name ∈ names)
                exact none_later (later + 1) (Nat.succ_pos _) isLater
            | succ pos =>
                refine .inl ⟨pos, isName, isCell, fun later above => ?_⟩
                exact none_later (later + 1) (Nat.succ_lt_succ above)

section Laid

variable {ε : Type} {f : β → Except ε (List (String × α))} {p : β → Prop} {xs : List β}
  {laid : List (List (String × α))}

/-- A name is among the entries that the members of a list bring when a member brings it. -/
theorem mem_names_flatten_iff (each : List.Forall₂ (fun x es => f x = .ok es) xs laid)
    (named : ∀ x ∈ xs, ∀ es, f x = .ok es → (name ∈ es.map (·.1) ↔ p x)) :
    name ∈ laid.flatten.map (·.1) ↔ ∃ x ∈ xs, p x := by
  have brought := (List.forall₂_and_left _ _).2 ⟨fun x (member : x ∈ xs) => member, each⟩
  rw [exists_mem_congr brought fun x es fact => (named x fact.1 es fact.2).symm, List.map_flatten,
    List.mem_flatten]
  simp only [List.mem_map, exists_exists_and_eq_and]

/-- Of such entries, the last of a name comes from the last member that brings it. -/
theorem lastEntry_flatten_eq_some (each : List.Forall₂ (fun x es => f x = .ok es) xs laid)
    (named : ∀ x ∈ xs, ∀ es, f x = .ok es → (name ∈ es.map (·.1) ↔ p x)) {v : α} :
    lastEntry name laid.flatten = some v ↔
      ∃ x es, IsLast p xs x ∧ f x = .ok es ∧ lastEntry name es = some v := by
  induction each with
  | nil => simp [lastEntry, IsLast]
  | @cons x es xs laid isLaid each ih =>
      have namedRest := fun y (member : y ∈ xs) => named y (List.mem_cons_of_mem _ member)
      have none_later : lastEntry name laid.flatten = none ↔ ∀ y ∈ xs, ¬ p y := by
        rw [lastEntry_eq_none_iff, mem_names_flatten_iff each namedRest]
        simp only [not_exists, not_and]
      rw [List.flatten_cons, lastEntry_append, Option.or_eq_some_iff, ih namedRest, none_later]
      simp only [isLast_cons_iff]
      constructor
      · rintro (⟨y, fs, last, isLaid', found⟩ | ⟨none_has, found⟩)
        · exact ⟨y, fs, .inl last, isLaid', found⟩
        · have has : p x := (named x List.mem_cons_self es isLaid).1
            (lastEntry_isSome_iff.1 (Option.isSome_of_eq_some found))
          exact ⟨x, es, .inr ⟨rfl, has, none_has⟩, isLaid, found⟩
      · rintro ⟨y, fs, last | ⟨rfl, -, none_has⟩, isLaid', found⟩
        · exact .inl ⟨y, fs, last, isLaid', found⟩
        · obtain rfl : es = fs := Except.ok.inj (isLaid.symm.trans isLaid')
          exact .inr ⟨none_has, found⟩

end Laid

end NameMap

/-! ## Cells -/

/-- The cell that a table has under a key and a column; a repeated column counts where it
stands for the last time. -/
def Table.CellAt (table : Table Value) (key column : String) (cell : Value) : Prop :=
  ∃ (row : List Value) (pos : Nat), table.row? key = some row ∧ row[pos]? = some cell ∧
    table.columns[pos]? = some column ∧ ∀ later, pos < later → table.columns[later]? ≠ some column

/-- The cell that a two-way table has under two keys; a repeated column counts where it
stands first. -/
def Table2D.CellAt (table : Table2D Value) (rowKey colKey : String) (cell : Value) : Prop :=
  ∃ (row : List Value) (pos : Nat), table.data.get? rowKey = some row ∧ row[pos]? = some cell ∧
    table.columns[pos]? = some colKey ∧ ∀ earlier, earlier < pos → table.columns[earlier]? ≠ some colKey

theorem Table2D.lookup?_eq_some {table : Table2D Value} {rowKey colKey : String} {cell : Value} :
    table.lookup? rowKey colKey = some cell ↔ table.CellAt rowKey colKey cell := by
  unfold lookup? CellAt
  cases found : table.columns.findIdx? (· = colKey) with
  | none =>
      simp only [reduceCtorEq, false_iff]
      rintro ⟨row, pos, -, -, isCol, -⟩
      have member : colKey ∈ table.columns := List.mem_of_getElem? isCol
      simpa using List.findIdx?_eq_none_iff.1 found colKey member
  | some pos =>
      obtain ⟨below, isCol, none_earlier⟩ := List.findIdx?_eq_some_iff_getElem.1 found
      simp only [decide_eq_true_eq] at isCol none_earlier
      simp only [Option.bind_eq_some_iff]
      constructor
      · rintro ⟨row, isRow, isCell⟩
        refine ⟨row, pos, isRow, isCell, ?_, fun earlier before isCol' => ?_⟩
        · rw [List.getElem?_eq_getElem below, isCol]
        · rw [List.getElem?_eq_getElem (Nat.lt_trans before below)] at isCol'
          exact none_earlier earlier before (Option.some.inj isCol')
      · rintro ⟨row, pos', isRow, isCell, isCol', none_earlier'⟩
        obtain ⟨below', same⟩ := List.getElem?_eq_some_iff.1 isCol'
        -- Neither place is before the other, because both are the first.
        have place : pos = pos' := by
          rcases Nat.lt_trichotomy pos pos' with before | equal | before
          · refine absurd ?_ (none_earlier' pos before)
            rw [List.getElem?_eq_getElem below, isCol]
          · exact equal
          · exact absurd same (none_earlier pos' before)
        exact ⟨row, isRow, place ▸ isCell⟩

namespace ParameterSet

/-! ## Where a value comes from -/

/-- The value that a name starts with: the caller's, or failing that a literal. -/
def StartsWith (params : ParameterSet) (free : NameMap Value) (name : String) (v : Value) : Prop :=
  free.get? name = some v ∨ (free.get? name = none ∧ params.literal.get? name = some v)

theorem get?_start_eq_some {params : ParameterSet} {free : NameMap Value} {name : String} {v : Value} :
    (params.start free).get? name = some v ↔ params.StartsWith free name v := by
  rw [start, NameMap.get?_overlay, Option.or_eq_some_iff, StartsWith]

/-- The value of a name, given those of the caller: a cell of the last two-way table with
that result, or else of the last table with that column, or else what it starts with. -/
inductive ValueOf (params : ParameterSet) (free : NameMap Value) (name : String) : Value → Prop where
  | result {table : Table2D Value} {row col cell : Value}
      (last : IsLast (·.result = name) params.tables2d table)
      (rowValue : params.StartsWith free table.rowIndex row)
      (colValue : params.StartsWith free table.colIndex col)
      (cellAt : table.CellAt row.display col.display cell) : ValueOf params free name cell
  | column {table : Table Value} {index cell : Value}
      (noResult : ∀ table ∈ params.tables2d, table.result ≠ name)
      (last : IsLast (name ∈ ·.columns) params.tables table)
      (indexValue : params.StartsWith free table.index index)
      (cellAt : table.CellAt index.display name cell) : ValueOf params free name cell
  | start {v : Value} (noResult : ∀ table ∈ params.tables2d, table.result ≠ name)
      (noColumn : ∀ table ∈ params.tables, name ∉ table.columns)
      (startsWith : params.StartsWith free name v) : ValueOf params free name v

/-- Whether each index starts with a value whose text is a key of its table, and each
parameter has its value from the caller or from the set. -/
structure Resolvable (params : ParameterSet) (free : NameMap Value) : Prop where
  rows : ∀ table ∈ params.tables, ∃ v, params.StartsWith free table.index v ∧ v.display ∈ table.keys
  rows2d : ∀ table ∈ params.tables2d,
    ∃ v, params.StartsWith free table.rowIndex v ∧ v.display ∈ table.rowKeys
  columns2d : ∀ table ∈ params.tables2d,
    ∃ v, params.StartsWith free table.colIndex v ∧ v.display ∈ table.columns
  sources : ∀ name ∈ NameMap.keys params.parameters, name ∈ free.keys ∨ params.Sets name

/-- Whether no table gives an index its value. -/
structure IndicesApart (params : ParameterSet) : Prop where
  columns : ∀ table ∈ params.tables, ∀ column ∈ table.columns, ¬ params.Uses column
  results : ∀ table ∈ params.tables2d, ¬ params.Uses table.result

variable {params : ParameterSet} {free : NameMap Value}

theorem IndicesApart.isLocal (apart : params.IndicesApart) :
    ∀ layer ∈ params.layers, layer.Local params.indices params.indices :=
  local_of_mem_layers (fun _ isIndex => isIndex)
    (fun table member column inColumns isIndex =>
      apart.columns table member column inColumns (mem_indices_iff.1 isIndex))
    fun table member isIndex => apart.results table member (mem_indices_iff.1 isIndex)

/-! ## What the layers lay -/

section Laid

variable {v : NameMap Value} {name : String} {cell : Value}

/-- A table lays a cell under each column, the one under its last place. -/
theorem exists_laid_iff {table : Table Value}
    (lengths : ∀ key row, table.row? key = some row → row.length = table.columns.length) :
    (∃ es, table.layer v = .ok es ∧ NameMap.lastEntry name es = some cell) ↔
      ∃ index, v.get? table.index = some index ∧ table.CellAt index.display name cell := by
  simp only [Table.layer_eq_ok, Table.CellAt]
  constructor
  · rintro ⟨es, ⟨index, row, found, isRow, rfl⟩, last⟩
    obtain ⟨pos, isColumn, isCell, none_later⟩ :=
      (NameMap.lastEntry_zip_eq_some (lengths _ row isRow).symm).1 last
    exact ⟨index, found, row, pos, isRow, isCell, isColumn, none_later⟩
  · rintro ⟨index, found, row, pos, isRow, isCell, isColumn, none_later⟩
    refine ⟨_, ⟨index, row, found, isRow, rfl⟩, ?_⟩
    exact (NameMap.lastEntry_zip_eq_some (lengths _ row isRow).symm).2
      ⟨pos, isColumn, isCell, none_later⟩

/-- A two-way table lays one cell, under its result. -/
theorem exists_laid2d_iff {table : Table2D Value} (named : table.result = name) :
    (∃ es, table.layer v = .ok es ∧ NameMap.lastEntry name es = some cell) ↔
      ∃ row col, v.get? table.rowIndex = some row ∧ v.get? table.colIndex = some col ∧
        table.CellAt row.display col.display cell := by
  simp only [Table2D.layer_eq_ok, ← Table2D.lookup?_eq_some]
  constructor
  · rintro ⟨es, ⟨row, col, cell', isRow, isCol, isCell, rfl⟩, last⟩
    obtain rfl : cell' = cell := by simpa [NameMap.lastEntry, named] using last
    exact ⟨row, col, isRow, isCol, isCell⟩
  · rintro ⟨row, col, isRow, isCol, isCell⟩
    exact ⟨_, ⟨row, col, cell, isRow, isCol, isCell, rfl⟩, by simp [NameMap.lastEntry, named]⟩

/-- What the layers of a set lay: a row for each table, then a cell for each two-way table. -/
structure Lays (params : ParameterSet) (v : NameMap Value)
    (rows cells : List (List (String × Value))) : Prop where
  rows : List.Forall₂ (fun (table : Table Value) es => table.layer v = .ok es) params.tables rows
  cells : List.Forall₂ (fun (table : Table2D Value) es => table.layer v = .ok es) params.tables2d cells

theorem forall₂_layers_iff {laid : List (List (String × Value))} :
    List.Forall₂ (fun layer es => layer v = .ok es) params.layers laid ↔
      ∃ rows cells, params.Lays v rows cells ∧ laid = rows ++ cells := by
  rw [layers, forall₂_append_left_iff]
  simp only [List.forall₂_map_left_iff]
  constructor
  · rintro ⟨rows, cells, laidRows, laidCells, rfl⟩
    exact ⟨rows, cells, ⟨laidRows, laidCells⟩, rfl⟩
  · rintro ⟨rows, cells, lays, rfl⟩
    exact ⟨rows, cells, lays.rows, lays.cells, rfl⟩

variable {rows cells : List (List (String × Value))}

theorem Lays.mem_names_rows (well : params.WellFormed) (lays : params.Lays v rows cells) :
    name ∈ rows.flatten.map (·.1) ↔ ∃ table ∈ params.tables, name ∈ table.columns :=
  NameMap.mem_names_flatten_iff lays.rows fun table member es laid => by
    rw [Table.names_of_layer (well.tables table member).lengths laid]

theorem Lays.mem_names_cells (lays : params.Lays v rows cells) :
    name ∈ cells.flatten.map (·.1) ↔ ∃ table ∈ params.tables2d, table.result = name :=
  NameMap.mem_names_flatten_iff lays.cells fun table _ es laid => by
    rw [Table2D.names_of_layer laid, List.mem_singleton, eq_comm]

theorem Lays.lastEntry_rows (well : params.WellFormed) (lays : params.Lays v rows cells) :
    NameMap.lastEntry name rows.flatten = some cell ↔
      ∃ table index, IsLast (name ∈ ·.columns) params.tables table ∧
        v.get? table.index = some index ∧ table.CellAt index.display name cell := by
  rw [NameMap.lastEntry_flatten_eq_some (p := (name ∈ ·.columns)) lays.rows]
  · constructor
    · rintro ⟨table, es, last, laid⟩
      obtain ⟨index, found, cellAt⟩ :=
        (exists_laid_iff (well.tables table last.mem).lengths).1 ⟨es, laid⟩
      exact ⟨table, index, last, found, cellAt⟩
    · rintro ⟨table, index, last, found, cellAt⟩
      obtain ⟨es, laid⟩ :=
        (exists_laid_iff (well.tables table last.mem).lengths).2 ⟨index, found, cellAt⟩
      exact ⟨table, es, last, laid⟩
  · intro table member es laid
    rw [Table.names_of_layer (well.tables table member).lengths laid]

theorem Lays.lastEntry_cells (lays : params.Lays v rows cells) :
    NameMap.lastEntry name cells.flatten = some cell ↔
      ∃ table row col, IsLast (·.result = name) params.tables2d table ∧
        v.get? table.rowIndex = some row ∧ v.get? table.colIndex = some col ∧
        table.CellAt row.display col.display cell := by
  rw [NameMap.lastEntry_flatten_eq_some (p := (·.result = name)) lays.cells]
  · constructor
    · rintro ⟨table, es, last, laid⟩
      obtain ⟨row, col, rest⟩ := (exists_laid2d_iff last.has).1 ⟨es, laid⟩
      exact ⟨table, row, col, last, rest⟩
    · rintro ⟨table, row, col, last, rest⟩
      obtain ⟨es, laid⟩ := (exists_laid2d_iff last.has).2 ⟨row, col, rest⟩
      exact ⟨table, es, last, laid⟩
  · intro table _ es laid
    rw [Table2D.names_of_layer laid, List.mem_singleton, eq_comm]

theorem Lays.get?_eq_some (well : params.WellFormed) (lays : params.Lays (params.start free) rows cells)
    {x : Value} :
    ((params.start free).insertAll (rows ++ cells).flatten).get? name = some x ↔
      params.ValueOf free name x := by
  have noCell : NameMap.lastEntry name cells.flatten = none ↔
      ∀ table ∈ params.tables2d, table.result ≠ name := by
    rw [NameMap.lastEntry_eq_none_iff, lays.mem_names_cells]
    simp only [not_exists, not_and, ne_eq]
  have noRow : NameMap.lastEntry name rows.flatten = none ↔
      ∀ table ∈ params.tables, name ∉ table.columns := by
    rw [NameMap.lastEntry_eq_none_iff, lays.mem_names_rows well]
    simp only [not_exists, not_and]
  rw [NameMap.get?_insertAll, List.flatten_append, NameMap.lastEntry_append, Option.or_eq_some_iff,
    Option.or_eq_some_iff, Option.or_eq_none_iff, noCell, noRow, lays.lastEntry_cells,
    lays.lastEntry_rows well]
  simp only [get?_start_eq_some]
  constructor
  · rintro ((⟨table, row, col, last, isRow, isCol, cellAt⟩ | ⟨noResult, table, index, last, isIndex, cellAt⟩) |
      ⟨⟨noResult, noColumn⟩, startsWith⟩)
    · exact .result last isRow isCol cellAt
    · exact .column noResult last isIndex cellAt
    · exact .start noResult noColumn startsWith
  · rintro (⟨last, isRow, isCol, cellAt⟩ | ⟨noResult, last, isIndex, cellAt⟩ |
      ⟨noResult, noColumn, startsWith⟩)
    · exact .inl (.inl ⟨_, _, _, last, isRow, isCol, cellAt⟩)
    · exact .inl (.inr ⟨noResult, _, _, last, isIndex, cellAt⟩)
    · exact .inr ⟨⟨noResult, noColumn⟩, startsWith⟩

theorem Lays.mem_keys_iff (well : params.WellFormed) (lays : params.Lays (params.start free) rows cells) :
    name ∈ ((params.start free).insertAll (rows ++ cells).flatten).keys ↔
      name ∈ free.keys ∨ params.Sets name := by
  rw [NameMap.mem_keys_insertAll, List.flatten_append, List.map_append, List.mem_append,
    lays.mem_names_rows well, lays.mem_names_cells, start, NameMap.mem_keys_overlay, Sets]
  simp only [@eq_comm _ _ name]
  grind

end Laid

/-! ## Resolving -/

/-- Each layer finds what it looks for exactly when each index has a key of its table. -/
theorem exists_lays_iff (well : params.WellFormed) :
    (∃ rows cells, params.Lays (params.start free) rows cells) ↔
      (∀ table ∈ params.tables, ∃ v, params.StartsWith free table.index v ∧ v.display ∈ table.keys) ∧
        ∀ table ∈ params.tables2d,
          (∃ v, params.StartsWith free table.rowIndex v ∧ v.display ∈ table.rowKeys) ∧
            ∃ v, params.StartsWith free table.colIndex v ∧ v.display ∈ table.columns := by
  have split : (∃ rows cells, params.Lays (params.start free) rows cells) ↔
      (∃ rows, List.Forall₂ (fun (table : Table Value) es => table.layer (params.start free) = .ok es)
        params.tables rows) ∧
      ∃ cells, List.Forall₂ (fun (table : Table2D Value) es => table.layer (params.start free) = .ok es)
        params.tables2d cells :=
    ⟨fun ⟨rows, cells, lays⟩ => ⟨⟨rows, lays.rows⟩, cells, lays.cells⟩,
      fun ⟨⟨rows, laidRows⟩, cells, laidCells⟩ => ⟨rows, cells, laidRows, laidCells⟩⟩
  rw [split, exists_forall₂_iff, exists_forall₂_iff]
  refine and_congr (forall₂_congr fun table _ => ?_) (forall₂_congr fun table member => ?_)
  · simp only [Table.exists_layer_iff, get?_start_eq_some]
  · rw [Table2D.exists_layer_iff (well.tables2d table member).lengths]
    simp only [get?_start_eq_some]
    constructor
    · rintro ⟨v, w, isRow, isCol, inRows, inColumns⟩
      exact ⟨⟨v, isRow, inRows⟩, w, isCol, inColumns⟩
    · rintro ⟨⟨v, isRow, inRows⟩, w, isCol, inColumns⟩
      exact ⟨v, w, isRow, isCol, inRows, inColumns⟩

/-- Where no table gives an index its value, resolving lays what the layers of the set lay
over the values at the start. -/
theorem resolve_eq_ok_of_apart (apart : params.IndicesApart) {values : NameMap Value} :
    params.resolve free = .ok values ↔
      (∃ rows cells, params.Lays (params.start free) rows cells ∧
        values = (params.start free).insertAll (rows ++ cells).flatten) ∧
      ∀ name ∈ NameMap.keys params.parameters, name ∈ values.keys := by
  rw [resolve_eq_ok, Layer.run_eq_ok_of_spared apart.isLocal]
  refine and_congr_left fun _ => ?_
  simp only [forall₂_layers_iff]
  constructor
  · rintro ⟨_, ⟨rows, cells, lays, rfl⟩, rfl⟩
    exact ⟨rows, cells, lays, rfl⟩
  · rintro ⟨rows, cells, lays, rfl⟩
    exact ⟨_, ⟨rows, cells, lays, rfl⟩, rfl⟩

/-- Then it succeeds exactly when each index has a key of its table and each parameter has a
source. -/
theorem exists_resolve_iff (well : params.WellFormed) (apart : params.IndicesApart) :
    (∃ values, params.resolve free = .ok values) ↔ params.Resolvable free := by
  constructor
  · rintro ⟨values, resolved⟩
    obtain ⟨⟨rows, cells, lays, rfl⟩, complete⟩ := (resolve_eq_ok_of_apart apart).1 resolved
    obtain ⟨inRows, inCells⟩ := (exists_lays_iff well).1 ⟨rows, cells, lays⟩
    exact {
      rows := inRows
      rows2d := fun table member => (inCells table member).1
      columns2d := fun table member => (inCells table member).2
      sources := fun name known => (lays.mem_keys_iff well).1 (complete name known) }
  · intro resolvable
    obtain ⟨rows, cells, lays⟩ := (exists_lays_iff well).2 ⟨resolvable.rows, fun table member =>
      ⟨resolvable.rows2d table member, resolvable.columns2d table member⟩⟩
    refine ⟨_, (resolve_eq_ok_of_apart apart).2 ⟨⟨rows, cells, lays, rfl⟩, fun name known => ?_⟩⟩
    exact (lays.mem_keys_iff well).2 (resolvable.sources name known)

/-- **The values of a set.**  Where no table gives an index its value, resolving succeeds
exactly when each index has a key of its table and each parameter has a source.  Then the
names with a value are the parameters and what the caller named, and each has the value of
its last writer. -/
theorem resolve_of_indices_apart (reach : Reachable params)
    (columns : ∀ table ∈ params.tables, ∀ column ∈ table.columns, ¬ params.Uses column)
    (results : ∀ table ∈ params.tables2d, ¬ params.Uses table.result) (free : NameMap Value) :
    ((∃ values, params.resolve free = .ok values) ↔ params.Resolvable free) ∧
    ∀ values, params.resolve free = .ok values →
      (∀ name, name ∈ values.keys ↔ name ∈ NameMap.keys params.parameters ∨ name ∈ free.keys) ∧
      ∀ name v, values.get? name = some v ↔ params.ValueOf free name v := by
  have well := reach.wellFormed
  have apart : params.IndicesApart := ⟨columns, results⟩
  refine ⟨exists_resolve_iff well apart, fun values resolved => ?_⟩
  obtain ⟨⟨rows, cells, lays, rfl⟩, complete⟩ := (resolve_eq_ok_of_apart apart).1 resolved
  refine ⟨fun name => ⟨fun member => ?_, ?_⟩, fun name v => lays.get?_eq_some well⟩
  · rcases (lays.mem_keys_iff well).1 member with given | isSet
    · exact .inr given
    · exact .inl (isSet.known well)
  · rintro (known | given)
    · exact complete name known
    · exact (lays.mem_keys_iff well).2 (.inl given)

/-- In an order for a screw with its base the price is from the two-way table, which has none
for this size in zinc, the diameter from the screw's own table, and the note from the caller. -/
theorem resolve_united_order :
    ∃ values, Example.united.resolve Example.order = .ok values ∧
      Example.united.Resolvable Example.order ∧ "note" ∈ values.keys ∧
      Example.united.ValueOf Example.order "price" .absent ∧
      Example.united.ValueOf Example.order "d" (.number (Binary64.ofInt 4)) ∧
      Example.united.ValueOf Example.order "note" (.text "urgent") := by
  obtain ⟨success, answer⟩ := resolve_of_indices_apart Example.reachable_united (by decide +kernel)
    (by decide +kernel) Example.order
  obtain ⟨values, resolved⟩ : ∃ values, Example.united.resolve Example.order = .ok values :=
    Outcome.exists_eq_ok_of_isOk (by decide +kernel)
  obtain ⟨names, writers⟩ := answer values resolved
  have found : ∀ name v, ((Example.united.resolve Example.order).toOption.bind (·.get? name)) = some v →
      values.get? name = some v := by
    intro name v evaluated
    rw [resolved] at evaluated
    exact evaluated
  exact ⟨values, resolved, success.1 ⟨values, resolved⟩, (names "note").2 (.inr (by decide +kernel)),
    (writers _ _).1 (found _ _ (by decide +kernel)), (writers _ _).1 (found _ _ (by decide +kernel)),
    (writers _ _).1 (found _ _ (by decide +kernel))⟩

end ParameterSet

end PartCatalog
