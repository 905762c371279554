/-
# Layers -- resolving as a run of overlays

Resolving lays the row of one table after the other over the values, then the cell of
each two-way table.  Each is a `Layer`: it looks at the values so far and answers what to
lay over them, or fails.  `resolve_eq_ok` says that resolving is a `run` of the layers of
a set that leaves no parameter without a value.

What a run does depends on little of the values.  A layer is `Local` to some names when
it looks at nothing else, and spares other names when it lays nothing under them.  Two
runs whose layers spare each other's names do not notice each other, in whatever order
their layers take turns (`run_interleaved`).  A run whose layers spare the names they look
at lays over what each of them would have laid over the values at the start
(`run_eq_ok_of_spared`).
-/
import PartCatalog.ParameterSet.Resolve
import PartCatalog.Proofs.ChoiceLaws
import PartCatalog.Proofs.NameMapLaws
import PartCatalog.Proofs.Outcome

set_option autoImplicit false

namespace PartCatalog

open Outcome

/-! ## Values that agree -/

/-- Whether two maps have the same under each of some names. -/
def NameMap.AgreeOn {α : Type} (names : List String) (m n : NameMap α) : Prop :=
  ∀ name ∈ names, m.get? name = n.get? name

namespace NameMap

variable {α : Type} {names : List String} {m n : NameMap α}

theorem AgreeOn.insertAll (agree : AgreeOn names m n) (es : List (String × α)) :
    AgreeOn names (m.insertAll es) (n.insertAll es) := by
  intro name member
  rw [get?_insertAll, get?_insertAll, agree name member]

theorem get?_insertAll_of_not_mem {es : List (String × α)} {name : String}
    (absent : name ∉ es.map (·.1)) : (m.insertAll es).get? name = m.get? name := by
  rw [get?_insertAll, lastEntry_eq_none_iff.2 absent, Option.none_or]

/-- Entries under other names are not noticed. -/
theorem AgreeOn.insertAll_left (agree : AgreeOn names m n) {es : List (String × α)}
    (apart : ∀ e ∈ es, e.1 ∉ names) : AgreeOn names (m.insertAll es) n := by
  intro name member
  have absent : name ∉ es.map (·.1) := by
    intro listed
    obtain ⟨e, inEntries, rfl⟩ := List.mem_map.1 listed
    exact apart e inEntries member
  rw [get?_insertAll_of_not_mem absent, agree name member]

/-- Values that agree on some names have the same ones of them. -/
theorem AgreeOn.mem_keys_iff (agree : AgreeOn names m n) {name : String} (member : name ∈ names) :
    name ∈ m.keys ↔ name ∈ n.keys := by
  rw [NameMap.mem_keys_iff, NameMap.mem_keys_iff, agree name member]

theorem insertAll_append (m : NameMap α) (es fs : List (String × α)) :
    m.insertAll (es ++ fs) = (m.insertAll es).insertAll fs := List.foldl_append

end NameMap

/-! ## Layers -/

/-- What to lay over the values so far, or why there is nothing to lay. -/
abbrev Layer : Type := NameMap Value → Except ResolveError (List (String × Value))

namespace Layer

/-- Whether a layer looks at no more than some names, and lays nothing under others. -/
structure Local (layer : Layer) (reads spares : List String) : Prop where
  reads : ∀ v w, NameMap.AgreeOn reads v w → layer v = layer w
  spares : ∀ v es, layer v = .ok es → ∀ e ∈ es, e.1 ∉ spares

/-- Lay the layers over the values, one after the other. -/
def run (layers : List Layer) (values : NameMap Value) : Except ResolveError (NameMap Value) :=
  layers.foldlM (fun values layer => (layer values).map values.insertAll) values

theorem run_nil_eq_ok {v w : NameMap Value} : run [] v = .ok w ↔ w = v := by
  rw [run, List.foldlM_nil, pure_eq, Except.ok.injEq, eq_comm]

theorem run_cons_eq_ok {layer : Layer} {layers : List Layer} {v w : NameMap Value} :
    run (layer :: layers) v = .ok w ↔
      ∃ es, layer v = .ok es ∧ run layers (v.insertAll es) = .ok w := by
  simp only [run, List.foldlM_cons, bind_eq_ok, map_eq_ok]
  constructor
  · rintro ⟨_, ⟨es, laid, rfl⟩, rest⟩
    exact ⟨es, laid, rest⟩
  · rintro ⟨es, laid, rest⟩
    exact ⟨_, ⟨es, laid, rfl⟩, rest⟩

theorem run_append (layers more : List Layer) (v : NameMap Value) :
    run (layers ++ more) v = run layers v >>= run more := List.foldlM_append ..

/-- Steps that each lay something over the values are a run of what they lay. -/
theorem run_map {α : Type} {step : NameMap Value → α → Except ResolveError (NameMap Value)}
    {layer : α → Layer} (lays : ∀ v x, step v x = (layer x v).map v.insertAll) (xs : List α)
    (v : NameMap Value) : run (xs.map layer) v = xs.foldlM step v := by
  rw [run, List.foldlM_map, funext₂ lays]

/-- What no layer lays anything under stays. -/
theorem get?_run {layers : List Layer} {name : String} {v w : NameMap Value}
    (spared : ∀ layer ∈ layers, ∀ v es, layer v = .ok es → ∀ e ∈ es, e.1 ≠ name)
    (ran : run layers v = .ok w) : w.get? name = v.get? name := by
  induction layers generalizing v with
  | nil => rw [run_nil_eq_ok.1 ran]
  | cons layer layers ih =>
      obtain ⟨es, laid, rest⟩ := run_cons_eq_ok.1 ran
      have absent : name ∉ es.map (·.1) := by
        intro listed
        obtain ⟨e, inEntries, same⟩ := List.mem_map.1 listed
        exact spared layer List.mem_cons_self v es laid e inEntries same
      rw [ih (fun other member => spared other (List.mem_cons_of_mem _ member)) rest,
        NameMap.get?_insertAll_of_not_mem absent]

/-! ## Two runs at once -/

/-- The members of two lists taking turns, those of each in their order. -/
inductive Interleaved {α : Type} : List α → List α → List α → Prop where
  | nil : Interleaved [] [] []
  | left {x : α} {xs ys zs : List α} (rest : Interleaved xs ys zs) : Interleaved (x :: xs) ys (x :: zs)
  | right {y : α} {xs ys zs : List α} (rest : Interleaved xs ys zs) : Interleaved xs (y :: ys) (y :: zs)

theorem interleaved_append {α : Type} (xs ys : List α) : Interleaved xs ys (xs ++ ys) := by
  induction xs with
  | nil =>
      induction ys with
      | nil => exact .nil
      | cons y ys ih => exact .right ih
  | cons x xs ih => exact .left ih

theorem Interleaved.append {α : Type} {xs ys zs xs' ys' zs' : List α} (first : Interleaved xs ys zs)
    (second : Interleaved xs' ys' zs') : Interleaved (xs ++ xs') (ys ++ ys') (zs ++ zs') := by
  induction first with
  | nil => exact second
  | left _ ih => exact .left ih
  | right _ ih => exact .right ih

section Interleaving

variable {left right both : List Layer} {ours theirs : List String}

/-- **Two runs that do not notice each other.**  A run of both succeeds exactly when each
does on its own, and each side finds in the end what it would have found alone. -/
theorem run_interleaved (turns : Interleaved left right both)
    (localLeft : ∀ layer ∈ left, layer.Local ours theirs)
    (localRight : ∀ layer ∈ right, layer.Local theirs ours) {v vl vr : NameMap Value}
    (agreeLeft : v.AgreeOn ours vl) (agreeRight : v.AgreeOn theirs vr) :
    ((∃ w, run both v = .ok w) ↔ (∃ wl, run left vl = .ok wl) ∧ ∃ wr, run right vr = .ok wr) ∧
      ∀ w wl wr, run both v = .ok w → run left vl = .ok wl → run right vr = .ok wr →
        w.AgreeOn ours wl ∧ w.AgreeOn theirs wr := by
  -- On the turns. Whoever's turn it is sees its own values, and the other side keeps seeing its own.
  induction turns generalizing v vl vr with
  | nil =>
      simp only [run_nil_eq_ok, exists_eq, and_self, true_and]
      rintro w wl wr rfl rfl rfl
      exact ⟨agreeLeft, agreeRight⟩
  | @left layer left right both turns ih =>
      have isLocal := localLeft layer List.mem_cons_self
      have sees : layer v = layer vl := isLocal.reads v vl agreeLeft
      simp only [run_cons_eq_ok, sees]
      cases laid : layer vl with
      | error e => simp
      | ok es =>
          simp only [Except.ok.injEq, exists_eq_left']
          have apart := isLocal.spares vl es laid
          exact ih (fun other member => localLeft other (List.mem_cons_of_mem _ member)) localRight
            (agreeLeft.insertAll es) (agreeRight.insertAll_left apart)
  | @right layer left right both turns ih =>
      have isLocal := localRight layer List.mem_cons_self
      have sees : layer v = layer vr := isLocal.reads v vr agreeRight
      simp only [run_cons_eq_ok, sees]
      cases laid : layer vr with
      | error e => simp
      | ok es =>
          simp only [Except.ok.injEq, exists_eq_left']
          have apart := isLocal.spares vr es laid
          exact ih localLeft (fun other member => localRight other (List.mem_cons_of_mem _ member))
            (agreeLeft.insertAll_left apart) (agreeRight.insertAll es)

end Interleaving

/-! ## A run that spares what it looks at -/

/-- Such a run succeeds exactly when each layer does on the values at the start, and lays
over what they lay, in their order. -/
theorem run_eq_ok_of_spared {layers : List Layer} {names : List String} {v w : NameMap Value}
    (isLocal : ∀ layer ∈ layers, layer.Local names names) :
    run layers v = .ok w ↔
      ∃ laid, List.Forall₂ (fun layer es => layer v = .ok es) layers laid ∧
        w = v.insertAll laid.flatten := by
  -- On the layers, for all values that agree with those at the start on the names looked at.
  have general : ∀ u : NameMap Value, u.AgreeOn names v → (run layers u = .ok w ↔
      ∃ laid, List.Forall₂ (fun layer es => layer v = .ok es) layers laid ∧
        w = u.insertAll laid.flatten) := by
    induction layers with
    | nil =>
        intro u _
        simp only [run_nil_eq_ok, List.forall₂_nil_left_iff, exists_eq_left, List.flatten_nil]
        rfl
    | cons layer layers ih =>
        intro u agree
        have first := isLocal layer List.mem_cons_self
        have sees : layer u = layer v := first.reads u v agree
        simp only [run_cons_eq_ok, List.forall₂_cons_left_iff, sees]
        constructor
        · rintro ⟨es, laid, rest⟩
          have agree' : (u.insertAll es).AgreeOn names v := agree.insertAll_left (first.spares v es laid)
          obtain ⟨others, each, rfl⟩ := (ih (fun other member =>
            isLocal other (List.mem_cons_of_mem _ member)) _ agree').1 rest
          exact ⟨es :: others, ⟨es, others, laid, each, rfl⟩, (NameMap.insertAll_append u es _).symm⟩
        · rintro ⟨_, ⟨es, others, laid, each, rfl⟩, rfl⟩
          have agree' : (u.insertAll es).AgreeOn names v := agree.insertAll_left (first.spares v es laid)
          refine ⟨es, laid, (ih (fun other member =>
            isLocal other (List.mem_cons_of_mem _ member)) _ agree').2 ⟨others, each, ?_⟩⟩
          exact NameMap.insertAll_append u es _
  exact general v fun _ _ => rfl

end Layer

/-! ## The layer of a table -/

open ParameterSet

/-- The row that a table has under the value of its index. -/
def Table.layer (table : Table Value) : Layer := fun values => do
  let key ← indexKey values table.index
  match table.row? key with
  | some row => return table.columns.zip row
  | none => .error (.missingRow table.index key)

/-- The cell that a two-way table has under the values of its indices. -/
def Table2D.layer (table : Table2D Value) : Layer := fun values => do
  let rowKey ← indexKey values table.rowIndex
  let colKey ← indexKey values table.colIndex
  match table.data.get? rowKey with
  | none => .error (.missingRow table.rowIndex rowKey)
  | some _ =>
    match table.lookup? rowKey colKey with
    | none => .error (.missingColumn table.colIndex colKey)
    | some value => return [(table.result, value)]

theorem ParameterSet.indexKey_eq_ok {values : NameMap Value} {index key : String} :
    indexKey values index = .ok key ↔ ∃ value, values.get? index = some value ∧ value.display = key := by
  unfold indexKey
  cases values.get? index <;> simp

theorem Table.applyTable_eq (values : NameMap Value) (table : Table Value) :
    applyTable values table = (table.layer values).map values.insertAll := by
  rw [applyTable, layer, map_bind]
  congr 1
  funext key
  cases table.row? key <;> rfl

theorem Table2D.applyTable2D_eq (values : NameMap Value) (table : Table2D Value) :
    applyTable2D values table = (table.layer values).map values.insertAll := by
  rw [applyTable2D, layer, map_bind]
  congr 1
  funext rowKey
  rw [map_bind]
  congr 1
  funext colKey
  cases table.data.get? rowKey with
  | none => rfl
  | some row => cases table.lookup? rowKey colKey <;> rfl

/-- A table lays its row over its columns. -/
theorem Table.layer_eq_ok {table : Table Value} {values : NameMap Value} {es : List (String × Value)} :
    table.layer values = .ok es ↔
      ∃ value row, values.get? table.index = some value ∧ table.row? value.display = some row ∧
        es = table.columns.zip row := by
  unfold layer
  rw [bind_eq_ok]
  constructor
  · rintro ⟨key, keyed, laid⟩
    obtain ⟨value, found, rfl⟩ := indexKey_eq_ok.1 keyed
    split at laid
    · next row isRow => exact ⟨value, row, found, isRow, (Except.ok.inj laid).symm⟩
    · cases laid
  · rintro ⟨value, row, found, isRow, rfl⟩
    refine ⟨value.display, indexKey_eq_ok.2 ⟨value, found, rfl⟩, ?_⟩
    rw [isRow]
    rfl

/-- A two-way table lays one cell over its result. -/
theorem Table2D.layer_eq_ok {table : Table2D Value} {values : NameMap Value}
    {es : List (String × Value)} :
    table.layer values = .ok es ↔
      ∃ value value' cell, values.get? table.rowIndex = some value ∧
        values.get? table.colIndex = some value' ∧
        table.lookup? value.display value'.display = some cell ∧ es = [(table.result, cell)] := by
  unfold layer
  simp only [bind_eq_ok, indexKey_eq_ok]
  constructor
  · rintro ⟨_, ⟨value, found, rfl⟩, _, ⟨value', found', rfl⟩, laid⟩
    split at laid
    · cases laid
    · split at laid
      · cases laid
      · next cell isCell => exact ⟨value, value', cell, found, found', isCell, (Except.ok.inj laid).symm⟩
  · rintro ⟨value, value', cell, found, found', isCell, rfl⟩
    refine ⟨_, ⟨value, found, rfl⟩, _, ⟨value', found', rfl⟩, ?_⟩
    have isRow : table.data.get? value.display ≠ none := by
      intro absent
      unfold lookup? at isCell
      split at isCell
      · cases isCell
      · rw [absent] at isCell
        cases isCell
    split
    · next absent => exact absurd absent isRow
    · rw [isCell]
      rfl

theorem Table.names_of_layer {table : Table Value} {values : NameMap Value} {es : List (String × Value)}
    (lengths : ∀ key row, table.row? key = some row → row.length = table.columns.length)
    (laid : table.layer values = .ok es) : es.map (·.1) = table.columns := by
  obtain ⟨value, row, -, isRow, rfl⟩ := layer_eq_ok.1 laid
  exact List.map_fst_zip (Nat.le_of_eq (lengths _ row isRow).symm)

theorem Table2D.names_of_layer {table : Table2D Value} {values : NameMap Value}
    {es : List (String × Value)} (laid : table.layer values = .ok es) :
    es.map (·.1) = [table.result] := by
  obtain ⟨value, value', cell, -, -, -, rfl⟩ := layer_eq_ok.1 laid
  rfl

/-- In a table with complete rows, a cell is where a row and a column are. -/
theorem Table2D.exists_lookup?_iff {table : Table2D Value} {row col : String}
    (lengths : ∀ key row, table.data.get? key = some row → row.length = table.columns.length) :
    (∃ cell, table.lookup? row col = some cell) ↔ row ∈ table.rowKeys ∧ col ∈ table.columns := by
  unfold lookup?
  cases pos? : table.columns.findIdx? (· = col) with
  | none =>
      have absent : col ∉ table.columns := by
        intro inColumns
        simpa using List.findIdx?_eq_none_iff.1 pos? col inColumns
      simp [absent]
  | some pos =>
      obtain ⟨below, isCol, -⟩ := List.findIdx?_eq_some_iff_getElem.1 pos?
      have inColumns : col ∈ table.columns := by
        rw [← of_decide_eq_true isCol]
        exact List.getElem_mem below
      rw [rowKeys, NameMap.mem_keys_iff]
      cases found : table.data.get? row with
      | none => simp
      | some cells =>
          rw [← lengths row cells found] at below
          simp [inColumns, List.getElem?_eq_getElem below]

/-- A table has a row to lay exactly when the text of its index's value is a key. -/
theorem Table.exists_layer_iff {table : Table Value} {values : NameMap Value} :
    (∃ es, table.layer values = .ok es) ↔
      ∃ value, values.get? table.index = some value ∧ value.display ∈ table.keys := by
  simp only [layer_eq_ok, keys, NameMap.mem_keys_iff]
  constructor
  · rintro ⟨es, value, row, found, isRow, -⟩
    exact ⟨value, found, row, isRow⟩
  · rintro ⟨value, found, row, isRow⟩
    exact ⟨_, value, row, found, isRow, rfl⟩

theorem Table2D.exists_layer_iff {table : Table2D Value} {values : NameMap Value}
    (lengths : ∀ key row, table.data.get? key = some row → row.length = table.columns.length) :
    (∃ es, table.layer values = .ok es) ↔
      ∃ value value', values.get? table.rowIndex = some value ∧
        values.get? table.colIndex = some value' ∧
        value.display ∈ table.rowKeys ∧ value'.display ∈ table.columns := by
  simp only [layer_eq_ok, ← exists_lookup?_iff lengths]
  constructor
  · rintro ⟨es, value, value', cell, found, found', isCell, -⟩
    exact ⟨value, value', found, found', cell, isCell⟩
  · rintro ⟨value, value', found, found', cell, isCell⟩
    exact ⟨_, value, value', cell, found, found', isCell, rfl⟩

theorem Table.local_layer {table : Table Value} {reads spares : List String}
    (index : table.index ∈ reads) (columns : ∀ name ∈ table.columns, name ∉ spares) :
    Layer.Local table.layer reads spares where
  reads := by
    intro v w agree
    rw [layer, layer, indexKey, indexKey, agree _ index]
  spares := by
    intro v es laid e member
    obtain ⟨value, row, -, -, rfl⟩ := layer_eq_ok.1 laid
    exact columns e.1 (List.of_mem_zip member).1

theorem Table2D.local_layer {table : Table2D Value} {reads spares : List String}
    (rowIndex : table.rowIndex ∈ reads) (colIndex : table.colIndex ∈ reads)
    (result : table.result ∉ spares) : Layer.Local table.layer reads spares where
  reads := by
    intro v w agree
    rw [layer, layer, indexKey, indexKey, indexKey, indexKey, agree _ rowIndex, agree _ colIndex]
  spares := by
    intro v es laid e member
    obtain ⟨value, value', cell, -, -, -, rfl⟩ := layer_eq_ok.1 laid
    cases List.mem_singleton.1 member
    exact result

/-! ## The layers of a set -/

namespace ParameterSet

/-- The layers of a set, in the order in which they are laid. -/
def layers (params : ParameterSet) : List Layer :=
  params.tables.map Table.layer ++ params.tables2d.map Table2D.layer

theorem forall_mem_layers {params : ParameterSet} {p : Layer → Prop} :
    (∀ layer ∈ params.layers, p layer) ↔
      (∀ table ∈ params.tables, p table.layer) ∧ ∀ table ∈ params.tables2d, p table.layer := by
  simp only [layers, List.mem_append, List.mem_map, or_imp, forall_and, forall_exists_index, and_imp,
    forall_apply_eq_imp_iff₂]

/-- The names that the tables of a set are indexed by. -/
def indices (params : ParameterSet) : List String :=
  params.tables.map (·.index) ++ params.tables2d.flatMap fun table => [table.rowIndex, table.colIndex]

theorem mem_indices_iff {params : ParameterSet} {name : String} :
    name ∈ params.indices ↔ Choices.Used params.tables params.tables2d name := by
  simp only [indices, Choices.Used, List.mem_append, List.mem_map, List.mem_flatMap, List.mem_cons,
    List.not_mem_nil, or_false, @eq_comm _ name]

/-- The layers of a set look at its indices, and lay their values over columns and results. -/
theorem local_of_mem_layers {params : ParameterSet} {reads spares : List String}
    (indices : ∀ name ∈ params.indices, name ∈ reads)
    (columns : ∀ table ∈ params.tables, ∀ column ∈ table.columns, column ∉ spares)
    (results : ∀ table ∈ params.tables2d, table.result ∉ spares) :
    ∀ layer ∈ params.layers, layer.Local reads spares := by
  refine forall_mem_layers.2 ⟨fun table member => ?_, fun table member => ?_⟩
  · have index : table.index ∈ params.indices := mem_indices_iff.2 (.inl ⟨table, member, rfl⟩)
    exact Table.local_layer (indices _ index) (columns table member)
  · have rowIndex : table.rowIndex ∈ params.indices :=
      mem_indices_iff.2 (.inr ⟨table, member, .inl rfl⟩)
    have colIndex : table.colIndex ∈ params.indices :=
      mem_indices_iff.2 (.inr ⟨table, member, .inr rfl⟩)
    exact Table2D.local_layer (indices _ rowIndex) (indices _ colIndex) (results table member)

/-- The values that the tables start from. -/
def start (params : ParameterSet) (free : NameMap Value) : NameMap Value :=
  params.literal.overlay free

/-- **Resolving is a run of the layers** that leaves no parameter without a value. -/
theorem resolve_eq_ok {params : ParameterSet} {free values : NameMap Value} :
    params.resolve free = .ok values ↔
      Layer.run params.layers (params.start free) = .ok values ∧
        ∀ name ∈ NameMap.keys params.parameters, name ∈ values.keys := by
  have ran : Layer.run params.layers (params.start free) =
      params.tables.foldlM applyTable (params.literal.overlay free) >>=
        fun rows => params.tables2d.foldlM applyTable2D rows := by
    rw [layers, Layer.run_append, Layer.run_map Table.applyTable_eq, start]
    exact congrArg _ (funext (Layer.run_map Table2D.applyTable2D_eq params.tables2d))
  rw [ran, resolve]
  simp only [bind_eq_ok]
  constructor
  · rintro ⟨v, laid, w, laid', checked⟩
    split at checked
    · cases checked
    · next complete =>
      cases checked
      refine ⟨⟨v, laid, laid'⟩, fun name member => NameMap.contains_iff.1 ?_⟩
      simpa using List.find?_eq_none.1 complete name member
  · rintro ⟨⟨v, laid, laid'⟩, complete⟩
    refine ⟨v, laid, values, laid', ?_⟩
    have none_missing : params.parameters.keys.find? (fun name => !values.contains name) = none := by
      refine List.find?_eq_none.2 fun name member => ?_
      rw [NameMap.contains_iff.2 (complete name member)]
      decide
    rw [none_missing]
    rfl

end ParameterSet

end PartCatalog
