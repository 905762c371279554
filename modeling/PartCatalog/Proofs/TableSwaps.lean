/-
# Swapping tables -- tables that do not touch each other resolve in either order

Two tables are `Apart` if they have no column in common and neither is indexed by a column of
the other.  The second then finds the same row whether the first has been laid or not, and their
rows may be laid in either order (`insertAll_comm`), so their two layers can be swapped wherever
they follow each other in a run (`Layer.run_swapped`).  What runs before them leads both orders to
the same values, and what runs after them finds the same.  So two sets that differ by such a
swap resolve every choice of the free parameters to the same values, or both fail on it
(`resolve_of_swapped`).
-/
import PartCatalog.Proofs.Layers

set_option autoImplicit false

namespace PartCatalog

open Outcome

/-! ## Two layers -/

/-- Entries of different names may be laid in either order. -/
theorem NameMap.insertAll_comm {α : Type} {es fs : List (String × α)}
    (apart : ∀ e ∈ es, e.1 ∉ fs.map (·.1)) (m : NameMap α) :
    (m.insertAll es).insertAll fs = (m.insertAll fs).insertAll es := by
  refine ext_get? fun name => ?_
  simp only [get?_insertAll]
  by_cases inFirst : name ∈ es.map (·.1)
  · obtain ⟨e, member, rfl⟩ := List.mem_map.1 inFirst
    rw [lastEntry_eq_none_iff.2 (apart e member), Option.none_or, Option.none_or]
  · rw [lastEntry_eq_none_iff.2 inFirst, Option.none_or, Option.none_or]

namespace Layer

/-- Whether two layers do not touch each other: neither looks at what the other lays, and they lay
different names. -/
structure Apart (first second : Layer) : Prop where
  left : ∀ v es, second v = .ok es → first (v.insertAll es) = first v
  right : ∀ v es, first v = .ok es → second (v.insertAll es) = second v
  names : ∀ v es fs, first v = .ok es → second v = .ok fs → ∀ e ∈ es, e.1 ∉ fs.map (·.1)

theorem Apart.symm {first second : Layer} (apart : Apart first second) : Apart second first where
  left := apart.right
  right := apart.left
  names := by
    intro v fs es laidSecond laidFirst f inSecond inFirst
    obtain ⟨e, member, same⟩ := List.mem_map.1 inFirst
    exact apart.names v es fs laidFirst laidSecond e member (same ▸ List.mem_map_of_mem inSecond)

/-- Two such layers lay what each lays on the values before both. -/
theorem Apart.run_eq_ok {first second : Layer} (apart : Apart first second) {v w : NameMap Value} :
    run [first, second] v = .ok w ↔
      ∃ es fs, first v = .ok es ∧ second v = .ok fs ∧ w = (v.insertAll es).insertAll fs := by
  simp only [run_cons_eq_ok, run_nil_eq_ok]
  constructor
  · rintro ⟨es, laid, fs, laid', rfl⟩
    exact ⟨es, fs, laid, apart.right v es laid ▸ laid', rfl⟩
  · rintro ⟨es, fs, laid, laid', rfl⟩
    exact ⟨es, laid, fs, (apart.right v es laid).trans laid', rfl⟩

theorem Apart.agree_run {first second : Layer} (apart : Apart first second) (v : NameMap Value) :
    Agree (run [first, second] v) (run [second, first] v) := by
  intro w
  rw [apart.run_eq_ok, apart.symm.run_eq_ok]
  constructor
  · rintro ⟨es, fs, laid, laid', rfl⟩
    exact ⟨fs, es, laid', laid, NameMap.insertAll_comm (apart.names v es fs laid laid') v⟩
  · rintro ⟨fs, es, laid', laid, rfl⟩
    exact ⟨es, fs, laid, laid', (NameMap.insertAll_comm (apart.names v es fs laid laid') v).symm⟩

/-- In a run, two such layers may be swapped where they follow each other. -/
theorem run_swapped {first second : Layer} (apart : Apart first second) (before after : List Layer)
    (v : NameMap Value) :
    Agree (run (before ++ first :: second :: after) v) (run (before ++ second :: first :: after) v) := by
  have inThree : ∀ x y : Layer, run (before ++ x :: y :: after) v =
      run before v >>= fun u => run [x, y] u >>= run after := by
    intro x y
    have pair : x :: y :: after = [x, y] ++ after := rfl
    rw [pair, run_append]
    exact congrArg _ (funext (run_append [x, y] after))
  rw [inThree, inThree]
  exact (Agree.refl _).bind fun u => (apart.agree_run u).bind fun _ => Agree.refl _

end Layer

/-! ## Two tables -/

namespace Table

/-- Whether two tables have no column in common, and neither is indexed by a column of the
other. -/
structure Apart (first second : Table Value) : Prop where
  columns : ∀ column ∈ first.columns, column ∉ second.columns
  left : first.index ∉ second.columns
  right : second.index ∉ first.columns

variable {table first second : Table Value}

/-- A table lays over its columns only. -/
theorem mem_columns_of_layer {values : NameMap Value} {es : List (String × Value)}
    (laid : table.layer values = .ok es) : ∀ e ∈ es, e.1 ∈ table.columns := by
  obtain ⟨value, row, -, -, rfl⟩ := layer_eq_ok.1 laid
  exact fun e member => (List.of_mem_zip member).1

/-- A table finds the same row where its index has not been laid over. -/
theorem layer_insertAll {es : List (String × Value)} (spared : ∀ e ∈ es, e.1 ≠ table.index)
    (values : NameMap Value) : table.layer (values.insertAll es) = table.layer values := by
  have isLocal : Layer.Local table.layer [table.index] [] :=
    local_layer (List.mem_singleton_self _) fun _ _ => List.not_mem_nil
  refine isLocal.reads _ _ (NameMap.AgreeOn.insertAll_left (fun _ _ => rfl) fun e member => ?_)
  rw [List.mem_singleton]
  exact spared e member

theorem Apart.layers (apart : Apart first second) : Layer.Apart first.layer second.layer where
  left := fun v es laid => layer_insertAll (fun e member same =>
    apart.left (same ▸ mem_columns_of_layer laid e member)) v
  right := fun v es laid => layer_insertAll (fun e member same =>
    apart.right (same ▸ mem_columns_of_layer laid e member)) v
  names := by
    intro v es fs laid laid' e member inSecond
    obtain ⟨f, member', same⟩ := List.mem_map.1 inSecond
    refine apart.columns e.1 (mem_columns_of_layer laid e member) ?_
    rw [← same]
    exact mem_columns_of_layer laid' f member'

end Table

/-! ## Two sets -/

namespace ParameterSet

variable {params params' : ParameterSet} {before after : List (Table Value)} {first second : Table Value}

/-- **Tables that do not touch each other may be swapped.**  Two sets that differ in the order of
two such tables, one right after the other, resolve what a caller gives to the same values, or
neither of them can resolve it.  What the other tables have to do with these two does not
matter. -/
theorem resolve_of_swapped (tables : params.tables = before ++ first :: second :: after)
    (swapped : params' = { params with tables := before ++ second :: first :: after })
    (apart : first.Apart second) (given : NameMap Value) :
    (∃ values, params.resolve given = .ok values ∧ params'.resolve given = .ok values) ∨
      ∃ e e', params.resolve given = .error e ∧ params'.resolve given = .error e' := by
  have layers : params.layers = before.map Table.layer ++ first.layer :: second.layer ::
      (after.map Table.layer ++ params.tables2d.map Table2D.layer) := by
    simp [ParameterSet.layers, tables]
  have layers' : params'.layers = before.map Table.layer ++ second.layer :: first.layer ::
      (after.map Table.layer ++ params.tables2d.map Table2D.layer) := by
    simp [ParameterSet.layers, swapped]
  have agree : Agree (params.resolve given) (params'.resolve given) := by
    intro values
    have start : params'.start given = params.start given := by rw [swapped]; rfl
    have known : params'.parameters = params.parameters := by rw [swapped]
    rw [resolve_eq_ok, resolve_eq_ok, layers, layers', start, known,
      Layer.run_swapped apart.layers _ _ (params.start given) values]
  exact agree.ok_or_error

namespace Example

/-- A table of texts with one column. -/
def textTable (index column : String) (rows : List (String × String)) : Table Value where
  index := index
  columns := [column]
  data := NameMap.ofList (rows.map fun (key, cell) => (key, [.text cell]))

/-- The thread of a size. -/
def threads : Table Value := textTable "size" "thread" [("M3", "coarse"), ("M4", "fine")]

/-- The pitch of a thread; there is none for a fine one. -/
def pitches : Table Value := textTable "thread" "pitch" [("coarse", "0.5")]

/-- The head of a size. -/
def heads : Table Value := textTable "size" "head" [("M3", "5.5"), ("M4", "7")]

/-- The drill for a pitch. -/
def drills : Table Value := textTable "pitch" "drill" [("0.5", "2.5")]

/-- Tapped holes by size, with their tables in some order. -/
def tapped (tables : List (Table Value)) : ParameterSet :=
  { ParameterSet.empty with
    free := ["size"], tables, parameters := NameSet.ofNames ["size", "thread", "pitch", "head", "drill"] }

def pitchFirst : ParameterSet := tapped [threads, pitches, heads, drills]

def headFirst : ParameterSet := tapped [threads, heads, pitches, drills]

def size (size : String) : NameMap Value := NameMap.ofList [("size", .text size)]

end Example

/-- The pitch comes from the thread and leads to the drill.  The head may be looked up before the
pitch or after it, for a size that has a drill and for one that has none. -/
theorem resolve_of_swapped_tapped :
    Example.pitches.Apart Example.heads ∧
      (∃ values, Example.pitchFirst.resolve (Example.size "M3") = .ok values ∧
        Example.headFirst.resolve (Example.size "M3") = .ok values ∧
        values.get? "drill" = some (.text "2.5")) ∧
      ∃ e e', Example.pitchFirst.resolve (Example.size "M4") = .error e ∧
        Example.headFirst.resolve (Example.size "M4") = .error e' := by
  have apart : Example.pitches.Apart Example.heads := ⟨by decide, by decide, by decide⟩
  have tables : Example.pitchFirst.tables =
      [Example.threads] ++ Example.pitches :: Example.heads :: [Example.drills] := rfl
  refine ⟨apart, ?_, ?_⟩
  · have drilled : (Example.pitchFirst.resolve (Example.size "M3")).toOption.map (·.get? "drill") =
        some (some (.text "2.5")) := by decide
    rcases resolve_of_swapped tables rfl apart (Example.size "M3") with ⟨values, first, second⟩ | ⟨e, e', fails, -⟩
    · rw [first] at drilled
      exact ⟨values, first, second, Option.some.inj drilled⟩
    · rw [fails] at drilled
      cases drilled
  · have fails : (Example.pitchFirst.resolve (Example.size "M4")).isOk = false := by decide
    rcases resolve_of_swapped tables rfl apart (Example.size "M4") with ⟨values, first, -⟩ | both
    · rw [first] at fails
      cases fails
    · exact both

end ParameterSet

end PartCatalog
