/-
# Typed tables -- every cell is a value of its column's type

A type admits the absent value and the values of its own kind; a number it admits is a
number, and a length is not negative (`ParameterType.Admits`).  Reading a cell under a
type gives a value the type admits (`admits_of_normalize`), so a table that could be
typed fits the types it was typed under: its indices key tables, and each row has one
admitted cell for each column (`Table.Fits`, `Table2D.Fits`).  Fitting survives more
types, as long as the ones already there stay (`Table.Fits.mono`).
-/
import PartCatalog.Table2D
import PartCatalog.Proofs.NameMapLaws
import PartCatalog.Proofs.Outcome
import PartCatalog.Proofs.Rounding

set_option autoImplicit false

namespace PartCatalog

open Outcome

/-! ## Values of a type -/

namespace ParameterType

/-- Whether a value can be the value of a parameter of the type. -/
def Admits (type : ParameterType) : Value → Prop
  | .absent => True
  | .bool _ => type = .bool
  | .number x =>
    type.isNumeric = true ∧ x.isNaN = false ∧
      (type.isLength = true → x.numLt (Binary64.zero false) = false)
  | .text _ => type = .tableIndex ∨ type = .string

instance (type : ParameterType) : DecidablePred type.Admits
  | .absent => isTrue trivial
  | .bool _ => inferInstanceAs (Decidable (type = .bool))
  | .number _ => inferInstanceAs (Decidable (_ ∧ _ ∧ _))
  | .text _ => inferInstanceAs (Decidable (_ ∨ _))

theorem admits_absent (type : ParameterType) : type.Admits .absent := trivial

theorem isNaN_of_readNumber? {raw : Node} {x : Binary64} (read : readNumber? raw = some x) :
    x.isNaN = false := by
  unfold readNumber? at read
  simpa using (Option.filter_eq_some_iff.1 read).2

theorem admits_of_normalizeNumber {type : ParameterType} {param : String} {raw : Node}
    {value : Value} (numeric : type.isNumeric = true)
    (read : normalizeNumber type param raw = .ok value) : type.Admits value := by
  unfold normalizeNumber at read
  split at read
  · cases read
  · next x isNumber =>
    split at read
    · cases read
    · next notBelow =>
      cases read
      refine ⟨numeric, isNaN_of_readNumber? isNumber, fun length => ?_⟩
      simpa [length] using notBelow

theorem admits_of_normalizeBool {param : String} {raw : Node} {value : Value}
    (read : normalizeBool param raw = .ok value) : ParameterType.bool.Admits value := by
  unfold normalizeBool at read
  split at read
  · cases read
    rfl
  · split at read
    · cases read
      rfl
    · split at read
      · cases read
        rfl
      · cases read
  · cases read

theorem admits_of_normalizeScalar {type : ParameterType} {param : String} {raw : Node}
    {value : Value} (read : normalizeScalar type param raw = .ok value) : type.Admits value := by
  cases type with
  | lengthMm => exact admits_of_normalizeNumber rfl read
  | lengthInch => exact admits_of_normalizeNumber rfl read
  | number => exact admits_of_normalizeNumber rfl read
  | bool => exact admits_of_normalizeBool read
  | tableIndex =>
      cases read
      exact .inl rfl
  | string =>
      cases read
      exact .inr rfl

/-- A cell that could be read is a value of the type. -/
theorem admits_of_normalize {type : ParameterType} {param : String} {raw : Node} {value : Value}
    (read : type.normalize param raw = .ok value) : type.Admits value := by
  unfold normalize normalizeUntagged at read
  split at read
  · cases read
    exact type.admits_absent
  · split at read
    · cases read
      exact type.admits_absent
    · exact admits_of_normalizeScalar read
  · cases read
  · cases read
  · exact admits_of_normalizeScalar read

/-! ### Defaults -/

/-- A natural number is a number, and not below zero. -/
theorem not_below_zero_ofInt (n : Nat) :
    (Binary64.ofInt n).isNaN = false ∧
      (Binary64.ofInt n).numLt (Binary64.zero false) = false := by
  have zero : (Binary64.zero false).rank = 0 := rfl
  refine ⟨Binary64.isNaN_ofInt n, ?_⟩
  obtain ⟨significand, scale, packed⟩ :=
    Binary64.exists_pack_of_roundUnits (n * Nat.pow 2 1074) 1
  rw [Binary64.ofInt_natCast, Binary64.round, packed]
  simp [Binary64.numLt, zero, Int.not_lt.2 (Binary64.rank_pack_nonneg _ _)]

/-- The default of a type is a value of the type. -/
theorem admits_defaultValue (type : ParameterType) : type.Admits type.defaultValue := by
  have ten := not_below_zero_ofInt 10
  have one := not_below_zero_ofInt 1
  cases type with
  | lengthMm => exact ⟨rfl, ten.1, fun _ => ten.2⟩
  | lengthInch => exact ⟨rfl, one.1, fun _ => one.2⟩
  | number => exact ⟨rfl, one.1, fun _ => one.2⟩
  | bool => exact rfl
  | tableIndex => exact .inl rfl
  | string => exact .inr rfl

end ParameterType

/-! ## Types of a set -/

namespace TypeMap

/-- Whether a value can be the value of a named parameter. -/
def Admits (types : TypeMap) (name : String) (value : Value) : Prop :=
  ∃ type, NameMap.get? types name = some type ∧ type.Admits value

/-- Whether a map of types keeps every type of another. -/
def Keeps (more types : TypeMap) : Prop :=
  ∀ name type, NameMap.get? types name = some type → NameMap.get? more name = some type

variable {types more : TypeMap} {name : String} {value : Value}

theorem Admits.mono (kept : more.Keeps types) (admitted : types.Admits name value) :
    more.Admits name value := by
  obtain ⟨type, typed, admits⟩ := admitted
  exact ⟨type, kept name type typed, admits⟩

theorem Keeps.get?_eq (kept : more.Keeps types) (known : name ∈ NameMap.keys types) :
    NameMap.get? more name = NameMap.get? types name := by
  obtain ⟨type, typed⟩ := NameMap.mem_keys_iff.1 known
  rw [typed, kept name type typed]

theorem get?_eq_typeOf (known : name ∈ NameMap.keys types) :
    NameMap.get? types name = some (types.typeOf name) := by
  obtain ⟨type, typed⟩ := NameMap.mem_keys_iff.1 known
  rw [typeOf, typed, Option.getD_some]

theorem typeOf_eq_of_get? {type : ParameterType} (typed : NameMap.get? types name = some type) :
    types.typeOf name = type := by
  rw [typeOf, typed, Option.getD_some]

/-- A parameter of another type than the default one has been declared so. -/
theorem get?_of_typeOf {type : ParameterType} (declared : type ≠ default)
    (typed : types.typeOf name = type) : NameMap.get? types name = some type := by
  unfold typeOf at typed
  cases found : NameMap.get? types name with
  | none =>
      rw [found, Option.getD_none] at typed
      exact absurd typed.symm declared
  | some other =>
      rw [found, Option.getD_some] at typed
      rw [typed]

theorem admits_of_normalize {raw : Node} (known : name ∈ NameMap.keys types)
    (read : (types.typeOf name).normalize name raw = .ok value) : types.Admits name value :=
  ⟨types.typeOf name, get?_eq_typeOf known, ParameterType.admits_of_normalize read⟩

end TypeMap

/-! ## Tables -/

namespace Table

/-- What a table that was typed under some types has: an index that keys tables, and in
each row one value for each column, of the column's type. -/
structure Fits (types : TypeMap) (table : Table Value) : Prop where
  index : NameMap.get? types table.index = some .tableIndex
  rows : ∀ key row, table.row? key = some row → List.Forall₂ types.Admits table.columns row

variable {types more : TypeMap} {table : Table Value}

theorem Fits.mono (kept : more.Keeps types) (fits : table.Fits types) : table.Fits more where
  index := kept _ _ fits.index
  rows := fun key row found => (fits.rows key row found).imp fun _ _ => TypeMap.Admits.mono kept

theorem Fits.lengths (fits : table.Fits types) :
    ∀ key row, table.row? key = some row → row.length = table.columns.length :=
  fun key row found => (fits.rows key row found).length_eq.symm

theorem requireIndex_eq_ok {name : String} :
    requireIndex types name = .ok () ↔ NameMap.get? types name = some .tableIndex := by
  constructor
  · intro checked
    unfold requireIndex at checked
    split at checked
    · next isIndex => exact TypeMap.get?_of_typeOf (by decide) isIndex
    · cases checked
  · intro typed
    rw [requireIndex, TypeMap.typeOf_eq_of_get? typed]

/-- What reading gives each cell for its parameter, a row has for each of its parameters. -/
theorem forall₂_of_typedRow {R : String → Value → Prop} {parameters : List String} {key : String}
    {row : List Node} {values : List Value}
    (each : ∀ name ∈ parameters, ∀ cell ∈ row, ∀ value,
      (types.typeOf name).normalize name cell = .ok value → R name value)
    (read : typedRow types parameters key row = .ok values) : List.Forall₂ R parameters values := by
  unfold typedRow at read
  split at read
  · next sameLength =>
    have cells : List.Forall₂ (fun pair value => R pair.1 value) (parameters.zip row) values := by
      refine ((List.forall₂_and_left _ _).2 ⟨fun pair member => member, mapM_eq_ok.1 read⟩).imp ?_
      rintro ⟨name, cell⟩ value ⟨member, isRead⟩
      obtain ⟨isName, isCell⟩ := List.of_mem_zip member
      exact each name isName cell isCell value isRead
    have names : (parameters.zip row).map Prod.fst = parameters :=
      List.map_fst_zip (Nat.le_of_eq sameLength.symm)
    rw [← names]
    exact List.forall₂_map_left_iff.2 cells
  · cases read

theorem admits_of_typedRow {parameters : List String} {key : String} {row : List Node}
    {values : List Value} (known : ∀ name ∈ parameters, name ∈ NameMap.keys types)
    (read : typedRow types parameters key row = .ok values) :
    List.Forall₂ types.Admits parameters values :=
  forall₂_of_typedRow (fun name isName _ _ _ => TypeMap.admits_of_normalize (known name isName)) read

/-- A typed table is the raw one with the cells read. -/
theorem typed_eq_ok {raw : Table Node} :
    raw.typed types = .ok table ↔
      NameMap.get? types raw.index = some .tableIndex ∧ table.index = raw.index ∧
        table.columns = raw.columns ∧ raw.data.traverse (typedRow types raw.columns) = .ok table.data := by
  simp only [typed, bind_eq_ok, pure_eq, Except.ok.injEq]
  constructor
  · rintro ⟨⟨⟩, isIndex, data, read, rfl⟩
    exact ⟨requireIndex_eq_ok.1 isIndex, rfl, rfl, read⟩
  · rintro ⟨isIndex, sameIndex, sameColumns, read⟩
    refine ⟨(), requireIndex_eq_ok.2 isIndex, table.data, read, ?_⟩
    rw [← sameIndex, ← sameColumns]

theorem parameters_of_typed {raw : Table Node} (run : raw.typed types = .ok table) :
    table.parameters = raw.parameters := by
  obtain ⟨-, sameIndex, sameColumns, -⟩ := typed_eq_ok.1 run
  rw [parameters, parameters, sameIndex, sameColumns]

theorem fits_of_typed {raw : Table Node} (known : ∀ name ∈ raw.columns, name ∈ NameMap.keys types)
    (run : raw.typed types = .ok table) : table.Fits types := by
  obtain ⟨isIndex, sameIndex, sameColumns, read⟩ := typed_eq_ok.1 run
  refine ⟨sameIndex ▸ isIndex, fun key row found => ?_⟩
  obtain ⟨cells, _, typed⟩ := (NameMap.traverse_eq_ok read).2 key row found
  rw [sameColumns]
  exact admits_of_typedRow known typed

end Table

/-! ## Two-way tables -/

namespace Table2D

/-- What a two-way table that was typed under some types has: two different indices that
key tables, and in each row one value for each column, of the result's type. -/
structure Fits (types : TypeMap) (table : Table2D Value) : Prop where
  rowIndex : NameMap.get? types table.rowIndex = some .tableIndex
  colIndex : NameMap.get? types table.colIndex = some .tableIndex
  different : table.rowIndex ≠ table.colIndex
  lengths : ∀ key row, table.data.get? key = some row → row.length = table.columns.length
  cells : ∀ key row, table.data.get? key = some row → ∀ cell ∈ row, types.Admits table.result cell

variable {types more : TypeMap} {table : Table2D Value}

theorem Fits.mono (kept : more.Keeps types) (fits : table.Fits types) : table.Fits more where
  rowIndex := kept _ _ fits.rowIndex
  colIndex := kept _ _ fits.colIndex
  different := fits.different
  lengths := fits.lengths
  cells := fun key row found cell member => (fits.cells key row found cell member).mono kept

theorem indices_ne_of_ofNode {node : Node} {raw : Table2D Node} (read : ofNode node = .ok raw) :
    raw.rowIndex ≠ raw.colIndex := by
  simp only [ofNode, bind_eq_ok] at read
  obtain ⟨entries, -, -, -, rowIndex, -, -, -, colIndex, -, rest⟩ := read
  split at rest
  · cases rest
  · next different =>
    simp only [bind_eq_ok, pure_eq, Except.ok.injEq] at rest
    obtain ⟨-, -, columns, -, -, -, result, -, -, -, data, -, rfl⟩ := rest
    exact different

theorem typed_eq_ok {raw : Table2D Node} :
    raw.typed types = .ok table ↔
      NameMap.get? types raw.rowIndex = some .tableIndex ∧
        NameMap.get? types raw.colIndex = some .tableIndex ∧ table.rowIndex = raw.rowIndex ∧
        table.colIndex = raw.colIndex ∧ table.columns = raw.columns ∧ table.result = raw.result ∧
        raw.data.traverse (typedRow types raw.result raw.columns) = .ok table.data := by
  simp only [typed, bind_eq_ok, pure_eq, Except.ok.injEq]
  constructor
  · rintro ⟨⟨⟩, isRow, ⟨⟩, isColumn, data, read, rfl⟩
    exact ⟨Table.requireIndex_eq_ok.1 isRow, Table.requireIndex_eq_ok.1 isColumn, rfl, rfl, rfl, rfl, read⟩
  · rintro ⟨isRow, isColumn, sameRow, sameColumn, sameColumns, sameResult, read⟩
    refine ⟨(), Table.requireIndex_eq_ok.2 isRow, (), Table.requireIndex_eq_ok.2 isColumn,
      table.data, read, ?_⟩
    rw [← sameRow, ← sameColumn, ← sameColumns, ← sameResult]

theorem parameters_of_typed {raw : Table2D Node} (run : raw.typed types = .ok table) :
    table.parameters = raw.parameters := by
  obtain ⟨-, -, sameRow, sameColumn, -, sameResult, -⟩ := typed_eq_ok.1 run
  rw [parameters, parameters, sameRow, sameColumn, sameResult]

/-- What reading gives each cell, every cell of a row has. -/
theorem forall_of_typedRow {P : Value → Prop} {result : String} {columns : List String} {key : String}
    {row : List Node} {values : List Value}
    (each : ∀ cell ∈ row, ∀ value, (types.typeOf result).normalize result cell = .ok value → P value)
    (read : typedRow types result columns key row = .ok values) :
    values.length = columns.length ∧ ∀ value ∈ values, P value := by
  unfold typedRow at read
  split at read
  · next sameLength =>
    have reads := mapM_eq_ok.1 read
    refine ⟨reads.length_eq.symm.trans sameLength, fun value member => ?_⟩
    obtain ⟨cell, isCell, isRead⟩ := exists_left_of_forall₂ reads value member
    exact each cell isCell value isRead
  · cases read

theorem fits_of_typed {raw : Table2D Node} (known : raw.result ∈ NameMap.keys types)
    (different : raw.rowIndex ≠ raw.colIndex) (run : raw.typed types = .ok table) :
    table.Fits types := by
  obtain ⟨isRow, isColumn, sameRow, sameColumn, sameColumns, sameResult, read⟩ := typed_eq_ok.1 run
  have typedRows : ∀ key row, table.data.get? key = some row →
      row.length = table.columns.length ∧ ∀ cell ∈ row, types.Admits table.result cell := by
    intro key row found
    obtain ⟨cells, _, typed⟩ := (NameMap.traverse_eq_ok read).2 key row found
    rw [sameColumns, sameResult]
    exact forall_of_typedRow (fun _ _ _ => TypeMap.admits_of_normalize known) typed
  exact {
    rowIndex := sameRow ▸ isRow
    colIndex := sameColumn ▸ isColumn
    different := sameRow ▸ sameColumn ▸ different
    lengths := fun key row found => (typedRows key row found).1
    cells := fun key row found => (typedRows key row found).2 }

end Table2D

end PartCatalog
