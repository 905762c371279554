/-
# Written values -- reading what was read before changes nothing

A value can be written back as a node, or shown as a text (`Value.WrittenAs`).  A value that a
type admits is read back from either form, with one exception: the text for the absent value is
never read as a text (`ParameterType.normalize_of_writtenAs`).  Reading never gives that text,
as long as there is no tag directly inside a tag, because only a string has it and a string of
it is absent (`ParameterType.normal_of_normalize`).  So reading is idempotent, cell by cell and
over the cells of a table (`normalization_idempotent`).  Below a second tag the text is kept,
which is why the tags have to be apart.
-/
import PartCatalog.Proofs.NumberNodes
import PartCatalog.Proofs.TypedTables

set_option autoImplicit false

namespace PartCatalog

open Outcome

/-! ## Writing values -/

/-- The node that a value is written back as. -/
def Value.toNode : Value → Node
  | .absent => .null
  | .bool b => .bool b
  | .number x => .float x
  | .text s => .str s

/-- The nodes that a value may stand in a cell as: the one it is written back as, and the
string it is shown as. -/
inductive Value.WrittenAs (v : Value) : Node → Prop where
  | node : v.WrittenAs v.toNode
  | shown : v.WrittenAs (.str v.display)

namespace ParameterType

variable {type : ParameterType} {param : String} {v : Value}

/-- A number that the type admits is taken, however it is written. -/
theorem normalizeNumber_of_readNumber? {raw : Node} {x : Binary64} (admitted : type.Admits (.number x))
    (read : readNumber? raw = some x) : normalizeNumber type param raw = .ok (.number x) := by
  obtain ⟨-, -, notBelow⟩ := admitted
  rw [normalizeNumber, read]
  cases isLength : type.isLength with
  | false => rfl
  | true => simp [notBelow isLength]

/-- A number that the type admits is read from its plain digits. -/
theorem normalize_plain {x : Binary64} (admitted : type.Admits (.number x)) :
    type.normalize param (.str (Layout.plain.text x)) = .ok (.number x) := by
  have readsBack := Layout.ofText?_trim_plain admitted.2.1
  rw [normalize_str_of_isNumeric admitted.1 (Binary64.ne_none_of_ofText? readsBack)]
  refine normalizeNumber_of_readNumber? admitted ?_
  rw [readNumber?, readsBack]
  simp [admitted.2.1]

/-- What a value is read back as: itself, unless it is the text for the absent value. -/
theorem normalize_display (admitted : type.Admits v) :
    type.normalize param (.str v.display) = .ok (if v = .text "None" then .absent else v) := by
  cases v with
  | absent => rfl
  | bool b =>
      obtain rfl : type = .bool := admitted
      cases b <;> rfl
  | number x => exact normalize_plain admitted
  | text s =>
      by_cases none : s = "None"
      · subst none
        rfl
      · have different : Value.text s ≠ .text "None" := fun same => none (Value.text.inj same)
        rw [if_neg different, Value.display, normalizeUntagged_str none]
        rcases admitted with rfl | rfl <;> rfl

/-- The node of a value is read as its text is. -/
theorem normalize_toNode (admitted : type.Admits v) :
    type.normalize param v.toNode = type.normalize param (.str v.display) := by
  cases v with
  | absent => rfl
  | bool b =>
      obtain rfl : type = .bool := admitted
      cases b <;> rfl
  | number x =>
      have read : readNumber? (.float x) = some x := by simp [readNumber?, admitted.2.1]
      rw [Value.toNode, normalize_of_isNumber admitted.1 (.float x), Value.display, normalize_plain admitted]
      exact normalizeNumber_of_readNumber? admitted read
  | text s => rfl

/-- **A value that the type admits is read back** from each of its forms, unless it is the text
for the absent value. -/
theorem normalize_of_writtenAs (admitted : type.Admits v) {node : Node} (written : v.WrittenAs node) :
    type.normalize param node = .ok (if v = .text "None" then .absent else v) := by
  cases written with
  | node => rw [normalize_toNode admitted, normalize_display admitted]
  | shown => exact normalize_display admitted

end ParameterType

/-! ## What reading gives -/

/-- Whether a node is not a tag directly inside a tag. -/
def Node.TagsApart (node : Node) : Prop := ∀ outer inner value, node ≠ .tagged outer (.tagged inner value)

namespace ParameterType

variable {type : ParameterType} {param : String} {raw : Node} {v : Value}

/-- Whether a value is read back from what is written for it. -/
def Normal (type : ParameterType) (v : Value) : Prop := type.Admits v ∧ v ≠ .text "None"

theorem Normal.normalize (normal : type.Normal v) {node : Node} (written : v.WrittenAs node) :
    type.normalize param node = .ok v := by
  rw [normalize_of_writtenAs normal.1 written, if_neg normal.2]

/-- A text is the text of its node. -/
theorem text_of_normalizeScalar {s : String} (read : type.normalizeScalar param raw = .ok (.text s)) :
    s = raw.text := by
  rcases admits_of_normalizeScalar read with rfl | rfl
  · cases read
    rfl
  · cases read
    rfl

/-- No tag is left of a node with its tags apart, once the outer one is dropped. -/
theorem dropTag_ne_tagged (apart : raw.TagsApart) (tag : String) (value : Node) :
    dropTag raw ≠ .tagged tag value := by
  intro same
  cases raw with
  | tagged outer inner => exact apart outer tag value (congrArg (Node.tagged outer) same)
  | null => cases same
  | bool b => cases same
  | int n => cases same
  | float x => cases same
  | str s => cases same
  | seq items => cases same
  | map entries => cases same

/-- **Reading gives a value that is read back**, from a node with its tags apart. -/
theorem normal_of_normalize (apart : raw.TagsApart) (read : type.normalize param raw = .ok v) :
    type.Normal v := by
  refine ⟨admits_of_normalize read, ?_⟩
  rintro rfl
  rw [normalize] at read
  have untagged := dropTag_ne_tagged apart
  generalize dropTag raw = node at read untagged
  have notWord : type.normalizeScalar param node = .ok (.text "None") → node.text ≠ "None" → False :=
    fun read present => present (text_of_normalizeScalar read).symm
  cases node with
  | null => cases read
  | bool b => exact notWord read (by cases b <;> decide)
  | int n => exact notWord read (Node.text_ne_none (.int n))
  | float x => exact notWord read (Node.text_ne_none (.float x))
  | str s =>
      -- The one node with that text, and it is read as the absent value.
      by_cases none : s = "None"
      · subst none
        cases read
      · exact notWord ((normalizeUntagged_str none).symm.trans read) none
  | seq items => cases read
  | map entries => cases read
  | tagged tag value => exact untagged tag value rfl

end ParameterType

/-! ## Tables -/

namespace Table

variable {types : TypeMap} {write : Value → Node}

/-- The table with every cell changed. -/
def mapCells {α β : Type} (f : α → β) (table : Table α) : Table β :=
  { table with data := table.data.map (List.map f) }

/-- Whether no cell of any row has a tag directly inside a tag. -/
def CellsApart (data : NameMap (List Node)) : Prop :=
  ∀ row ∈ data.entries, ∀ cell ∈ row.2, cell.TagsApart

theorem typedRow_map {parameters : List String} {key : String} {row : List Value}
    (written : ∀ v : Value, v.WrittenAs (write v))
    (normal : List.Forall₂ (fun name v => (types.typeOf name).Normal v) parameters row) :
    typedRow types parameters key (row.map write) = .ok row := by
  have sameLength : (row.map write).length = parameters.length := by
    rw [List.length_map, normal.length_eq]
  rw [typedRow, if_pos sameLength]
  refine mapM_eq_ok.2 ?_
  clear sameLength
  induction normal with
  | nil => exact .nil
  | cons head tail ih => exact .cons (head.normalize (written _)) ih

/-- **A typed table is typed again to itself**, with each cell written back. -/
theorem typed_mapCells {raw : Table Node} {table : Table Value} (written : ∀ v : Value, v.WrittenAs (write v))
    (apart : CellsApart raw.data) (run : raw.typed types = .ok table) :
    (table.mapCells write).typed types = .ok table := by
  obtain ⟨isIndex, sameIndex, sameColumns, read⟩ := typed_eq_ok.1 run
  refine typed_eq_ok.2 ⟨sameIndex ▸ isIndex, rfl, rfl, NameMap.traverse_map_eq_ok fun key row found => ?_⟩
  obtain ⟨cells, foundRaw, typed⟩ := (NameMap.traverse_eq_ok read).2 key row found
  refine typedRow_map written (forall₂_of_typedRow (fun name _ cell isCell value => ?_) (sameColumns ▸ typed))
  exact ParameterType.normal_of_normalize (apart _ (NameMap.mem_entries_iff.2 foundRaw) cell isCell)

end Table

namespace Table2D

variable {types : TypeMap} {write : Value → Node}

/-- The table with every cell changed. -/
def mapCells {α β : Type} (f : α → β) (table : Table2D α) : Table2D β :=
  { table with data := table.data.map (List.map f) }

theorem typedRow_map {result : String} {columns : List String} {key : String} {row : List Value}
    (written : ∀ v : Value, v.WrittenAs (write v)) (sameLength : row.length = columns.length)
    (normal : ∀ v ∈ row, (types.typeOf result).Normal v) :
    typedRow types result columns key (row.map write) = .ok row := by
  rw [typedRow, if_pos ((List.length_map write).trans sameLength)]
  refine mapM_eq_ok.2 (List.forall₂_map_left_iff.2 ?_)
  exact List.forall₂_same.2 fun v member => (normal v member).normalize (written v)

/-- **A typed table is typed again to itself**, with each cell written back. -/
theorem typed_mapCells {raw : Table2D Node} {table : Table2D Value} (written : ∀ v : Value, v.WrittenAs (write v))
    (apart : Table.CellsApart raw.data) (run : raw.typed types = .ok table) :
    (table.mapCells write).typed types = .ok table := by
  obtain ⟨isRow, isColumn, sameRow, sameColumn, sameColumns, sameResult, read⟩ := typed_eq_ok.1 run
  refine typed_eq_ok.2 ⟨sameRow ▸ isRow, sameColumn ▸ isColumn, rfl, rfl, rfl, rfl,
    NameMap.traverse_map_eq_ok fun key row found => ?_⟩
  obtain ⟨cells, foundRaw, typed⟩ := (NameMap.traverse_eq_ok read).2 key row found
  rw [← sameResult, ← sameColumns] at typed
  obtain ⟨sameLength, normal⟩ := forall_of_typedRow (fun cell isCell value =>
    ParameterType.normal_of_normalize (apart _ (NameMap.mem_entries_iff.2 foundRaw) cell isCell)) typed
  exact typedRow_map written sameLength normal

end Table2D

/-- **Reading is idempotent.**  A value read from a node without a tag directly inside a tag is
read again as itself, written back as a node or shown as a text.  So a table that could be typed
is typed again to itself, with its cells written in either form. -/
theorem normalization_idempotent :
    (∀ (type : ParameterType) (param : String) (raw : Node) (v : Value), raw.TagsApart →
      type.normalize param raw = .ok v → ∀ node, v.WrittenAs node → type.normalize param node = .ok v) ∧
    ∀ (types : TypeMap) (write : Value → Node), (∀ v : Value, v.WrittenAs (write v)) →
      (∀ (raw : Table Node) (table : Table Value), Table.CellsApart raw.data →
        raw.typed types = .ok table → (table.mapCells write).typed types = .ok table) ∧
      ∀ (raw : Table2D Node) (table : Table2D Value), Table.CellsApart raw.data →
        raw.typed types = .ok table → (table.mapCells write).typed types = .ok table := by
  refine ⟨fun type param raw v apart read node written => ?_, fun types write written => ⟨?_, ?_⟩⟩
  · exact (ParameterType.normal_of_normalize apart read).normalize written
  · exact fun raw table apart run => Table.typed_mapCells written apart run
  · exact fun raw table apart run => Table2D.typed_mapCells written apart run

namespace Example

/-- Screws by size, one diameter with its unit as a tag. -/
def screws : Table Node where
  index := "size"
  columns := ["d", "coated"]
  data := NameMap.ofList [("M3", [.tagged "mm" (.str "3.50"), .str "True"]), ("M4", [.int 4, .null])]

/-- Loads by size and grade. -/
def loads : Table2D Node where
  rowIndex := "size"
  colIndex := "grade"
  columns := ["8.8", "10.9"]
  result := "load"
  data := NameMap.ofList [("M3", [.str "1e3", .str "None"])]

def types : TypeMap :=
  NameMap.ofList [("size", .tableIndex), ("grade", .tableIndex), ("coated", .bool), ("load", .number)]

end Example

/-- A cell with a unit, a table and a two-way table that are read again to themselves. -/
theorem screws_typed_again :
    (∃ v, ParameterType.lengthMm.normalize "d" (.tagged "mm" (.str "3.50")) = .ok v ∧
      ParameterType.lengthMm.normalize "d" v.toNode = .ok v ∧
      ParameterType.lengthMm.normalize "d" (.str v.display) = .ok v) ∧
    (∃ table, Example.screws.typed Example.types = .ok table ∧
      (table.mapCells fun v => .str v.display).typed Example.types = .ok table) ∧
    ∃ table, Example.loads.typed Example.types = .ok table ∧
      (table.mapCells Value.toNode).typed Example.types = .ok table := by
  obtain ⟨v, cell⟩ := exists_eq_ok_of_isOk
    (show (ParameterType.lengthMm.normalize "d" (.tagged "mm" (.str "3.50"))).isOk = true by decide +kernel)
  obtain ⟨table, isTable⟩ := exists_eq_ok_of_isOk
    (show (Example.screws.typed Example.types).isOk = true by decide +kernel)
  obtain ⟨table', isTable'⟩ := exists_eq_ok_of_isOk
    (show (Example.loads.typed Example.types).isOk = true by decide +kernel)
  have apart : (Node.tagged "mm" (.str "3.50")).TagsApart := by simp [Node.TagsApart]
  have cellsApart : Table.CellsApart Example.screws.data := by
    have entries : Example.screws.data.entries =
        [("M3", [.tagged "mm" (.str "3.50"), .str "True"]), ("M4", [.int 4, .null])] := rfl
    simp [Table.CellsApart, entries, Node.TagsApart]
  have cellsApart' : Table.CellsApart Example.loads.data := by
    have entries : Example.loads.data.entries = [("M3", [.str "1e3", .str "None"])] := rfl
    simp [Table.CellsApart, entries, Node.TagsApart]
  obtain ⟨cells, tables⟩ := normalization_idempotent
  refine ⟨⟨v, cell, cells _ _ _ v apart cell _ .node, cells _ _ _ v apart cell _ .shown⟩, ?_, ?_⟩
  · exact ⟨table, isTable, (tables _ _ fun _ => .shown).1 _ table cellsApart isTable⟩
  · exact ⟨table', isTable', (tables _ _ fun _ => .node).2 _ table' cellsApart' isTable'⟩

-- Below a second tag the word for the absent value is kept, and it is lost on the second reading.
example : ParameterType.string.normalize "d" (.tagged "x" (.tagged "y" (.str "None"))) = .ok (.text "None") ∧
    ParameterType.string.normalize "d" (Value.text "None").toNode = .ok .absent := ⟨rfl, rfl⟩

end PartCatalog
