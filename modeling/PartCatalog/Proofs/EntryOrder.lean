/-
# The order of entries -- what reading a description does not see

A mapping of a description is read by the texts of its keys, so where these are all
different the order of its entries has no part in what is read.  `Node.Reordered` relates
two nodes that are the same mapping up to that order, `ParameterSet.ReorderedSection` says
at which depths of an element the order may differ: in the element itself, in its literal,
types, description and defaults sections, in each table and in the rows of a table.  A list
keeps its order everywhere.  Each reader of a section agrees on two such sections, and so
the element is read to the same set or not at all (`ParameterSet.read_of_reordered`).  Its
error may be another one, for readers stop at the first.
-/
import PartCatalog.Proofs.SchemaLaws
import PartCatalog.Proofs.WellFormed

set_option autoImplicit false

namespace PartCatalog

open Outcome

/-! ## What may be missing -/

theorem eq_of_rel {α : Type} {x y : Option α} (related : Option.Rel Eq x y) : x = y := by
  cases related with
  | none => rfl
  | some same => rw [same]

/-! ## Reordered mappings -/

namespace Node

/-- Whether two lists of entries differ in nothing but their order and what `alike` lets
differ in the values under a key.  No text belongs to two keys. -/
structure EntriesReordered (alike : String → Node → Node → Prop) (es fs : List (Node × Node)) : Prop where
  distinct : (es.map fun e => e.1.text).Nodup
  perm : ∃ mid, List.Forall₂ (fun e f => e.1 = f.1 ∧ alike e.1.text e.2 f.2) es mid ∧ mid.Perm fs

/-- Whether two nodes are the same, or one mapping in two orders below the same tags. -/
inductive Reordered (alike : String → Node → Node → Prop) : Node → Node → Prop
  | same (node : Node) : Reordered alike node node
  | map {es fs : List (Node × Node)} (entries : EntriesReordered alike es fs) :
    Reordered alike (.map es) (.map fs)
  | tagged (tag : String) {a b : Node} (below : Reordered alike a b) :
    Reordered alike (.tagged tag a) (.tagged tag b)

/-- The values under the keys are not changed. -/
def Kept (_ : String) (v w : Node) : Prop := v = w

section Reordered

variable {alike : String → Node → Node → Prop} {a b : Node} {es fs mid : List (Node × Node)}

theorem Reordered.asMapping? (reordered : Reordered alike a b) :
    a = b ∨ ∃ es fs, a.asMapping? = some es ∧ b.asMapping? = some fs ∧ EntriesReordered alike es fs := by
  induction reordered with
  | same node => exact .inl rfl
  | map entries => exact .inr ⟨_, _, rfl, rfl, entries⟩
  | tagged tag _ ih => exact ih.imp (congrArg _) id

theorem map_text_of_forall₂
    (alikes : List.Forall₂ (fun e f => e.1 = f.1 ∧ alike e.1.text e.2 f.2) es mid) :
    (es.map fun e => e.1.text) = mid.map fun e => e.1.text :=
  map_eq_map_of_forall₂ alikes fun _ _ head => congrArg text head.1

theorem EntriesReordered.perm_texts (entries : EntriesReordered alike es fs) :
    (es.map fun e => e.1.text).Perm (fs.map fun e => e.1.text) := by
  obtain ⟨mid, alikes, perm⟩ := entries.perm
  rw [map_text_of_forall₂ alikes]
  exact perm.map _

/-- Entries whose values are kept are a permutation. -/
theorem EntriesReordered.perm_of_kept (entries : EntriesReordered Kept es fs) : es.Perm fs := by
  obtain ⟨mid, alikes, perm⟩ := entries.perm
  have same : es = mid := by
    rw [← List.forall₂_eq_eq_eq]
    exact alikes.imp fun e f same => Prod.ext same.1 same.2
  exact same ▸ perm

/-! ## Fields -/

theorem mem_of_field? {name : String} {value : Node} (found : field? es name = some value) :
    (.str name, value) ∈ es := by
  rw [field?_eq_map_entryNamed?, Option.map_eq_some_iff] at found
  obtain ⟨e, isEntry, rfl⟩ := found
  rw [← key_of_entryNamed? isEntry]
  exact List.mem_of_find?_eq_some isEntry

/-- Where texts are not repeated, a field is found wherever it stands. -/
theorem field?_eq_some_iff (distinct : (es.map fun e => e.1.text).Nodup) {name : String} {value : Node} :
    field? es name = some value ↔ (.str name, value) ∈ es := by
  refine ⟨mem_of_field?, fun member => ?_⟩
  cases found : field? es name with
  | none =>
      rw [field?_eq_map_entryNamed?, Option.map_eq_none_iff] at found
      exact absurd (isString_iff.2 rfl) (List.find?_eq_none.1 found _ member)
  | some other =>
      have same := List.inj_on_of_nodup_map distinct (mem_of_field? found) member rfl
      rw [(Prod.mk.inj same).2]

theorem field?_of_forall₂
    (alikes : List.Forall₂ (fun e f => e.1 = f.1 ∧ alike e.1.text e.2 f.2) es mid) (name : String) :
    Option.Rel (alike name) (field? es name) (field? mid name) := by
  induction alikes with
  | nil => exact .none
  | @cons e f es mid head _ ih =>
      obtain ⟨key, v⟩ := e
      obtain ⟨_, w⟩ := f
      obtain ⟨rfl, values⟩ := head
      cases key with
      | str s =>
          rw [field?, field?]
          split
          · next same =>
            subst same
            exact .some values
          · exact ih
      | _ => exact ih

/-- A field has alike values in both orders, or is missing from both. -/
theorem EntriesReordered.field? (entries : EntriesReordered alike es fs) (name : String) :
    Option.Rel (alike name) (Node.field? es name) (Node.field? fs name) := by
  obtain ⟨mid, alikes, perm⟩ := entries.perm
  have distinct : (mid.map fun e => e.1.text).Nodup := map_text_of_forall₂ alikes ▸ entries.distinct
  have distinct' : (fs.map fun e => e.1.text).Nodup := (perm.map _).nodup_iff.1 distinct
  have moved : Node.field? mid name = Node.field? fs name := Option.ext fun value => by
    rw [field?_eq_some_iff distinct, field?_eq_some_iff distinct', perm.mem_iff]
  exact moved ▸ field?_of_forall₂ alikes name

end Reordered

end Node

open Node

/-! ## Readers of mappings -/

namespace Declaration

variable {α : Type} {alike : String → Node → Node → Prop} {a b : Node}

theorem agree_mapping {k : List (Node × Node) → Result α} (element : String)
    (reordered : Reordered alike a b)
    (each : ∀ es fs, EntriesReordered alike es fs → Agree (k es) (k fs)) :
    Agree (mapping element a >>= k) (mapping element b >>= k) := by
  rcases reordered.asMapping? with rfl | ⟨es, fs, isMapping, isMapping', entries⟩
  · exact Agree.refl _
  · rw [mapping, mapping, isMapping, isMapping']
    exact each es fs entries

/-- A schema does not see the order of the entries it checks. -/
theorem agree_fields {k : List (Node × Node) → Result α} (element : String)
    (mandatory optional : List String) (reordered : Reordered alike a b)
    (each : ∀ es fs, EntriesReordered alike es fs → Agree (k es) (k fs)) :
    Agree (fields element mandatory optional a >>= k) (fields element mandatory optional b >>= k) := by
  rcases reordered.asMapping? with rfl | ⟨es, fs, isMapping, isMapping', entries⟩
  · exact Agree.refl _
  · intro x
    have sameCheck := @Schema.check_eq_ok_of_perm element mandatory optional es fs entries.perm_texts
    simp only [bind_eq_ok, fields_eq_ok, isMapping, isMapping', Option.some.injEq, and_assoc,
      exists_eq_left', sameCheck, each es fs entries x]

/-- A mandatory field is found in both orders or lost in both. -/
theorem agree_field {k k' : Node → Result α} {es fs : List (Node × Node)} (element name : String)
    (entries : EntriesReordered alike es fs) (each : ∀ v w, alike name v w → Agree (k v) (k' w)) :
    Agree (field element es name >>= k) (field element fs name >>= k') := by
  have related := entries.field? name
  unfold field
  generalize Node.field? es name = x at related ⊢
  generalize Node.field? fs name = y at related ⊢
  cases related with
  | none => exact fun x => by simp [bind_eq_ok]
  | some values => exact each _ _ values

end Declaration

/-- A map of entries that are read one by one under the texts of their keys. -/
theorem agree_ofList {α β : Type} {readOne : Node × Node → Declaration.Result (String × α)}
    {k : NameMap α → Declaration.Result β} {es fs : List (Node × Node)}
    (named : ∀ e x, readOne e = .ok x → x.1 = e.1.text) (entries : EntriesReordered Kept es fs) :
    Agree (es.mapM readOne >>= fun list => k (NameMap.ofList list))
      (fs.mapM readOne >>= fun list => k (NameMap.ofList list)) := by
  have oneWay : ∀ {es fs : List (Node × Node)} {y : β}, es.Perm fs → (es.map fun e => e.1.text).Nodup →
      (es.mapM readOne >>= fun list => k (NameMap.ofList list)) = .ok y →
        (fs.mapM readOne >>= fun list => k (NameMap.ofList list)) = .ok y := by
    intro es fs y perm distinct run
    obtain ⟨list, reads, rest⟩ := bind_eq_ok.1 run
    obtain ⟨list', reads', perm'⟩ := exists_mapM_of_perm perm reads
    have texts : (es.map fun e => e.1.text) = list.map (·.1) :=
      map_eq_map_of_forall₂ (mapM_eq_ok.1 reads) fun e x read => (named e x read).symm
    rw [NameMap.ofList_eq_of_perm (texts ▸ distinct) perm'] at rest
    exact bind_eq_ok.2 ⟨list', reads', rest⟩
  have perm := entries.perm_of_kept
  intro y
  exact ⟨oneWay perm entries.distinct,
    oneWay perm.symm (entries.perm_texts.nodup_iff.1 entries.distinct)⟩

/-! ## Tables -/

namespace Table

/-- How a field of a table may differ: its rows may stand in another order. -/
def ReorderedField (name : String) (v w : Node) : Prop :=
  if name = "data" then Reordered Kept v w else v = w

/-- The other fields are kept. -/
theorem agree_field {α : Type} {k k' : Node → Declaration.Result α} {es fs : List (Node × Node)}
    (entries : EntriesReordered ReorderedField es fs) (element name : String) (other : name ≠ "data")
    (each : ∀ v, Agree (k v) (k' v)) :
    Agree (Declaration.field element es name >>= k) (Declaration.field element fs name >>= k') := by
  refine Declaration.agree_field element name entries fun v w alike => ?_
  obtain rfl : v = w := by rwa [ReorderedField, if_neg other] at alike
  exact each v

theorem agree_rows (element : String) {a b : Node} (reordered : Reordered Kept a b) :
    Agree (rows element a) (rows element b) := by
  refine Declaration.agree_mapping element reordered fun es fs entries => ?_
  refine agree_ofList (k := pure) ?_ entries
  rintro ⟨key, row⟩ ⟨text, cells⟩ read
  dsimp only at read
  split at read
  · cases read
    rfl
  · cases read

theorem agree_ofNode {a b : Node} (reordered : Reordered ReorderedField a b) :
    Agree (ofNode a) (ofNode b) := by
  refine Declaration.agree_fields "table" ["index", "columns", "data"] [] reordered fun es fs entries => ?_
  refine agree_field entries "table" "index" (by decide) fun v => (Agree.refl _).bind fun index => ?_
  refine agree_field entries "table" "columns" (by decide) fun v => (Agree.refl _).bind fun columns => ?_
  refine Declaration.agree_field "table" "data" entries fun v w rows => ?_
  exact (agree_rows "table" rows).bind fun data => Agree.refl _

end Table

theorem Table2D.agree_ofNode {a b : Node} (reordered : Reordered Table.ReorderedField a b) :
    Agree (ofNode a) (ofNode b) := by
  refine Declaration.agree_fields "table2d" mandatory [] reordered fun es fs entries => ?_
  have kept := @Table.agree_field (Table2D Node)
  refine kept entries "table2d" "rowindex" (by decide) fun v => (Agree.refl _).bind fun rowIndex => ?_
  refine kept entries "table2d" "colindex" (by decide) fun v => (Agree.refl _).bind fun colIndex => ?_
  split
  · exact Agree.refl _
  · refine kept entries "table2d" "columns" (by decide) fun v => (Agree.refl _).bind fun columns => ?_
    refine kept entries "table2d" "result" (by decide) fun v => (Agree.refl _).bind fun result => ?_
    refine Declaration.agree_field "table2d" "data" entries fun v w rows => ?_
    exact (Table.agree_rows "table2d" rows).bind fun data => Agree.refl _

/-! ## Parameter sets -/

namespace ParameterSet

/-- How a section of tables may differ: in the order of the fields and the rows of each. -/
inductive ReorderedTables : Node → Node → Prop
  | one {a b : Node} (table : Reordered Table.ReorderedField a b) : ReorderedTables a b
  | many {xs ys : List Node} (tables : List.Forall₂ (Reordered Table.ReorderedField) xs ys) :
    ReorderedTables (.seq xs) (.seq ys)

/-- The sections that are mappings by the names of parameters. -/
def namedSections : List String := ["literal", "types", "description", "defaults"]

/-- The sections that hold tables. -/
def tableSections : List String := ["tables", "tables2d"]

/-- How a section may differ: a mapping by names in the order of its entries, tables in
that of their fields and rows, and any other section in nothing. -/
def ReorderedSection (name : String) (v w : Node) : Prop :=
  if name ∈ namedSections then Reordered Kept v w
  else if name ∈ tableSections then ReorderedTables v w
  else v = w

section Sections

variable {a? b? : Option Node}

theorem agree_readLiteral (related : Option.Rel (Reordered Kept) a? b?) :
    Agree (readLiteral a?) (readLiteral b?) := by
  cases related with
  | none => exact Agree.refl _
  | some reordered =>
      refine Declaration.agree_mapping "literal" reordered fun es fs entries => Agree.of_eq ?_
      have named : ((es.map fun e => (e.1.text, Value.ofNode e.2)).map (·.1)) = es.map fun e => e.1.text := by
        rw [List.map_map]
        rfl
      have same := NameMap.ofList_eq_of_perm (named ▸ entries.distinct)
        (entries.perm_of_kept.map fun e => (e.1.text, Value.ofNode e.2))
      exact congrArg Except.ok same

theorem agree_readNamed {α : Type} (place : String) (parameters : NameSet)
    (readOne : String → Node → Declaration.Result α) (related : Option.Rel (Reordered Kept) a? b?) :
    Agree (readNamed place parameters readOne a?) (readNamed place parameters readOne b?) := by
  cases related with
  | none => exact Agree.refl _
  | some reordered =>
      refine Declaration.agree_mapping place reordered fun es fs entries => ?_
      refine agree_ofList (k := pure) ?_ entries
      rintro ⟨key, value⟩ x read
      dsimp only at read
      split at read
      · obtain ⟨y, -, rfl⟩ := map_eq_ok.1 read
        rfl
      · cases read

theorem agree_readTypes (parameters : NameSet) (related : Option.Rel (Reordered Kept) a? b?) :
    Agree (readTypes parameters a?) (readTypes parameters b?) :=
  (agree_readNamed "types" parameters readType related).map _

theorem agree_readDescription (parameters : NameSet) (related : Option.Rel (Reordered Kept) a? b?) :
    Agree (readDescription parameters a?) (readDescription parameters b?) :=
  agree_readNamed "description" parameters _ related

theorem agree_readDefaults (free : List String) (types : TypeMap)
    (related : Option.Rel (Reordered Kept) a? b?) :
    Agree (readDefaults free types a?) (readDefaults free types b?) := by
  cases related with
  | none => exact Agree.refl _
  | some reordered =>
      refine Declaration.agree_mapping "defaults" reordered fun es fs entries => ?_
      refine agree_ofList (k := fun declared => pure ((NameSet.ofNames free).mapWithName fun name _ =>
        (declared.get? name).getD (types.typeOf name).defaultValue)) ?_ entries
      rintro ⟨key, value⟩ x read
      dsimp only at read
      split at read
      · obtain ⟨v, -, rfl⟩ := map_eq_ok.1 read
        rfl
      · cases read

/-- The elements of a section of tables, in the order of the list. -/
theorem forall₂_elements (related : Option.Rel ReorderedTables a? b?) :
    List.Forall₂ (Reordered Table.ReorderedField) (elements a?) (elements b?) := by
  have refl : ∀ nodes : List Node, List.Forall₂ (Reordered Table.ReorderedField) nodes nodes :=
    fun nodes => List.forall₂_same.2 fun node _ => .same node
  cases related with
  | none => exact .nil
  | some tables =>
      cases tables with
      | many tables => exact tables
      | one table =>
          cases table with
          | same node => exact refl _
          | map entries => exact .cons (.map entries) .nil
          | tagged tag below => exact .cons (.tagged tag below) .nil

theorem agree_readMany {α : Type} {readOne : Node → Declaration.Result α}
    (each : ∀ a b, Reordered Table.ReorderedField a b → Agree (readOne a) (readOne b))
    (related : Option.Rel ReorderedTables a? b?) : Agree (readMany readOne a?) (readMany readOne b?) := by
  rw [readMany_eq_mapM, readMany_eq_mapM]
  exact Agree.mapM ((forall₂_elements related).imp each)

end Sections

section Fields

variable {es fs : List (Node × Node)} (entries : EntriesReordered ReorderedSection es fs) (name : String)

include entries

theorem rel_namedSection (member : name ∈ namedSections) :
    Option.Rel (Reordered Kept) (Node.field? es name) (Node.field? fs name) := by
  have isMapping : ReorderedSection name = Reordered Kept := funext₂ fun _ _ => if_pos member
  exact isMapping ▸ entries.field? name

theorem rel_tableSection (notNamed : name ∉ namedSections) (member : name ∈ tableSections) :
    Option.Rel ReorderedTables (Node.field? es name) (Node.field? fs name) := by
  have areTables : ReorderedSection name = ReorderedTables :=
    funext₂ fun _ _ => (if_neg notNamed).trans (if_pos member)
  exact areTables ▸ entries.field? name

theorem field?_eq_of_reordered (notNamed : name ∉ namedSections) (noTables : name ∉ tableSections) :
    Node.field? es name = Node.field? fs name := by
  have isSame : ReorderedSection name = Eq :=
    funext₂ fun _ _ => (if_neg notNamed).trans (if_neg noTables)
  exact eq_of_rel (isSame ▸ entries.field? name)

end Fields

/-- **The order of entries is not read.**  Of two elements that differ in nothing else,
either both are read, to one set, or none is. -/
theorem read_of_reordered {a b : Node} (reordered : Reordered ReorderedSection a b)
    (params : ParameterSet) : ofNode a = .ok params ↔ ofNode b = .ok params := by
  suffices agree : Agree (ofNode a) (ofNode b) from agree params
  refine Declaration.agree_fields "parameters" [] sections reordered fun es fs entries => ?_
  have named := rel_namedSection entries
  have tables := rel_tableSection entries
  rw [field?_eq_of_reordered entries "free" (by decide) (by decide),
    field?_eq_of_reordered entries "common" (by decide) (by decide)]
  refine (agree_readLiteral (named "literal" (by decide))).bind fun literal => ?_
  refine (Agree.refl _).bind fun free => ?_
  refine (agree_readMany (fun _ _ => Table.agree_ofNode)
    (tables "tables" (by decide) (by decide))).bind fun raws => ?_
  refine (agree_readMany (fun _ _ => Table2D.agree_ofNode)
    (tables "tables2d" (by decide) (by decide))).bind fun raws2d => ?_
  refine (agree_readTypes _ (named "types" (by decide))).bind fun types => ?_
  refine (agree_readDescription _ (named "description" (by decide))).bind fun description => ?_
  refine (Agree.refl _).bind fun typed => (Agree.refl _).bind fun typed2d => ?_
  exact (agree_readDefaults free types (named "defaults" (by decide))).bind fun defaults => Agree.refl _

namespace Example

/-- A mapping by strings is read alike with alike values in the reverse order. -/
theorem reordered_mapping {alike : String → Node → Node → Prop} {entries mid : List (String × Node)}
    (distinct : (entries.map (·.1)).Nodup)
    (alikes : List.Forall₂ (fun e f => e.1 = f.1 ∧ alike e.1 e.2 f.2) entries mid) :
    Reordered alike (mapping entries) (mapping mid.reverse) := by
  refine .map ⟨?_, mid.map fun f => (.str f.1, f.2), ?_, ?_⟩
  · rw [List.map_map]
    exact distinct
  · rw [List.forall₂_map_left_iff, List.forall₂_map_right_iff]
    exact alikes.imp fun e f same => ⟨congrArg Node.str same.1, same.2⟩
  · exact ((List.reverse_perm mid).map _).symm

/-- A mapping by strings in the reverse order. -/
theorem reordered_reverse {entries : List (String × Node)} (distinct : (entries.map (·.1)).Nodup) :
    Reordered Kept (mapping entries) (mapping entries.reverse) :=
  reordered_mapping distinct (List.forall₂_same.2 fun _ _ => ⟨rfl, rfl⟩)

def screwLiterals : List (String × Node) := [("name", .str "screw"), ("head", .str "hex")]

def screwTypes : List (String × Node) :=
  [("size", .str "Table Index"), ("collar", .str "Bool"), ("head", .str "String")]

def screwRows : List (String × Node) := [("M4", texts ["4"]), ("M3", texts ["3"])]

def screwDefaults : List (String × Node) := [("size", .str "M3"), ("collar", .str "True")]

/-- The fields of a table of screws, with its rows in some order. -/
def screwTable (rows : List (String × Node)) : List (String × Node) :=
  [("index", .str "size"), ("columns", texts ["d"]), ("data", mapping rows)]

/-- The sections of an element, with their entries in some order. -/
def screwSections (literals types table defaults : List (String × Node)) : List (String × Node) :=
  [("literal", mapping literals), ("free", texts ["size", "collar"]), ("types", mapping types),
    ("tables", mapping table), ("defaults", mapping defaults)]

/-- A screw with defaults. -/
def orderedNode : Node :=
  mapping (screwSections screwLiterals screwTypes (screwTable screwRows) screwDefaults)

/-- The same with every mapping backwards. -/
def backwardsNode : Node :=
  mapping (screwSections screwLiterals.reverse screwTypes.reverse (screwTable screwRows.reverse).reverse
    screwDefaults.reverse).reverse

def ordered : ParameterSet := result (ofNode orderedNode)

theorem read_ordered : ofNode orderedNode = .ok ordered := eq_ok_result (by decide +kernel)

theorem reordered_table :
    Reordered Table.ReorderedField (mapping (screwTable screwRows))
      (mapping (screwTable screwRows.reverse).reverse) :=
  reordered_mapping (by decide) <|
    .cons ⟨rfl, rfl⟩ <| .cons ⟨rfl, rfl⟩ <| .cons ⟨rfl, reordered_reverse (by decide)⟩ .nil

theorem reordered_screw : Reordered ReorderedSection orderedNode backwardsNode :=
  reordered_mapping (by decide) <|
    .cons ⟨rfl, reordered_reverse (by decide)⟩ <| .cons ⟨rfl, rfl⟩ <|
    .cons ⟨rfl, reordered_reverse (by decide)⟩ <| .cons ⟨rfl, .one reordered_table⟩ <|
    .cons ⟨rfl, reordered_reverse (by decide)⟩ .nil

end Example

/-- A screw is the same part backwards. -/
theorem read_of_reordered_screw :
    Reordered ReorderedSection Example.orderedNode Example.backwardsNode ∧
      Example.orderedNode ≠ Example.backwardsNode ∧
      ofNode Example.orderedNode = .ok Example.ordered ∧
      ofNode Example.backwardsNode = .ok Example.ordered :=
  ⟨Example.reordered_screw, by simp [Example.orderedNode, Example.backwardsNode, Example.mapping,
    Example.screwSections], Example.read_ordered,
    (read_of_reordered Example.reordered_screw _).1 Example.read_ordered⟩

end ParameterSet

end PartCatalog
