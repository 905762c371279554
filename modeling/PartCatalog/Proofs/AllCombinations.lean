/-
# All combinations -- what is common where nothing is declared

A set that is read without declared combinations has all of them for its common ones, if
the values of each free parameter can be listed: a bool has two, and an index that a table
uses has the keys that all such tables share (`InDomain`).  Each assignment of such values
to the free parameters is listed once (`allCombinations_spec`, `assign_injective`), in the
order in which an odometer gives them.  A listed assignment finds a row and a column in
every table, because each table that an index selects from has the key that the domain of
the index gives it; so where the tables are indexed by free parameters alone, and do not
overwrite them, the assignment can be resolved (`exists_resolve`).
-/
import PartCatalog.Proofs.LastWriter
import PartCatalog.Proofs.Odometer

set_option autoImplicit false

namespace PartCatalog.ParameterSet

open Outcome

/-! ## Domains -/

/-- Whether a value is one that a free parameter may take: a truth value, or a key that
all tables using the index share. -/
def InDomain (params : ParameterSet) (name : String) (v : Value) : Prop :=
  (params.types.get? name = some .bool ∧ ∃ b, v = .bool b) ∨
    (params.types.get? name = some .tableIndex ∧ ∃ c, v = .text c ∧ params.Shares name c)

variable {params : ParameterSet}

/-- The choices of an index are listed exactly when a table uses it. -/
theorem exists_fullDomain_iff {node : Node} (read : ofNode node = .ok params) {name : String}
    (isFree : name ∈ params.free) :
    (∃ domain, params.fullDomain name = .ok domain) ↔
      params.types.get? name = some .bool ∨
        (params.types.get? name = some .tableIndex ∧ params.Uses name) := by
  simp only [fullDomain_eq_ok]
  constructor
  · rintro ⟨domain, ⟨typed, -⟩ | ⟨typed, choices, found, -⟩⟩
    · exact .inl typed
    · exact .inr ⟨typed, ((wellFormed_of_ofNode read).choices name choices found).used⟩
  · rintro (typed | ⟨typed, used⟩)
    · exact ⟨_, .inl ⟨typed, rfl⟩⟩
    · have computed := choices_of_read read
      cases found : Choices.ofIndex? params.tables params.tables2d name with
      | none => exact absurd used (Choices.ofIndex?_eq_none_iff.1 found)
      | some choices =>
          refine ⟨_, .inr ⟨typed, choices, ?_, rfl⟩⟩
          rw [computed, Choices.get?_compute, if_pos ⟨isFree, typed⟩, found]

theorem mem_fullDomain_iff {node : Node} (read : ofNode node = .ok params) {name : String}
    {domain : List Value} (listed : params.fullDomain name = .ok domain) (v : Value) :
    v ∈ domain ↔ params.InDomain name v := by
  rcases fullDomain_eq_ok.1 listed with ⟨typed, rfl⟩ | ⟨typed, choices, found, rfl⟩
  · rw [InDomain, typed]
    constructor
    · intro member
      refine .inl ⟨rfl, ?_⟩
      rcases List.mem_cons.1 member with rfl | member
      · exact ⟨true, rfl⟩
      · exact ⟨false, List.mem_singleton.1 member⟩
    · rintro (⟨-, b, rfl⟩ | ⟨other, -⟩)
      · cases b <;> simp
      · cases other
  · rw [choices_of_read read, Choices.get?_compute] at found
    split at found
    · obtain ⟨-, -, -, members⟩ := Choices.ofIndex?_eq_some_iff.1 found
      simp only [List.mem_map, members, InDomain, typed, true_and, Option.some.injEq, reduceCtorEq,
        false_and, false_or]
      constructor
      · rintro ⟨c, shared, rfl⟩
        exact ⟨c, rfl, shared⟩
      · rintro ⟨c, rfl, shared⟩
        exact ⟨c, shared, rfl⟩
    · cases found

theorem nodup_fullDomain (well : params.WellFormed) {name : String} {domain : List Value}
    (listed : params.fullDomain name = .ok domain) : domain.Nodup := by
  rcases fullDomain_eq_ok.1 listed with ⟨-, rfl⟩ | ⟨-, choices, found, rfl⟩
  · decide
  · have nodup := (well.choices name choices found).nodup
    exact nodup.map fun c d same => Value.text.inj same

/-! ## Combinations -/

theorem mem_crossProduct_iff {p : String → Value → Prop} {names : List String}
    {domains : List (List Value)}
    (domainsOf : List.Forall₂ (fun name domain => ∀ v, v ∈ domain ↔ p name v) names domains)
    (combo : List Value) : combo ∈ crossProduct domains ↔ List.Forall₂ p names combo := by
  rw [mem_crossProduct]
  induction domainsOf generalizing combo with
  | nil => simp only [List.forall₂_nil_left_iff]
  | cons members _ ih => simp only [List.forall₂_cons_left_iff, members, ih]

/-- The combinations of free parameters whose values can be listed, each once, in the
order of an odometer. -/
theorem allCombinations_spec {node : Node} (read : ofNode node = .ok params)
    {combos : List (List Value)} (listed : params.allCombinations? = some combos) :
    combos.Nodup ∧ (∀ combo, combo ∈ combos ↔ List.Forall₂ params.InDomain params.free combo) ∧
      ∃ domains, List.Forall₂ (fun name domain => params.fullDomain name = .ok domain) params.free
        domains ∧ ∀ n, ((Combinations.ofDomains domains).take n).1 = combos.take n := by
  obtain ⟨domains, domainsOf, rfl⟩ := allCombinations?_eq_some.1 listed
  have nodup : ∀ domain ∈ domains, domain.Nodup := by
    intro domain member
    obtain ⟨name, -, isDomain⟩ := exists_left_of_forall₂ domainsOf domain member
    exact nodup_fullDomain (wellFormed_of_ofNode read) isDomain
  have members : List.Forall₂ (fun name domain => ∀ v, v ∈ domain ↔ params.InDomain name v)
      params.free domains := domainsOf.imp fun _ _ isDomain => mem_fullDomain_iff read isDomain
  exact ⟨nodup_crossProduct nodup, mem_crossProduct_iff members, domains, domainsOf,
    Combinations.take_ofDomains domains⟩

/-! ## Assignments -/

/-- The assignment that a combination stands for. -/
def assign (params : ParameterSet) (combo : List Value) : NameMap Value :=
  NameMap.ofList (params.free.zip combo)

/-- Whether a map has a value of its domain for each free parameter, and nothing else. -/
structure IsAssignment (params : ParameterSet) (assignment : NameMap Value) : Prop where
  names : ∀ name, name ∈ assignment.keys ↔ name ∈ params.free
  values : ∀ name v, assignment.get? name = some v → params.InDomain name v

theorem isAssignment_assign {combo : List Value} (chosen : List.Forall₂ params.InDomain params.free combo) :
    params.IsAssignment (params.assign combo) where
  names := by
    intro name
    rw [assign, NameMap.mem_keys_ofList, List.map_fst_zip (Nat.le_of_eq chosen.length_eq)]
  values := by
    intro name v found
    rw [assign, NameMap.get?_ofList] at found
    exact List.forall₂_zip chosen (NameMap.mem_of_lastEntry found)

theorem get?_assign {combo : List Value} (nodup : params.free.Nodup)
    (sameLength : params.free.length = combo.length) :
    List.Forall₂ (fun name v => (params.assign combo).get? name = some v) params.free combo := by
  refine (NameMap.forall₂_lastEntry_zip nodup sameLength).imp fun name v last => ?_
  rw [assign, NameMap.get?_ofList, last]

/-- Free parameters that are not repeated tell two combinations apart. -/
theorem assign_injective {combo combo' : List Value} (nodup : params.free.Nodup)
    (sameLength : params.free.length = combo.length) (sameLength' : params.free.length = combo'.length)
    (same : params.assign combo = params.assign combo') : combo = combo' := by
  have first := get?_assign nodup sameLength
  have second := get?_assign nodup sameLength'
  rw [same] at first
  refine List.right_unique_forall₂' (fun name v w found found' => ?_) first second
  exact Option.some.inj (found.symm.trans found')

theorem exists_assign_eq {assignment : NameMap Value} (nodup : params.free.Nodup)
    (isAssignment : params.IsAssignment assignment) :
    ∃ combo, List.Forall₂ params.InDomain params.free combo ∧ params.assign combo = assignment := by
  obtain ⟨combo, chosen⟩ := exists_forall₂_iff.2 fun name (isFree : name ∈ params.free) =>
    NameMap.mem_keys_iff.1 ((isAssignment.names name).2 isFree)
  refine ⟨combo, chosen.imp isAssignment.values, NameMap.ext_get? fun name => ?_⟩
  have assigned := get?_assign nodup chosen.length_eq
  by_cases isFree : name ∈ params.free
  · obtain ⟨v, -, found, found'⟩ := exists_left_of_forall₂
      (List.Forall₂.flip (assigned.mp (fun _ _ => And.intro) chosen)) name isFree
    rw [found, found']
  · have absent : name ∉ (params.assign combo).keys := by
      rw [assign, NameMap.mem_keys_ofList, List.map_fst_zip (Nat.le_of_eq chosen.length_eq)]
      exact isFree
    rw [NameMap.get?_eq_none_iff.2 absent]
    exact (NameMap.get?_eq_none_iff.2 fun member => isFree ((isAssignment.names name).1 member)).symm

/-! ## Resolving an assignment -/

/-- Whether the tables of a set are indexed by free parameters that no table overwrites. -/
structure FreelyIndexed (params : ParameterSet) : Prop where
  free : ∀ name, params.Uses name → name ∈ params.free
  columns : ∀ table ∈ params.tables, ∀ column ∈ table.columns, ¬ params.Uses column
  results : ∀ table ∈ params.tables2d, ¬ params.Uses table.result

theorem FreelyIndexed.apart (freely : params.FreelyIndexed) : params.IndicesApart :=
  ⟨freely.columns, freely.results⟩

/-- An assignment gives each free index a key that all tables using it share. -/
theorem IsAssignment.exists_key {assignment : NameMap Value} (isAssignment : params.IsAssignment assignment)
    {index : String} (isFree : index ∈ params.free) (typed : params.types.get? index = some .tableIndex) :
    ∃ value, params.StartsWith assignment index value ∧ params.Shares index value.display := by
  obtain ⟨value, found⟩ := NameMap.mem_keys_iff.1 ((isAssignment.names index).2 isFree)
  rcases isAssignment.values index value found with ⟨typed', -⟩ | ⟨-, c, rfl, shared⟩
  · rw [typed] at typed'
    cases typed'
  · exact ⟨.text c, .inl found, shared⟩

/-- Where free parameters alone index the tables, an assignment can be resolved. -/
theorem exists_resolve {assignment : NameMap Value} (well : params.WellFormed)
    (freely : params.FreelyIndexed) (isAssignment : params.IsAssignment assignment) :
    ∃ values, params.resolve assignment = .ok values := by
  refine (exists_resolve_iff well freely.apart).2 {
    rows := fun table member => ?_
    rows2d := fun table member => ?_
    columns2d := fun table member => ?_
    sources := fun name known => ?_ }
  · have isFree := freely.free table.index (.inl ⟨table, member, rfl⟩)
    obtain ⟨value, starts, shared⟩ := isAssignment.exists_key isFree (well.tables table member).index
    exact ⟨value, starts, shared.row table member rfl⟩
  · have isFree := freely.free table.rowIndex (.inr ⟨table, member, .inl rfl⟩)
    obtain ⟨value, starts, shared⟩ := isAssignment.exists_key isFree (well.tables2d table member).rowIndex
    exact ⟨value, starts, shared.row2d table member rfl⟩
  · have isFree := freely.free table.colIndex (.inr ⟨table, member, .inr rfl⟩)
    obtain ⟨value, starts, shared⟩ := isAssignment.exists_key isFree (well.tables2d table member).colIndex
    exact ⟨value, starts, shared.column2d table member rfl⟩
  · rcases mentions_iff.1 ((well.parameters name).1 known) with isSet | isFree | used
    · exact .inr isSet
    · exact .inl ((isAssignment.names name).2 isFree)
    · exact .inl ((isAssignment.names name).2 (freely.free name used))

/-! ## Sets that declare no common combinations -/

theorem common_eq_allCombinations? {node : Node} (read : ofNode node = .ok params)
    (undeclared : ∀ entries, node.asMapping? = some entries → Node.field? entries "common" = none) :
    params.common = params.allCombinations? := by
  obtain ⟨entries, raws, raws2d, fields, reading⟩ := ofNode_eq_ok.1 read
  have common := reading.common
  rw [undeclared entries (asMapping?_of_fields fields)] at common
  exact (Except.ok.inj common).symm

theorem isSome_allCombinations?_iff :
    params.allCombinations?.isSome = true ↔
      ∀ name ∈ params.free, ∃ domain, params.fullDomain name = .ok domain := by
  rw [Option.isSome_iff_exists, ← exists_forall₂_iff]
  simp only [allCombinations?_eq_some]
  constructor
  · rintro ⟨combos, domains, domainsOf, -⟩
    exact ⟨domains, domainsOf⟩
  · rintro ⟨domains, domainsOf⟩
    exact ⟨_, domains, domainsOf, rfl⟩

/-- **What is common where nothing is declared.**  There are common combinations exactly
when each free parameter is a bool or an index that a table uses.  They are the lists of
one value from each domain, as an odometer gives them, and each assignment to free
parameters that are not repeated is among them once.  Where those parameters alone index
the tables, each can be resolved. -/
theorem common_of_undeclared {node : Node} (read : ofNode node = .ok params)
    (undeclared : ∀ entries, node.asMapping? = some entries → Node.field? entries "common" = none) :
    (params.common.isSome = true ↔ ∀ name ∈ params.free, params.types.get? name = some .bool ∨
      (params.types.get? name = some .tableIndex ∧ params.Uses name)) ∧
    ∀ combos, params.common = some combos →
      (combos.Nodup ∧ (∀ combo, combo ∈ combos ↔ List.Forall₂ params.InDomain params.free combo) ∧
        ∃ domains, List.Forall₂ (fun name domain => params.fullDomain name = .ok domain) params.free
          domains ∧ ∀ n, ((Combinations.ofDomains domains).take n).1 = combos.take n) ∧
      (params.free.Nodup → (combos.map params.assign).Nodup ∧
        ∀ assignment, assignment ∈ combos.map params.assign ↔ params.IsAssignment assignment) ∧
      ((∀ name, params.Uses name → name ∈ params.free) →
        (∀ table ∈ params.tables, ∀ column ∈ table.columns, ¬ params.Uses column) →
        (∀ table ∈ params.tables2d, ¬ params.Uses table.result) →
        ∀ combo ∈ combos, ∃ values, params.resolve (params.assign combo) = .ok values) := by
  rw [common_eq_allCombinations? read undeclared]
  constructor
  · rw [isSome_allCombinations?_iff]
    exact forall₂_congr fun name isFree => exists_fullDomain_iff read isFree
  · intro combos listed
    obtain ⟨nodup, members, odometer⟩ := allCombinations_spec read listed
    have lengths : ∀ combo ∈ combos, params.free.length = combo.length := fun combo member =>
      ((members combo).1 member).length_eq
    refine ⟨⟨nodup, members, odometer⟩, fun nodupFree => ⟨?_, fun assignment => ?_⟩,
      fun free columns results combo member => ?_⟩
    · refine nodup.map_on fun combo member combo' member' same => ?_
      exact assign_injective nodupFree (lengths combo member) (lengths combo' member') same
    · rw [List.mem_map]
      constructor
      · rintro ⟨combo, member, rfl⟩
        exact isAssignment_assign ((members combo).1 member)
      · intro isAssignment
        obtain ⟨combo, chosen, rfl⟩ := exists_assign_eq nodupFree isAssignment
        exact ⟨combo, (members combo).2 chosen, rfl⟩
    · exact exists_resolve (wellFormed_of_ofNode read) ⟨free, columns, results⟩
        (isAssignment_assign ((members combo).1 member))

/-- The base declares no combinations, and a size in zinc is among those it has. -/
theorem common_of_base :
    ∃ combos, Example.base.common = some combos ∧ combos.Nodup ∧
      [.text "M3", .text "zinc"] ∈ combos ∧
      ∃ values, Example.base.resolve (Example.base.assign [.text "M3", .text "zinc"]) = .ok values := by
  have undeclared : ∀ entries, Example.baseNode.asMapping? = some entries →
      Node.field? entries "common" = none := by
    intro entries isMapping
    cases isMapping
    decide
  obtain ⟨present, listed⟩ := common_of_undeclared Example.read_base undeclared
  obtain ⟨combos, isCommon⟩ := Option.isSome_iff_exists.1 (present.2 (by decide +kernel))
  obtain ⟨⟨nodup, members, -⟩, -, resolved⟩ := listed combos isCommon
  have isFree : Example.base.free = ["size", "finish"] := by decide +kernel
  have indexed : ∀ name ∈ Example.base.indices, name ∈ Example.base.free := by decide +kernel
  have sized : Example.base.Shares "size" "M3" :=
    ⟨by decide +kernel, by decide +kernel, by decide +kernel⟩
  have finished : Example.base.Shares "finish" "zinc" :=
    ⟨by decide +kernel, by decide +kernel, by decide +kernel⟩
  have member : [.text "M3", .text "zinc"] ∈ combos := by
    rw [members, isFree]
    exact .cons (.inr ⟨by decide +kernel, _, rfl, sized⟩)
      (.cons (.inr ⟨by decide +kernel, _, rfl, finished⟩) .nil)
  exact ⟨combos, isCommon, nodup, member, resolved
    (fun name used => indexed name (mem_indices_iff.2 used)) (by decide +kernel) (by decide +kernel) _ member⟩

end PartCatalog.ParameterSet
