/-
# Laws of choices -- what an index may be, in the one order they have

Both ways to order choices are total orders, and which of them applies depends on the
members only, so `sort_eq_of_perm`: a list of choices has one presentation.  An index
that some table uses has a choice for each key that all tables using it share
(`SharedKey`), each once and in that presentation; those four facts fix the list
(`ofIndex?_eq_some_iff`).  `get?_compute` says which indices have choices at all.
-/
import PartCatalog.ParameterSet.Choices
import PartCatalog.Proofs.NameMapLaws

set_option autoImplicit false

namespace PartCatalog

/-! ## The order -/

namespace ChoiceOrder

namespace Strategy

theorem le_total (strategy : Strategy) (a b : String) :
    strategy.le a b || strategy.le b a := by
  cases strategy with
  | numerical =>
      simp only [le, numericalLe]
      split
      · simp
      · split
        · simp
        · simpa using String.le_total a b
  | alphabetical => simpa [le] using String.le_total a b

theorem le_trans (strategy : Strategy) (a b c : String) (ab : strategy.le a b)
    (bc : strategy.le b c) : strategy.le a c := by
  cases strategy with
  | numerical =>
      simp only [le, numericalLe, Bool.if_true_left, Bool.if_false_left, Bool.or_eq_true,
        Bool.and_eq_true, Bool.not_eq_true', decide_eq_true_eq, decide_eq_false_iff_not] at ab bc ⊢
      rcases ab with ab | ⟨ab, ab'⟩ <;> rcases bc with bc | ⟨bc, bc'⟩
      · left; omega
      · left; omega
      · left; omega
      · exact .inr ⟨by omega, String.le_trans ab' bc'⟩
  | alphabetical =>
      simp only [le, decide_eq_true_eq] at ab bc ⊢
      exact String.le_trans ab bc

theorem le_antisymm (strategy : Strategy) {a b : String} (ab : strategy.le a b)
    (ba : strategy.le b a) : a = b := by
  cases strategy with
  | numerical =>
      simp only [le, numericalLe, Bool.if_true_left, Bool.if_false_left, Bool.or_eq_true,
        Bool.and_eq_true, Bool.not_eq_true', decide_eq_true_eq, decide_eq_false_iff_not] at ab ba
      rcases ab with ab | ⟨ab, ab'⟩ <;> rcases ba with ba | ⟨ba, ba'⟩
      · omega
      · omega
      · omega
      · exact String.le_antisymm ab' ba'
  | alphabetical =>
      simp only [le, decide_eq_true_eq] at ab ba
      exact String.le_antisymm ab ba

theorem sort_perm (strategy : Strategy) (candidates : List String) :
    (strategy.sort candidates).Perm candidates :=
  List.mergeSort_perm candidates strategy.le

theorem sort_eq_of_perm (strategy : Strategy) {cs ds : List String} (perm : cs.Perm ds) :
    strategy.sort cs = strategy.sort ds := by
  have perm' : (strategy.sort cs).Perm (strategy.sort ds) :=
    (strategy.sort_perm cs).trans (perm.trans (strategy.sort_perm ds).symm)
  have sorted : ∀ xs, (strategy.sort xs).Pairwise fun a b => strategy.le a b = true := fun xs =>
    List.pairwise_mergeSort strategy.le_trans strategy.le_total xs
  exact perm'.eq_of_pairwise (fun _ _ _ _ => strategy.le_antisymm) (sorted cs) (sorted ds)

end Strategy

theorem strategy_eq_of_perm {cs ds : List String} (perm : cs.Perm ds) :
    strategy cs = strategy ds := by
  have same : Strategy.numerical.applies cs = Strategy.numerical.applies ds := perm.all_eq
  rw [strategy, strategy, same]

theorem sort_perm (candidates : List String) : (sort candidates).Perm candidates :=
  (strategy candidates).sort_perm candidates

@[simp] theorem mem_sort {candidates : List String} {c : String} :
    c ∈ sort candidates ↔ c ∈ candidates :=
  (sort_perm candidates).mem_iff

/-- A list of choices has one presentation, whatever order it comes in. -/
theorem sort_eq_of_perm {cs ds : List String} (perm : cs.Perm ds) : sort cs = sort ds := by
  rw [sort, sort, strategy_eq_of_perm perm]
  exact (strategy ds).sort_eq_of_perm perm

@[simp] theorem sort_sort (candidates : List String) : sort (sort candidates) = sort candidates :=
  sort_eq_of_perm (sort_perm candidates)

end ChoiceOrder

/-! ## Shared keys -/

namespace Choices

/-- Whether some table is indexed by a name. -/
def Used (tables : List (Table Value)) (tables2d : List (Table2D Value)) (name : String) : Prop :=
  (∃ table ∈ tables, table.index = name) ∨
    ∃ table ∈ tables2d, table.rowIndex = name ∨ table.colIndex = name

instance (tables : List (Table Value)) (tables2d : List (Table2D Value)) (name : String) :
    Decidable (Used tables tables2d name) :=
  inferInstanceAs (Decidable (_ ∨ _))

/-- Whether every table indexed by a name has a key: as a row where the name selects
rows, as a column where it selects columns. -/
structure SharedKey (tables : List (Table Value)) (tables2d : List (Table2D Value))
    (name key : String) : Prop where
  row : ∀ table ∈ tables, table.index = name → key ∈ table.keys
  row2d : ∀ table ∈ tables2d, table.rowIndex = name → key ∈ table.rowKeys
  column2d : ∀ table ∈ tables2d, table.colIndex = name → key ∈ table.columns

variable {tables : List (Table Value)} {tables2d : List (Table2D Value)} {name : String}

theorem keySets_eq_nil_iff : keySets tables tables2d name = [] ↔ ¬ Used tables tables2d name := by
  simp only [keySets, List.append_eq_nil_iff, List.map_eq_nil_iff, List.filter_eq_nil_iff,
    decide_eq_true_eq, Used, not_or, not_exists, not_and]
  constructor
  · rintro ⟨⟨rows, rows2d⟩, columns2d⟩
    exact ⟨rows, fun table member => ⟨rows2d table member, columns2d table member⟩⟩
  · rintro ⟨rows, both⟩
    exact ⟨⟨rows, fun table member => (both table member).1⟩, fun table member => (both table member).2⟩

theorem sharedKey_iff {key : String} :
    SharedKey tables tables2d name key ↔
      ∀ set ∈ keySets tables tables2d name, key ∈ NameMap.keys set := by
  simp only [keySets, List.mem_append, List.mem_map, List.mem_filter, decide_eq_true_eq]
  constructor
  · rintro shared set ((⟨table, ⟨member, indexed⟩, rfl⟩ | ⟨table, ⟨member, indexed⟩, rfl⟩) |
      ⟨table, ⟨member, indexed⟩, rfl⟩)
    · exact NameSet.mem_keys_ofNames.2 (shared.row table member indexed)
    · exact NameSet.mem_keys_ofNames.2 (shared.row2d table member indexed)
    · exact NameSet.mem_keys_ofNames.2 (shared.column2d table member indexed)
  · intro inAll
    refine ⟨fun table member indexed => ?_, fun table member indexed => ?_,
      fun table member indexed => ?_⟩
    · exact NameSet.mem_keys_ofNames.1 (inAll _ (.inl (.inl ⟨table, ⟨member, indexed⟩, rfl⟩)))
    · exact NameSet.mem_keys_ofNames.1 (inAll _ (.inl (.inr ⟨table, ⟨member, indexed⟩, rfl⟩)))
    · exact NameSet.mem_keys_ofNames.1 (inAll _ (.inr ⟨table, ⟨member, indexed⟩, rfl⟩))

theorem sharedKey_of_not_used {key : String} (unused : ¬ Used tables tables2d name) :
    SharedKey tables tables2d name key := by
  rw [sharedKey_iff, keySets_eq_nil_iff.2 unused]
  intro set member
  cases member

theorem mem_keys_foldl_inter {first : NameSet} {rest : List NameSet} {key : String} :
    key ∈ NameMap.keys (rest.foldl NameSet.inter first) ↔
      key ∈ NameMap.keys first ∧ ∀ set ∈ rest, key ∈ NameMap.keys set := by
  induction rest generalizing first with
  | nil => simp
  | cons set rest ih => simp [ih, NameSet.mem_keys_inter, and_assoc]

/-- The sets have common names as soon as there is a set. -/
theorem common?_eq_none_iff {sets : List NameSet} : common? sets = none ↔ sets = [] := by
  cases sets <;> simp [common?]

theorem mem_keys_common? {sets : List NameSet} {common : NameSet} (found : common? sets = some common)
    {key : String} : key ∈ NameMap.keys common ↔ ∀ set ∈ sets, key ∈ NameMap.keys set := by
  cases sets with
  | nil => cases found
  | cons first rest =>
      cases found
      simp [mem_keys_foldl_inter]

/-! ### More tables -/

theorem used_append {more : List (Table Value)} {more2d : List (Table2D Value)} :
    Used (tables ++ more) (tables2d ++ more2d) name ↔
      Used tables tables2d name ∨ Used more more2d name := by
  simp only [Used, List.mem_append, or_and_right, exists_or]
  exact or_or_or_comm

theorem sharedKey_append {more : List (Table Value)} {more2d : List (Table2D Value)} {key : String} :
    SharedKey (tables ++ more) (tables2d ++ more2d) name key ↔
      SharedKey tables tables2d name key ∧ SharedKey more more2d name key := by
  constructor
  · rintro ⟨row, row2d, column2d⟩
    simp only [List.mem_append, or_imp, forall_and] at row row2d column2d
    exact ⟨⟨row.1, row2d.1, column2d.1⟩, ⟨row.2, row2d.2, column2d.2⟩⟩
  · rintro ⟨⟨row, row2d, column2d⟩, ⟨row', row2d', column2d'⟩⟩
    refine ⟨?_, ?_, ?_⟩ <;> simp only [List.mem_append, or_imp, forall_and]
    · exact ⟨row, row'⟩
    · exact ⟨row2d, row2d'⟩
    · exact ⟨column2d, column2d'⟩

/-! ## Choices of one index -/

theorem ofIndex?_eq_none_iff : ofIndex? tables tables2d name = none ↔ ¬ Used tables tables2d name := by
  rw [ofIndex?, Option.map_eq_none_iff, common?_eq_none_iff, keySets_eq_nil_iff]

/-- An index in use has the shared keys for its choices, each once, as they are
presented; and no other list is so. -/
theorem ofIndex?_eq_some_iff {choices : List String} :
    ofIndex? tables tables2d name = some choices ↔
      Used tables tables2d name ∧ choices.Nodup ∧ ChoiceOrder.sort choices = choices ∧
        ∀ key, key ∈ choices ↔ SharedKey tables tables2d name key := by
  constructor
  · intro found
    have used : Used tables tables2d name := by
      refine Decidable.byContradiction fun unused => ?_
      rw [ofIndex?_eq_none_iff.2 unused] at found
      cases found
    obtain ⟨common, isCommon, rfl⟩ := Option.map_eq_some_iff.1 found
    refine ⟨used, ?_, ChoiceOrder.sort_sort _, fun key => ?_⟩
    · exact (ChoiceOrder.sort_perm _).nodup_iff.2 common.nodup_keys
    · rw [ChoiceOrder.mem_sort, mem_keys_common? isCommon, sharedKey_iff]
  · rintro ⟨used, nodup, sorted, members⟩
    cases isCommon : common? (keySets tables tables2d name) with
    | none => exact absurd used (keySets_eq_nil_iff.1 (common?_eq_none_iff.1 isCommon))
    | some common =>
        have perm : common.keys.Perm choices :=
          (List.perm_ext_iff_of_nodup common.nodup_keys nodup).2 fun key => by
            rw [mem_keys_common? isCommon, members, sharedKey_iff]
        rw [ofIndex?, isCommon, Option.map_some, ChoiceOrder.sort_eq_of_perm perm, sorted]

/-! ## Choices of every free index -/

theorem lastEntry_filterMap {α : Type} {f : String → Option α} {names : List String} :
    NameMap.lastEntry name (names.filterMap fun n => (f n).map fun x => (n, x)) =
      if name ∈ names then f name else none := by
  induction names with
  | nil => rfl
  | cons n names ih =>
      rw [List.filterMap_cons]
      cases read : f n with
      | none =>
          by_cases same : name = n
          · subst same
            simp [ih, read]
          · simp [ih, same]
      | some x =>
          by_cases same : name = n
          · subst same
            simp [NameMap.lastEntry, ih, read]
            split <;> simp
          · simp [NameMap.lastEntry, ih, same, Ne.symm same]

theorem get?_compute {free : List String} {types : TypeMap} :
    (compute free types tables tables2d).get? name =
      if name ∈ free ∧ types.get? name = some .tableIndex then ofIndex? tables tables2d name
      else none := by
  have listed : (free.filterMap fun n =>
      if types.get? n = some .tableIndex then (ofIndex? tables tables2d n).map fun choices => (n, choices)
      else none) = free.filterMap fun n =>
        (if types.get? n = some .tableIndex then ofIndex? tables tables2d n else none).map
          fun choices => (n, choices) := by
    congr 1
    funext n
    split <;> rfl
  rw [compute, NameMap.get?_ofList, listed, lastEntry_filterMap]
  by_cases isFree : name ∈ free <;> simp [isFree]

end Choices

end PartCatalog
