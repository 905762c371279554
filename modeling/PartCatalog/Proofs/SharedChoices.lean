/-
# Shared choices -- when the choices of a union are those of its tables

A union does not look at its tables: it narrows the choices that its two sides came
with.  The result is what the tables give exactly when both sides say all there is to
say about an index (`ChoicesAgree`, `choices_joined_eq_computed_iff`).  Where the sides
come with the choices their own tables give, they do so for an index that is free on
both.  For one that is free on one side only, the tables of the other side have not been
asked, and it takes that they have every choice (`choicesAgree_iff_of_computed`).
The last section has a union with a choice that one of its tables lacks.
-/
import PartCatalog.Proofs.WellFormed

set_option autoImplicit false

namespace PartCatalog.ParameterSet

/-- Whether a name is a free index of a set. -/
def FreeIndex (params : ParameterSet) (name : String) : Prop :=
  name ∈ params.free ∧ params.types.get? name = some .tableIndex

instance (params : ParameterSet) (name : String) : Decidable (params.FreeIndex name) :=
  inferInstanceAs (Decidable (_ ∧ _))

/-- What the choices of a set would be, were they computed from its tables. -/
def computedChoices (params : ParameterSet) : NameMap (List String) :=
  Choices.compute params.free params.types params.tables params.tables2d

theorem get?_computedChoices (params : ParameterSet) (name : String) :
    params.computedChoices.get? name =
      if params.FreeIndex name then Choices.ofIndex? params.tables params.tables2d name else none :=
  Choices.get?_compute

/-! ## One set -/

/-- Whether every free index that a table uses has choices, each of them a key that all
tables using the index have. -/
def OffersShared (params : ParameterSet) : Prop :=
  ∀ name, params.FreeIndex name → params.Uses name →
    ∃ choices, params.choices.get? name = some choices ∧ ∀ c ∈ choices, params.Shares name c

/-- The choices of a well-formed set take in all shared keys, so they are the computed
ones as soon as they take in nothing else. -/
theorem choices_eq_computed_iff {params : ParameterSet} (well : params.WellFormed) :
    params.choices = params.computedChoices ↔ params.OffersShared := by
  constructor
  · intro computed name isIndex used
    have found : params.choices.get? name = Choices.ofIndex? params.tables params.tables2d name := by
      rw [computed, get?_computedChoices, if_pos isIndex]
    cases isChoices : Choices.ofIndex? params.tables params.tables2d name with
    | none => exact absurd used (Choices.ofIndex?_eq_none_iff.1 isChoices)
    | some choices =>
        obtain ⟨-, -, -, members⟩ := Choices.ofIndex?_eq_some_iff.1 isChoices
        exact ⟨choices, found.trans isChoices, fun c inChoices => (members c).1 inChoices⟩
  · intro offers
    refine NameMap.ext_get? fun name => ?_
    rw [get?_computedChoices]
    cases found : params.choices.get? name with
    | some choices =>
        have choicesOf := well.choices name choices found
        have isIndex : params.FreeIndex name := ⟨choicesOf.free, choicesOf.index⟩
        obtain ⟨choices', found', shared⟩ := offers name isIndex choicesOf.used
        obtain rfl : choices = choices' := Option.some.inj (found.symm.trans found')
        rw [if_pos isIndex]
        exact (Choices.ofIndex?_eq_some_iff.2 ⟨choicesOf.used, choicesOf.nodup, choicesOf.sorted,
          fun key => ⟨shared key, choicesOf.complete key⟩⟩).symm
    | none =>
        split
        · next isIndex =>
          refine (Choices.ofIndex?_eq_none_iff.2 fun used => ?_).symm
          obtain ⟨choices, found', -⟩ := offers name isIndex used
          rw [found] at found'
          cases found'
        · rfl

/-! ## Two sets -/

/-- Whether a choice survives the choices that each of two sets has for an index. -/
def Survives (left right : ParameterSet) (name c : String) : Prop :=
  (∀ ours, left.choices.get? name = some ours → c ∈ ours) ∧
    ∀ theirs, right.choices.get? name = some theirs → c ∈ theirs

/-- Whether two sets say all there is to say about their indices: one that is free in
either and used by a table of either has choices in either, and what survives of them is
a key of all those tables. -/
def ChoicesAgree (left right : ParameterSet) : Prop :=
  ∀ name, left.FreeIndex name ∨ right.FreeIndex name → left.Uses name ∨ right.Uses name →
    (name ∈ left.choices.keys ∨ name ∈ right.choices.keys) ∧
      ∀ c, left.Survives right name c → left.Shares name c ∧ right.Shares name c

variable {left right : ParameterSet}

theorem freeIndex_joined_iff (agrees : left.Agrees right) (wellLeft : left.WellFormed)
    (wellRight : right.WellFormed) {name : String} :
    (left.joined right).FreeIndex name ↔ left.FreeIndex name ∨ right.FreeIndex name := by
  constructor
  · rintro ⟨isFree, isIndex⟩
    rcases List.mem_append.1 isFree with isFree | isFree
    · have kept := (keeps_left agrees).get?_eq (wellLeft.known (.inr (.inl isFree)))
      exact .inl ⟨isFree, kept ▸ isIndex⟩
    · have kept := (keeps_right left right).get?_eq (wellRight.known (.inr (.inl isFree)))
      exact .inr ⟨isFree, kept ▸ isIndex⟩
  · rintro (⟨isFree, isIndex⟩ | ⟨isFree, isIndex⟩)
    · exact ⟨List.mem_append_left _ isFree, keeps_left agrees _ _ isIndex⟩
    · exact ⟨List.mem_append_right _ isFree, keeps_right left right _ _ isIndex⟩

theorem mem_keys_choices_joined {name : String} :
    name ∈ (left.joined right).choices.keys ↔ name ∈ left.choices.keys ∨ name ∈ right.choices.keys := by
  simp only [joined, ← NameMap.contains_iff, NameMap.contains, get?_mergeChoices, Option.isSome_or,
    Option.isSome_map, Bool.or_eq_true]
  exact or_comm

theorem mem_choices_joined_iff {name c : String} {choices : List String}
    (found : (left.joined right).choices.get? name = some choices) :
    c ∈ choices ↔ left.Survives right name c := by
  simp only [joined, get?_mergeChoices] at found
  cases inRight : right.choices.get? name with
  | some theirs =>
      rw [inRight, Option.map_some, Option.some_or, Option.some.injEq] at found
      rw [← found, mem_narrowed, Survives, inRight, and_comm]
      simp
  | none =>
      rw [inRight, Option.map_none, Option.none_or] at found
      rw [Survives, found, inRight]
      simp

theorem offersShared_joined_iff (agrees : left.Agrees right) (wellLeft : left.WellFormed)
    (wellRight : right.WellFormed) : (left.joined right).OffersShared ↔ left.ChoicesAgree right := by
  have uses : ∀ name, (left.joined right).Uses name ↔ left.Uses name ∨ right.Uses name := fun _ =>
    Choices.used_append
  have shares : ∀ name c, (left.joined right).Shares name c ↔ left.Shares name c ∧ right.Shares name c :=
    fun _ _ => Choices.sharedKey_append
  unfold OffersShared ChoicesAgree
  refine forall_congr' fun name => ?_
  rw [freeIndex_joined_iff agrees wellLeft wellRight, uses]
  refine imp_congr_right fun _ => imp_congr_right fun _ => ?_
  constructor
  · rintro ⟨choices, found, shared⟩
    refine ⟨mem_keys_choices_joined.1 (NameMap.mem_keys_of_get? found), fun c survives => ?_⟩
    exact (shares name c).1 (shared c ((mem_choices_joined_iff found).2 survives))
  · rintro ⟨has, shared⟩
    obtain ⟨choices, found⟩ := NameMap.mem_keys_iff.1 (mem_keys_choices_joined.2 has)
    refine ⟨choices, found, fun c inChoices => ?_⟩
    exact (shares name c).2 (shared c ((mem_choices_joined_iff found).1 inChoices))

/-- The choices of a union are those of its tables exactly when its sides agree. -/
theorem choices_joined_eq_computed_iff (agrees : left.Agrees right) (wellLeft : left.WellFormed)
    (wellRight : right.WellFormed) :
    (left.joined right).choices = (left.joined right).computedChoices ↔ left.ChoicesAgree right := by
  rw [choices_eq_computed_iff (wellFormed_joined agrees wellLeft wellRight),
    offersShared_joined_iff agrees wellLeft wellRight]

/-! ## Two sets with the choices of their tables -/

/-- Whether the tables of a second set bear out what a first one offers for the indices
that are free in the first only. -/
def BorneOutBy (left right : ParameterSet) : Prop :=
  ∀ name, left.FreeIndex name → ¬ right.FreeIndex name → right.Uses name →
    left.Uses name ∧ ∀ c, left.Shares name c → right.Shares name c

theorem mem_keys_choices_iff {params : ParameterSet} (computed : params.choices = params.computedChoices)
    {name : String} : name ∈ params.choices.keys ↔ params.FreeIndex name ∧ params.Uses name := by
  rw [computed, NameMap.mem_keys_iff, get?_computedChoices]
  split
  · next isIndex =>
    simp only [isIndex, true_and, ← Option.isSome_iff_exists, ← Option.ne_none_iff_isSome,
      ne_eq, Choices.ofIndex?_eq_none_iff, Decidable.not_not]
  · next other => simp [other]

theorem forall_mem_choices_iff {params : ParameterSet}
    (computed : params.choices = params.computedChoices) {name c : String} :
    (∀ choices, params.choices.get? name = some choices → c ∈ choices) ↔
      (params.FreeIndex name → params.Shares name c) := by
  rw [computed, get?_computedChoices]
  split
  · next isIndex =>
    rw [forall_prop_of_true isIndex]
    cases found : Choices.ofIndex? params.tables params.tables2d name with
    | none =>
        have unused := Choices.ofIndex?_eq_none_iff.1 found
        simp [Choices.sharedKey_of_not_used unused]
    | some choices =>
        obtain ⟨-, -, -, members⟩ := Choices.ofIndex?_eq_some_iff.1 found
        simp [members]
  · next other => simp [other]

/-- An index that is free on both sides takes care of itself. -/
theorem choicesAgree_iff_of_computed (computedLeft : left.choices = left.computedChoices)
    (computedRight : right.choices = right.computedChoices) :
    left.ChoicesAgree right ↔ left.BorneOutBy right ∧ right.BorneOutBy left := by
  have unusedLeft : ∀ name c, ¬ left.Uses name → left.Shares name c := fun _ _ =>
    Choices.sharedKey_of_not_used
  have unusedRight : ∀ name c, ¬ right.Uses name → right.Shares name c := fun _ _ =>
    Choices.sharedKey_of_not_used
  unfold ChoicesAgree BorneOutBy
  rw [← forall_and]
  refine forall_congr' fun name => ?_
  simp only [Survives, mem_keys_choices_iff computedLeft, mem_keys_choices_iff computedRight,
    forall_mem_choices_iff computedLeft, forall_mem_choices_iff computedRight]
  by_cases inLeft : left.FreeIndex name <;> by_cases inRight : right.FreeIndex name <;> grind

namespace Example

/-- Both sides have the size for a free index, and neither uses another index of the
other. -/
theorem choicesAgree_screw_base : screw.ChoicesAgree base := by
  rw [choicesAgree_iff_of_computed (choices_of_read read_screw) (choices_of_read read_base)]
  have ownLeft : ∀ name ∈ screw.free, ¬ base.FreeIndex name → ¬ base.Uses name := by decide +kernel
  have ownRight : ∀ name ∈ base.free, ¬ screw.FreeIndex name → ¬ screw.Uses name := by decide +kernel
  constructor
  · intro name isIndex unshared used
    exact absurd used (ownLeft name isIndex.1 unshared)
  · intro name isIndex unshared used
    exact absurd used (ownRight name isIndex.1 unshared)

end Example

/-! ## The choices of a union -/

/-- **The choices of a union.**  They are those its tables give exactly when the two
sides say all there is to say about their indices, and then every choice can be resolved:
each table of the union that the index selects rows of has a row for it, and each one it
selects columns of has a column. -/
theorem choices_of_union_iff {united : ParameterSet} (reachLeft : Reachable left)
    (reachRight : Reachable right) (joined : left.union right = .ok united) :
    (united.choices = Choices.compute united.free united.types united.tables united.tables2d ↔
      left.ChoicesAgree right) ∧
    (left.ChoicesAgree right → ∀ name choices c, united.choices.get? name = some choices →
      c ∈ choices →
        (∀ table ∈ united.tables, table.index = name → c ∈ table.keys) ∧
        (∀ table ∈ united.tables2d, table.rowIndex = name → c ∈ table.rowKeys) ∧
        ∀ table ∈ united.tables2d, table.colIndex = name → c ∈ table.columns) := by
  obtain ⟨agrees, rfl⟩ := union_eq_ok.1 joined
  have wellLeft := reachLeft.wellFormed
  have wellRight := reachRight.wellFormed
  refine ⟨choices_joined_eq_computed_iff agrees wellLeft wellRight, ?_⟩
  intro agree name choices c found inChoices
  have choicesOf := (wellFormed_joined agrees wellLeft wellRight).choices name choices found
  have offers := (offersShared_joined_iff agrees wellLeft wellRight).2 agree
  obtain ⟨choices', found', shared⟩ := offers name ⟨choicesOf.free, choicesOf.index⟩ choicesOf.used
  obtain rfl : choices = choices' := Option.some.inj (found.symm.trans found')
  have shares := shared c inChoices
  exact ⟨shares.row, shares.row2d, shares.column2d⟩

/-- The screw with its base offers a size that each of its tables has a row for. -/
theorem choices_of_union_screw_base :
    Example.screw.union Example.base = .ok Example.united ∧
      Example.united.choices = Choices.compute Example.united.free Example.united.types
        Example.united.tables Example.united.tables2d ∧
      ∃ choices, Example.united.choices.get? "size" = some choices ∧ "M4" ∈ choices ∧
        ∀ table ∈ Example.united.tables2d, table.rowIndex = "size" → "M4" ∈ table.rowKeys := by
  have whole := choices_of_union_iff (.read Example.read_screw) (.read Example.read_base)
    Example.union_screw_base
  have agree := Example.choicesAgree_screw_base
  have computed := whole.1.2 agree
  refine ⟨Example.union_screw_base, computed, ?_⟩
  obtain ⟨choices, found⟩ := NameMap.mem_keys_iff.1
    ((mem_keys_choices_iff computed).2 (by decide +kernel : _ ∧ Example.united.Uses "size"))
  have complete := (Example.reachable_united.wellFormed.choices _ _ found).complete
  have offered : "M4" ∈ choices :=
    complete "M4" ⟨by decide +kernel, by decide +kernel, by decide +kernel⟩
  exact ⟨choices, found, offered, (whole.2 agree "size" choices "M4" found offered).2.1⟩

-- The base has a head for `M5`, but no price, so the union cannot offer that size.
example : (∃ table ∈ Example.united.tables, table.index = "size" ∧ "M5" ∈ table.keys) ∧
    ∃ table ∈ Example.united.tables2d, table.rowIndex = "size" ∧ "M5" ∉ table.rowKeys := by decide +kernel

/-! ## A choice that a table lacks -/

namespace Example

/-- The stock of a base: it has the size for the index of a table, but not free, and only
one row. -/
def stockNode : Node := mapping [
  ("types", mapping [("size", .str "Table Index")]),
  ("tables", mapping [("index", .str "size"), ("columns", texts ["stock"]),
    ("data", mapping [("M3", texts ["40"])])])]

def stock : ParameterSet := result (ofNode stockNode)

def stocked : ParameterSet := result (screw.union stock)

theorem read_stock : ofNode stockNode = .ok stock := eq_ok_result (by decide +kernel)

theorem union_screw_stock : screw.union stock = .ok stocked := eq_ok_result (by decide +kernel)

/-- The screw's own table has this size. -/
theorem shares_screw : screw.Shares "size" "M4" :=
  ⟨by decide +kernel, by decide +kernel, by decide +kernel⟩

/-- The stock has no choices of its own to narrow those of the screw. -/
theorem mem_choices_stocked : ∃ choices, stocked.choices.get? "size" = some choices ∧ "M4" ∈ choices := by
  obtain ⟨choices, found⟩ := NameMap.mem_keys_iff.1
    ((mem_keys_choices_iff (choices_of_read read_screw)).2 (by decide +kernel : _ ∧ screw.Uses "size"))
  have complete := (wellFormed_of_ofNode read_screw).choices _ _ found
  have none_stock : stock.choices.get? "size" = none := by
    rw [choices_of_read read_stock, Choices.get?_compute, if_neg (by decide +kernel)]
  refine ⟨choices, ?_, complete.complete _ shares_screw⟩
  rw [(union_eq_ok.1 union_screw_stock).2]
  simp only [joined, get?_mergeChoices, none_stock, found, Option.map_none, Option.none_or]

end Example

/-- A union offers a choice that one of its tables has no row for: the table's set has
the index, but not free. -/
theorem choices_of_union_refuted :
    Reachable Example.screw ∧ Reachable Example.stock ∧
      Example.screw.union Example.stock = .ok Example.stocked ∧
      (∃ choices, Example.stocked.choices.get? "size" = some choices ∧ "M4" ∈ choices) ∧
      (∃ table ∈ Example.stocked.tables, table.index = "size" ∧ "M4" ∉ table.keys) ∧
      Example.stocked.choices ≠ Choices.compute Example.stocked.free Example.stocked.types
        Example.stocked.tables Example.stocked.tables2d := by
  refine ⟨.read Example.read_screw, .read Example.read_stock, Example.union_screw_stock,
    Example.mem_choices_stocked, by decide +kernel, fun computed => ?_⟩
  obtain ⟨choices, found, offered⟩ := Example.mem_choices_stocked
  have reach : Reachable Example.stocked :=
    .union (.read Example.read_screw) (.read Example.read_stock) Example.union_screw_stock
  obtain ⟨choices', found', shared⟩ := (choices_eq_computed_iff reach.wellFormed).1 computed "size"
    (by decide +kernel) (by decide +kernel)
  obtain rfl : choices = choices' := Option.some.inj (found.symm.trans found')
  have row := (shared "M4" offered).row
  exact absurd row (by decide +kernel)

end PartCatalog.ParameterSet
