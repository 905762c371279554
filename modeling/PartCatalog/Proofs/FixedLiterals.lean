/-
# Fixed literals -- when a literal keeps its value

The values of a set grow from its literals, and the caller's values are laid over them before
any table is looked at.  So a literal that no table lays anything over has its own value in
the end exactly if the caller gives it no other, and the caller may give it one as soon as it
is free as well.  No table notices a value that it does not look a row or a column up by
(`exists_resolve_insert`); hence a literal that is no index is fixed in all runs exactly if it
is not free, or if no run succeeds (`literal_fixed_iff`).  A union has the free parameters of
both sides: what one side fixes as a literal, the other can make free (`literal_fixed_refuted`).
-/
import PartCatalog.Proofs.UnionResolve

set_option autoImplicit false

namespace PartCatalog.ParameterSet

open Layer

/-- Whether a table of a set lays something over a name. -/
def Tabulates (params : ParameterSet) (name : String) : Prop :=
  (∃ table ∈ params.tables, name ∈ table.columns) ∨ ∃ table ∈ params.tables2d, table.result = name

instance (params : ParameterSet) (name : String) : Decidable (params.Tabulates name) :=
  inferInstanceAs (Decidable (_ ∨ _))

/-- Whether values are for free parameters of a set only. -/
def AreFree (params : ParameterSet) (free : NameMap Value) : Prop :=
  ∀ name ∈ free.keys, name ∈ params.free

/-- Whether a name has a value whatever the free parameters are. -/
def Fixes (params : ParameterSet) (name : String) (v : Value) : Prop :=
  ∀ free values, params.AreFree free → params.resolve free = .ok values → values.get? name = some v

variable {params : ParameterSet} {free values : NameMap Value} {name : String} {v w : Value}

/-! ## One run -/

theorem get?_run_of_not_tabulates (untouched : ¬ params.Tabulates name)
    (ran : run params.layers (params.start free) = .ok values) :
    values.get? name = (free.get? name).or (params.literal.get? name) := by
  rw [get?_run_of_spared _ _ ran, start, NameMap.get?_overlay]
  · intro table member inColumns
    exact untouched (.inl ⟨table, member, inColumns⟩)
  · intro table member same
    exact untouched (.inr ⟨table, member, same⟩)

/-- In one run a literal keeps its value exactly if the caller gives it no other. -/
theorem get?_resolve_eq_literal_iff (isLiteral : params.literal.get? name = some v)
    (untouched : ¬ params.Tabulates name) (resolved : params.resolve free = .ok values) :
    values.get? name = some v ↔ ∀ w, free.get? name = some w → w = v := by
  rw [get?_run_of_not_tabulates untouched (resolve_eq_ok.1 resolved).1, isLiteral]
  cases free.get? name with
  | none => simp
  | some w => simp

/-! ## All runs -/

/-- A run that succeeds does so too when a name that no table looks at or lays anything over
gets another value. -/
theorem exists_resolve_insert (well : params.WellFormed) (untouched : ¬ params.Tabulates name)
    (unread : ¬ params.Uses name) (resolved : params.resolve free = .ok values) (w : Value) :
    ∃ others, params.resolve (free.insert name w) = .ok others ∧ others.get? name = some w := by
  obtain ⟨ran, complete⟩ := resolve_eq_ok.1 resolved
  let ours := (NameMap.keys params.parameters).filter (· ≠ name)
  have mem_ours : ∀ {other}, other ∈ ours ↔ other ∈ NameMap.keys params.parameters ∧ other ≠ name := by
    simp [ours]
  have agree : (params.start (free.insert name w)).AgreeOn ours (params.start free) := by
    intro other member
    simp only [start, NameMap.get?_overlay, NameMap.get?_insert, if_neg (mem_ours.1 member).2.symm]
  have isLocal : ∀ layer ∈ params.layers, layer.Local ours [] := by
    refine local_of_mem_layers (fun other isIndex => mem_ours.2 ⟨known_of_mem_indices well other isIndex, ?_⟩)
      (by simp) (by simp)
    rintro rfl
    exact unread (mem_indices_iff.1 isIndex)
  -- The layers of the set on one side, and none on the other.
  have turns : Interleaved params.layers [] params.layers := by
    simpa using interleaved_append params.layers []
  obtain ⟨alike, found⟩ := run_interleaved turns isLocal (by simp) agree
    (fun _ none => absurd none List.not_mem_nil : (params.start (free.insert name w)).AgreeOn [] NameMap.empty)
  obtain ⟨others, ran'⟩ := alike.2 ⟨⟨values, ran⟩, NameMap.empty, run_nil_eq_ok.2 rfl⟩
  have same : others.AgreeOn ours values := (found others values _ ran' ran (run_nil_eq_ok.2 rfl)).1
  have given : others.get? name = some w := by
    rw [get?_run_of_not_tabulates untouched ran', NameMap.get?_insert, if_pos rfl, Option.some_or]
  refine ⟨others, resolve_eq_ok.2 ⟨ran', fun other known => ?_⟩, given⟩
  by_cases isName : other = name
  · rw [isName]
    exact NameMap.mem_keys_of_get? given
  · exact (same.mem_keys_iff (mem_ours.2 ⟨known, isName⟩)).2 (complete other known)

theorem areFree_insert (areFree : params.AreFree free) (isFree : name ∈ params.free) (w : Value) :
    params.AreFree (free.insert name w) := by
  intro other member
  rcases NameMap.mem_keys_insert.1 member with rfl | member
  · exact isFree
  · exact areFree other member

/-- No value is the only one. -/
theorem exists_value_ne (v : Value) : ∃ w, w ≠ v := by
  cases v with
  | absent => exact ⟨.bool true, by simp⟩
  | bool b => exact ⟨.absent, by simp⟩
  | number x => exact ⟨.absent, by simp⟩
  | text s => exact ⟨.absent, by simp⟩

/-- What the caller cannot name is fixed. -/
theorem fixes_of_not_free (isLiteral : params.literal.get? name = some v)
    (untouched : ¬ params.Tabulates name) (notFree : name ∉ params.free) : params.Fixes name v := by
  intro free values areFree resolved
  refine (get?_resolve_eq_literal_iff isLiteral untouched resolved).2 fun w given => ?_
  exact absurd (areFree name (NameMap.mem_keys_of_get? given)) notFree

/-- **When a literal is fixed.**  Where no table lays anything over it, it keeps its value in
one run exactly if the caller gives it no other, and so in all runs if it is not free.  If no
table looks it up either, it is fixed for no other reason, unless the set cannot be resolved
at all. -/
theorem literal_fixed_iff (reach : Reachable params) (isLiteral : params.literal.get? name = some v)
    (untouched : ¬ params.Tabulates name) :
    (∀ free values, params.AreFree free → params.resolve free = .ok values →
      (values.get? name = some v ↔ ∀ w, free.get? name = some w → w = v)) ∧
    (name ∉ params.free → params.Fixes name v) ∧
    (¬ params.Uses name → (params.Fixes name v ↔
      name ∉ params.free ∨ ¬ ∃ free values, params.AreFree free ∧ params.resolve free = .ok values)) := by
  refine ⟨fun free values _ resolved => get?_resolve_eq_literal_iff isLiteral untouched resolved,
    fixes_of_not_free isLiteral untouched, fun unread => ⟨fun fixed => ?_, ?_⟩⟩
  · by_contra refuted
    simp only [not_or, not_not] at refuted
    obtain ⟨isFree, free, values, areFree, resolved⟩ := refuted
    obtain ⟨w, different⟩ := exists_value_ne v
    obtain ⟨others, resolved', found⟩ := exists_resolve_insert reach.wellFormed untouched unread resolved w
    have kept := fixed _ others (areFree_insert areFree isFree w) resolved'
    exact different (Option.some.inj (found.symm.trans kept))
  · rintro (notFree | unresolved)
    · exact fixes_of_not_free isLiteral untouched notFree
    · intro free values areFree resolved
      exact absurd ⟨free, values, areFree, resolved⟩ unresolved

/-! ## A literal that a base makes free -/

namespace Example

/-- The parameters of a pin: its diameter is fixed. -/
def pinNode : Node := mapping [("literal", mapping [("d", .int 5)]), ("free", texts ["l"])]

/-- The parameters of its base, which can draw any diameter. -/
def drawnNode : Node := mapping [("free", texts ["d", "l"])]

def pin : ParameterSet := result (ofNode pinNode)

def drawn : ParameterSet := result (ofNode drawnNode)

def drawnPin : ParameterSet := result (pin.union drawn)

theorem read_pin : ofNode pinNode = .ok pin := eq_ok_result (by decide)

theorem read_drawn : ofNode drawnNode = .ok drawn := eq_ok_result (by decide)

theorem union_pin_drawn : pin.union drawn = .ok drawnPin := eq_ok_result (by decide +kernel)

theorem reachable_drawnPin : Reachable drawnPin := .union (.read read_pin) (.read read_drawn) union_pin_drawn

theorem areFree_defaults : drawnPin.AreFree drawnPin.defaults := by
  unfold AreFree
  decide +kernel

/-- The default of the base stands in for a diameter that the caller leaves out. -/
theorem drawn_by_default : ∃ values, drawnPin.resolve drawnPin.defaults = .ok values ∧
    values.get? "d" = some (.number (Binary64.ofInt 10)) := by
  obtain ⟨values, resolved⟩ : ∃ values, drawnPin.resolve drawnPin.defaults = .ok values :=
    Outcome.exists_eq_ok_of_isOk (by decide +kernel)
  have untouched : ¬ drawnPin.Tabulates "d" := by decide +kernel
  have byDefault : drawnPin.defaults.get? "d" = some (.number (Binary64.ofInt 10)) := by decide +kernel
  refine ⟨values, resolved, ?_⟩
  rw [get?_run_of_not_tabulates untouched (resolve_eq_ok.1 resolved).1, byDefault, Option.some_or]

end Example

/-- The pin fixes its own diameter; together with its base it does not, as the diameter is free
there. -/
theorem literal_fixed_pin :
    Example.pin.Fixes "d" (.number (Binary64.ofInt 5)) ∧
      ¬ Example.drawnPin.Fixes "d" (.number (Binary64.ofInt 5)) := by
  have isFixed : Example.pin.literal.get? "d" = some (.number (Binary64.ofInt 5)) := by decide +kernel
  have staysLiteral : Example.drawnPin.literal.get? "d" = some (.number (Binary64.ofInt 5)) := by
    decide +kernel
  refine ⟨(literal_fixed_iff (.read Example.read_pin) isFixed (by decide +kernel)).2.1 (by decide +kernel), ?_⟩
  rw [(literal_fixed_iff Example.reachable_drawnPin staysLiteral (by decide +kernel)).2.2 (by decide +kernel)]
  rintro (notFree | unresolved)
  · exact absurd notFree (by decide +kernel)
  · obtain ⟨values, resolved, -⟩ := Example.drawn_by_default
    exact unresolved ⟨_, values, Example.areFree_defaults, resolved⟩

/-- Nobody gives the pin a diameter, and its base draws it twice as thick as it is. -/
theorem literal_fixed_refuted :
    Reachable Example.pin ∧ Reachable Example.drawn ∧
      Example.pin.union Example.drawn = .ok Example.drawnPin ∧
      Example.pin.literal.get? "d" = some (.number (Binary64.ofInt 5)) ∧
      "d" ∉ Example.drawn.literal.keys ∧ ¬ Example.drawnPin.Tabulates "d" ∧
      Example.drawnPin.AreFree Example.drawnPin.defaults ∧
      ∃ values, Example.drawnPin.resolve Example.drawnPin.defaults = .ok values ∧
        values.get? "d" = some (.number (Binary64.ofInt 10)) ∧
        values.get? "d" ≠ some (.number (Binary64.ofInt 5)) := by
  refine ⟨.read Example.read_pin, .read Example.read_drawn, Example.union_pin_drawn, by decide +kernel,
    by decide +kernel, by decide +kernel, Example.areFree_defaults, ?_⟩
  obtain ⟨values, resolved, drawnAt⟩ := Example.drawn_by_default
  refine ⟨values, resolved, drawnAt, ?_⟩
  rw [drawnAt]
  decide +kernel

end PartCatalog.ParameterSet
