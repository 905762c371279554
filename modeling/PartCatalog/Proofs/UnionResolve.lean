/-
# Resolving a union -- two sets that keep out of each other's way

A union lays the rows of both its sides before the cells of both, so the layers of its
sides take turns.  Where neither side sets a parameter of the other, their runs do not
notice each other, whatever free parameters and indices they share: the union can be
resolved exactly when both sides can, and each finds its own values in the result.
-/
import PartCatalog.Proofs.Layers
import PartCatalog.Proofs.WellFormed

set_option autoImplicit false

namespace PartCatalog.ParameterSet

open Layer

/-! ## What a set reads and sets -/

/-- Whether a set gives a name its value itself. -/
def Sets (params : ParameterSet) (name : String) : Prop :=
  name ∈ params.literal.keys ∨ (∃ table ∈ params.tables, name ∈ table.columns) ∨
    ∃ table ∈ params.tables2d, name = table.result

variable {params : ParameterSet}

theorem forall_sets {p : String → Prop} :
    (∀ name, params.Sets name → p name) ↔
      (∀ name ∈ params.literal.keys, p name) ∧ (∀ table ∈ params.tables, ∀ name ∈ table.columns, p name) ∧
        ∀ table ∈ params.tables2d, p table.result := by
  constructor
  · intro all
    exact ⟨fun name isLiteral => all name (.inl isLiteral),
      fun table member name inColumns => all name (.inr (.inl ⟨table, member, inColumns⟩)),
      fun table member => all table.result (.inr (.inr ⟨table, member, rfl⟩))⟩
  · rintro ⟨literals, columns, results⟩ name (isLiteral | ⟨table, member, inColumns⟩ | ⟨table, member, rfl⟩)
    · exact literals name isLiteral
    · exact columns table member name inColumns
    · exact results table member

/-- What a set brings up it sets, leaves to the caller, or looks a row or a column up by. -/
theorem mentions_iff {name : String} :
    params.Mentions name ↔ params.Sets name ∨ name ∈ params.free ∨ params.Uses name := by
  simp only [Mentions, Sets, Choices.Used, Table.parameters, Table2D.parameters, List.mem_cons,
    List.not_mem_nil, or_false, and_or_left, exists_or, @eq_comm _ name]
  grind

theorem Sets.known (well : params.WellFormed) {name : String} (isSet : params.Sets name) :
    name ∈ NameMap.keys params.parameters :=
  (well.parameters name).2 (mentions_iff.2 (.inl isSet))

theorem known_of_mem_indices (well : params.WellFormed) :
    ∀ name ∈ params.indices, name ∈ NameMap.keys params.parameters := fun name isIndex =>
  (well.parameters name).2 (mentions_iff.2 (.inr (.inr (mem_indices_iff.1 isIndex))))

/-- The layers of a set look at its parameters, and spare what it does not set. -/
theorem local_of_apart (well : params.WellFormed) {spares : List String}
    (apart : ∀ name, params.Sets name → name ∉ spares) :
    ∀ layer ∈ params.layers, layer.Local (NameMap.keys params.parameters) spares := by
  obtain ⟨-, columns, results⟩ := forall_sets.1 apart
  exact local_of_mem_layers (known_of_mem_indices well) columns results

/-- A name that no table lays anything over keeps its value. -/
theorem get?_run_of_spared {name : String} {v w : NameMap Value}
    (columns : ∀ table ∈ params.tables, name ∉ table.columns)
    (results : ∀ table ∈ params.tables2d, table.result ≠ name) (ran : run params.layers v = .ok w) :
    w.get? name = v.get? name := by
  have isLocal : ∀ layer ∈ params.layers, layer.Local params.indices [name] := by
    apply local_of_mem_layers (fun _ isIndex => isIndex)
    · intro table member column inColumns same
      exact columns table member (List.mem_singleton.1 same ▸ inColumns)
    · intro table member same
      exact results table member (List.mem_singleton.1 same)
  refine get?_run (fun layer member v es laid e inEntries same => ?_) ran
  exact (isLocal layer member).spares v es laid e inEntries (List.mem_singleton.2 same)

/-- A name that is no parameter keeps the value that the caller gives it. -/
theorem get?_resolve_of_unknown (well : params.WellFormed) {free values : NameMap Value} {name : String}
    (unknown : name ∉ NameMap.keys params.parameters) (resolved : params.resolve free = .ok values) :
    values.get? name = free.get? name := by
  have unset : ¬ params.Sets name := fun isSet => unknown (isSet.known well)
  have no_literal : params.literal.get? name = none :=
    NameMap.get?_eq_none_iff.2 fun isLiteral => unset (.inl isLiteral)
  rw [get?_run_of_spared _ _ (resolve_eq_ok.1 resolved).1, start, NameMap.get?_overlay, no_literal,
    Option.or_none]
  · intro table member inColumns
    exact unset (.inr (.inl ⟨table, member, inColumns⟩))
  · intro table member same
    exact unset (.inr (.inr ⟨table, member, same.symm⟩))

/-! ## Both sides of a union -/

variable {left right : ParameterSet}

theorem interleaved_layers_joined : Interleaved left.layers right.layers (left.joined right).layers := by
  have both : (left.joined right).layers =
      (left.tables.map Table.layer ++ right.tables.map Table.layer) ++
        (left.tables2d.map Table2D.layer ++ right.tables2d.map Table2D.layer) := by
    simp only [layers, joined, List.map_append]
  rw [both]
  exact (interleaved_append _ _).append (interleaved_append _ _)

/-- Literals of the other side are no parameters of one. -/
theorem agreeOn_start_left (free : NameMap Value)
    (apart : ∀ name, right.Sets name → name ∉ NameMap.keys left.parameters) :
    ((left.joined right).start free).AgreeOn (NameMap.keys left.parameters) (left.start free) := by
  intro name known
  have no_literal : right.literal.get? name = none :=
    NameMap.get?_eq_none_iff.2 fun isLiteral => apart name (.inl isLiteral) known
  simp only [start, joined, NameMap.get?_overlay, no_literal, Option.none_or]

theorem agreeOn_start_right (free : NameMap Value)
    (apart : ∀ name, left.Sets name → name ∉ NameMap.keys right.parameters) :
    ((left.joined right).start free).AgreeOn (NameMap.keys right.parameters) (right.start free) := by
  intro name known
  have no_literal : left.literal.get? name = none :=
    NameMap.get?_eq_none_iff.2 fun isLiteral => apart name (.inl isLiteral) known
  simp only [start, joined, NameMap.get?_overlay, no_literal, Option.or_none]

/-- **Resolving a union.**  Where neither side sets a parameter of the other, a union can
be resolved exactly when both sides can, it gives the parameters of each side the values
that side gives them, and it leaves all other names as the caller has them. -/
theorem resolve_union {united : ParameterSet} (reachLeft : Reachable left) (reachRight : Reachable right)
    (joined : left.union right = .ok united)
    (apartLeft : ∀ name, left.Sets name → name ∉ NameMap.keys right.parameters)
    (apartRight : ∀ name, right.Sets name → name ∉ NameMap.keys left.parameters) (free : NameMap Value) :
    ((∃ values, united.resolve free = .ok values) ↔
      (∃ ours, left.resolve free = .ok ours) ∧ ∃ theirs, right.resolve free = .ok theirs) ∧
    ∀ values ours theirs, united.resolve free = .ok values → left.resolve free = .ok ours →
      right.resolve free = .ok theirs →
        (∀ name ∈ NameMap.keys left.parameters, values.get? name = ours.get? name) ∧
        (∀ name ∈ NameMap.keys right.parameters, values.get? name = theirs.get? name) ∧
        ∀ name, name ∉ NameMap.keys left.parameters → name ∉ NameMap.keys right.parameters →
          values.get? name = free.get? name := by
  obtain ⟨agrees, rfl⟩ := union_eq_ok.1 joined
  have wellLeft := reachLeft.wellFormed
  have wellRight := reachRight.wellFormed
  obtain ⟨success, same⟩ := run_interleaved interleaved_layers_joined
    (local_of_apart wellLeft apartLeft) (local_of_apart wellRight apartRight)
    (agreeOn_start_left free apartRight) (agreeOn_start_right free apartLeft)
  have known : ∀ name, name ∈ NameMap.keys (left.joined right).parameters ↔
      name ∈ NameMap.keys left.parameters ∨ name ∈ NameMap.keys right.parameters := fun _ =>
    NameSet.mem_keys_union
  refine ⟨⟨?_, ?_⟩, ?_⟩
  · rintro ⟨w, resolved⟩
    obtain ⟨ran, complete⟩ := resolve_eq_ok.1 resolved
    obtain ⟨⟨wl, ranLeft⟩, wr, ranRight⟩ := success.1 ⟨w, ran⟩
    obtain ⟨sameLeft, sameRight⟩ := same w wl wr ran ranLeft ranRight
    refine ⟨⟨wl, resolve_eq_ok.2 ⟨ranLeft, fun name member => ?_⟩⟩,
      wr, resolve_eq_ok.2 ⟨ranRight, fun name member => ?_⟩⟩
    · exact (sameLeft.mem_keys_iff member).1 (complete name ((known name).2 (.inl member)))
    · exact (sameRight.mem_keys_iff member).1 (complete name ((known name).2 (.inr member)))
  · rintro ⟨⟨wl, resolvedLeft⟩, wr, resolvedRight⟩
    obtain ⟨ranLeft, completeLeft⟩ := resolve_eq_ok.1 resolvedLeft
    obtain ⟨ranRight, completeRight⟩ := resolve_eq_ok.1 resolvedRight
    obtain ⟨w, ran⟩ := success.2 ⟨⟨wl, ranLeft⟩, wr, ranRight⟩
    obtain ⟨sameLeft, sameRight⟩ := same w wl wr ran ranLeft ranRight
    refine ⟨w, resolve_eq_ok.2 ⟨ran, fun name member => ?_⟩⟩
    rcases (known name).1 member with member | member
    · exact (sameLeft.mem_keys_iff member).2 (completeLeft name member)
    · exact (sameRight.mem_keys_iff member).2 (completeRight name member)
  · intro w wl wr resolved resolvedLeft resolvedRight
    obtain ⟨sameLeft, sameRight⟩ := same w wl wr (resolve_eq_ok.1 resolved).1
      (resolve_eq_ok.1 resolvedLeft).1 (resolve_eq_ok.1 resolvedRight).1
    refine ⟨sameLeft, sameRight, fun name unknownLeft unknownRight => ?_⟩
    have unknown : name ∉ NameMap.keys (left.joined right).parameters := by
      rw [known]
      exact not_or.2 ⟨unknownLeft, unknownRight⟩
    exact get?_resolve_of_unknown (wellFormed_joined agrees wellLeft wellRight) unknown resolved

namespace Example

/-- A choice for the screw with its base, and a name that neither knows. -/
def order : NameMap Value := NameMap.ofList
  [("size", .text "M4"), ("collar", .bool true), ("finish", .text "zinc"), ("note", .text "urgent")]

end Example

/-- The diameter is the screw's, the head the base's, and the note the caller's. -/
theorem resolve_union_screw_base :
    ∃ values ours theirs, Example.united.resolve Example.order = .ok values ∧
      Example.screw.resolve Example.order = .ok ours ∧
      Example.base.resolve Example.order = .ok theirs ∧
      values.get? "d" = ours.get? "d" ∧ values.get? "head" = theirs.get? "head" ∧
      values.get? "note" = some (.text "urgent") := by
  have apartLeft := forall_sets.2 (by decide +kernel :
    (∀ name ∈ Example.screw.literal.keys, name ∉ NameMap.keys Example.base.parameters) ∧ _ ∧ _)
  have apartRight := forall_sets.2 (by decide +kernel :
    (∀ name ∈ Example.base.literal.keys, name ∉ NameMap.keys Example.screw.parameters) ∧ _ ∧ _)
  obtain ⟨success, same⟩ := resolve_union (.read Example.read_screw) (.read Example.read_base)
    Example.union_screw_base apartLeft apartRight Example.order
  obtain ⟨ours, left⟩ : ∃ ours, Example.screw.resolve Example.order = .ok ours :=
    Outcome.exists_eq_ok_of_isOk (by decide +kernel)
  obtain ⟨theirs, right⟩ : ∃ theirs, Example.base.resolve Example.order = .ok theirs :=
    Outcome.exists_eq_ok_of_isOk (by decide +kernel)
  obtain ⟨values, both⟩ := success.2 ⟨⟨ours, left⟩, theirs, right⟩
  obtain ⟨ofLeft, ofRight, others⟩ := same values ours theirs both left right
  exact ⟨values, ours, theirs, both, left, right, ofLeft "d" (by decide +kernel),
    ofRight "head" (by decide +kernel),
    (others "note" (by decide +kernel) (by decide +kernel)).trans (by decide +kernel)⟩

end PartCatalog.ParameterSet
