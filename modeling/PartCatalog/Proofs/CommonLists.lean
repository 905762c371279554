/-
# Lists of combinations -- what each entry of a declaration adds

An entry that lists positions `Adds` the cross product of what they stand for, as an odometer
runs through it.  A declaration that lists such entries is accepted exactly when each of them
has a position for each free parameter and each position stands for some values, and then lists
what the entries add, in their order (`expandCommon_eq_ok`).  No entry has a part in what
another one adds, so two lists may be declared as one: that is accepted exactly when both are,
and declares what the first does and then what the second does (`common_of_append`).
-/
import PartCatalog.Proofs.CommonForms
import PartCatalog.Proofs.MixedRadix

set_option autoImplicit false

namespace PartCatalog.ParameterSet

open Outcome

variable {params : ParameterSet} {node : Node} {before after : List (Node × Node)}

/-! ## Entries -/

/-- Whether an entry of a declaration is a combination: a list of which each item is `:` or a
list. -/
def IsCombination (entry : Node) : Prop :=
  ∃ positions, entry.asSequence? = some positions ∧
    ∀ x ∈ positions, x.asString? = some fullDomainWord ∨ ∃ cells, x = .seq cells

/-- How an entry adds combinations: it has a position for each free parameter, and adds each
choice of one value for each position, in the order of an odometer. -/
structure AddsFrom (params : ParameterSet) (entry : Node) (positions : List Node)
    (domains combos : List (List Value)) : Prop where
  isList : entry.asSequence? = some positions
  arity : params.free.length = positions.length
  denotes : List.Forall₂ (fun e domain => params.Denotes e.1 e.2 domain) (params.free.zip positions) domains
  product : combos = crossProduct domains
  size : combos.length = (domains.map List.length).prod
  odometer : ∀ n, ((Combinations.ofDomains domains).take n).1 = combos.take n

/-- What an entry adds to the common combinations. -/
def Adds (params : ParameterSet) (entry : Node) (combos : List (List Value)) : Prop :=
  ∃ positions domains, params.AddsFrom entry positions domains combos

theorem positions?_eq_some {entry : Node} {positions : List Node} :
    positions? entry = some positions ↔
      entry.asSequence? = some positions ∧ ∀ x ∈ positions, isPosition x = true := by
  rw [positions?, Option.filter_eq_some_iff, List.all_eq_true]

theorem isPosition_iff {x : Node} :
    isPosition x = true ↔ x.asString? = some fullDomainWord ∨ ∃ cells, x = .seq cells := by
  cases x <;> simp [isPosition]

theorem IsCombination.exists_positions {entry : Node} (isCombination : IsCombination entry) :
    ∃ positions, positions? entry = some positions := by
  obtain ⟨positions, isList, each⟩ := isCombination
  exact ⟨positions, positions?_eq_some.2 ⟨isList, fun x member => isPosition_iff.2 (each x member)⟩⟩

theorem adds_iff {entry : Node} {positions : List Node} (isList : entry.asSequence? = some positions)
    {combos : List (List Value)} :
    params.Adds entry combos ↔ params.expandPositions positions = .ok combos := by
  rw [expandPositions_eq_ok]
  constructor
  · rintro ⟨positions', domains, adds⟩
    obtain rfl : positions = positions' := Option.some.inj (isList.symm.trans adds.isList)
    exact ⟨adds.arity, domains, adds.denotes, adds.product⟩
  · rintro ⟨arity, domains, denotes, rfl⟩
    exact ⟨positions, domains, isList, arity, denotes, rfl, Combinations.length_crossProduct domains,
      Combinations.take_ofDomains domains⟩

/-! ## Lists of entries -/

/-- A list of combinations is accepted when each of them is, and lists what each adds. -/
theorem expandCommon_eq_ok {entries : List Node} (some_entry : entries ≠ [])
    (combinations : ∀ entry ∈ entries, IsCombination entry) {combos : List (List Value)} :
    params.expandCommon (.seq entries) = .ok combos ↔
      ∃ parts, List.Forall₂ params.Adds entries parts ∧ combos = parts.flatten := by
  obtain ⟨lists, areLists⟩ := exists_forall₂_iff.2 fun entry member =>
    (combinations entry member).exists_positions
  rw [expandCommon_entries some_entry (mapM_eq_some.2 areLists), map_eq_ok]
  simp only [mapM_eq_ok, @eq_comm _ combos]
  refine exists_congr fun parts => and_congr_left fun _ => ?_
  refine (forall₂_congr_left areLists (fun entry positions isPositions part => ?_) parts).symm
  exact adds_iff (positions?_eq_some.1 isPositions).1

/-- What an entry adds has nothing to do with what is common so far. -/
theorem adds_withCommon {common : Option (List (List Value))} {entry : Node} {combos : List (List Value)} :
    { params with common := common }.Adds entry combos ↔ params.Adds entry combos := by
  constructor
  · rintro ⟨positions, domains, adds⟩
    exact ⟨positions, domains, adds.isList, adds.arity, adds.denotes, adds.product, adds.size, adds.odometer⟩
  · rintro ⟨positions, domains, adds⟩
    exact ⟨positions, domains, adds.isList, adds.arity, adds.denotes, adds.product, adds.size, adds.odometer⟩

/-- An element that declares a list of combinations is read where the element without them is and
each of them is accepted. -/
theorem ofNode_listing_iff {listing : Node} {entries : List Node}
    (declares : Declares before after node listing (.seq entries)) (some_entry : entries ≠ [])
    (combinations : ∀ entry ∈ entries, IsCombination entry) :
    ofNode listing = .ok params ↔ ∃ undeclared parts, ofNode node = .ok undeclared ∧
      List.Forall₂ undeclared.Adds entries parts ∧
        params = { undeclared with common := some parts.flatten } := by
  rw [ofNode_declaring_iff declares]
  simp only [expandCommon_eq_ok some_entry combinations]
  constructor
  · rintro ⟨undeclared, _, read, ⟨parts, adds, rfl⟩, rfl⟩
    exact ⟨undeclared, parts, read, adds, rfl⟩
  · rintro ⟨undeclared, parts, read, adds, rfl⟩
    exact ⟨undeclared, _, read, ⟨parts, adds, rfl⟩, rfl⟩

/-- **Two lists of combinations declared as one.**  An element that declares both lists, one after the
other, is read exactly when the element that declares the first and the element that declares
the second are.  It is then the same set but for what is common, and what is common is what the
first declares, entry by entry, followed by what the second does. -/
theorem common_of_append {first second both : Node} {left right : List Node}
    (isFirst : Declares before after node first (.seq left))
    (isSecond : Declares before after node second (.seq right))
    (isBoth : Declares before after node both (.seq (left ++ right)))
    (some_left : left ≠ []) (some_right : right ≠ [])
    (combinations : ∀ entry ∈ left ++ right, IsCombination entry) :
    ((∃ params, ofNode both = .ok params) ↔
      (∃ params, ofNode first = .ok params) ∧ ∃ params, ofNode second = .ok params) ∧
    ∀ params, ofNode both = .ok params → ∃ parts parts',
      List.Forall₂ params.Adds left parts ∧ List.Forall₂ params.Adds right parts' ∧
      ofNode first = .ok { params with common := some parts.flatten } ∧
      ofNode second = .ok { params with common := some parts'.flatten } ∧
      params.common = some (parts.flatten ++ parts'.flatten) := by
  obtain ⟨inLeft, inRight⟩ := List.forall_mem_append.1 combinations
  have some_both : left ++ right ≠ [] := List.append_ne_nil_of_left_ne_nil some_left right
  refine ⟨⟨?_, ?_⟩, fun params readBoth => ?_⟩
  · rintro ⟨params, readBoth⟩
    obtain ⟨undeclared, _, read, adds, rfl⟩ := (ofNode_listing_iff isBoth some_both combinations).1 readBoth
    obtain ⟨parts, parts', addsLeft, addsRight, rfl⟩ := forall₂_append_left_iff.1 adds
    exact ⟨⟨_, (ofNode_listing_iff isFirst some_left inLeft).2 ⟨undeclared, parts, read, addsLeft, rfl⟩⟩,
      _, (ofNode_listing_iff isSecond some_right inRight).2 ⟨undeclared, parts', read, addsRight, rfl⟩⟩
  · rintro ⟨⟨_, readFirst⟩, _, readSecond⟩
    obtain ⟨undeclared, parts, read, addsLeft, -⟩ := (ofNode_listing_iff isFirst some_left inLeft).1 readFirst
    obtain ⟨undeclared', parts', read', addsRight, -⟩ :=
      (ofNode_listing_iff isSecond some_right inRight).1 readSecond
    obtain rfl : undeclared = undeclared' := Except.ok.inj (read.symm.trans read')
    have adds : List.Forall₂ undeclared.Adds (left ++ right) (parts ++ parts') :=
      forall₂_append_left_iff.2 ⟨parts, parts', addsLeft, addsRight, rfl⟩
    exact ⟨_, (ofNode_listing_iff isBoth some_both combinations).2 ⟨undeclared, _, read, adds, rfl⟩⟩
  · obtain ⟨undeclared, _, read, adds, rfl⟩ := (ofNode_listing_iff isBoth some_both combinations).1 readBoth
    obtain ⟨parts, parts', addsLeft, addsRight, rfl⟩ := forall₂_append_left_iff.1 adds
    refine ⟨parts, parts', addsLeft.imp fun _ _ => adds_withCommon.2, addsRight.imp fun _ _ => adds_withCommon.2,
      ?_, ?_, congrArg some List.flatten_append⟩
    · exact (ofNode_listing_iff isFirst some_left inLeft).2 ⟨undeclared, parts, read, addsLeft, rfl⟩
    · exact (ofNode_listing_iff isSecond some_right inRight).2 ⟨undeclared, parts', read, addsRight, rfl⟩

namespace Example

/-- The smaller size, coated or not. -/
def smallBolts : List Node := [.seq [texts ["M3"], .str ":"]]

/-- Both sizes with a coating, then the larger one without. -/
def coatedBolts : List Node :=
  [.seq [texts ["M3", "M4"], texts ["True"]], .seq [texts ["M4"], texts ["False"]]]

theorem areCombinations_bolts : ∀ entry ∈ smallBolts ++ coatedBolts, IsCombination entry := by
  have isList : ∀ positions : List Node, (∀ x ∈ positions, isPosition x = true) → IsCombination (.seq positions) :=
    fun positions each => ⟨positions, rfl, fun x member => isPosition_iff.1 (each x member)⟩
  refine List.forall_mem_cons.2 ⟨isList _ (by decide), List.forall_mem_cons.2 ⟨isList _ (by decide), ?_⟩⟩
  exact List.forall_mem_singleton.2 (isList _ (by decide))

end Example

/-- The smaller bolts, and then those that are listed beside them. -/
theorem common_of_append_bolts :
    (∀ entry ∈ Example.smallBolts ++ Example.coatedBolts, IsCombination entry) ∧
      ∃ params parts parts',
        ofNode (Example.declaringBolt (.seq (Example.smallBolts ++ Example.coatedBolts))) = .ok params ∧
        List.Forall₂ params.Adds Example.smallBolts parts ∧
        List.Forall₂ params.Adds Example.coatedBolts parts' ∧
        params.common = some (parts.flatten ++ parts'.flatten) ∧
        params.common = some [[.text "M3", .bool true], [.text "M3", .bool false],
          [.text "M3", .bool true], [.text "M4", .bool true], [.text "M4", .bool false]] := by
  have combinations := Example.areCombinations_bolts
  obtain ⟨⟨-, accepted⟩, listed⟩ := common_of_append (Example.declares_bolt (.seq Example.smallBolts))
    (Example.declares_bolt (.seq Example.coatedBolts))
    (Example.declares_bolt (.seq (Example.smallBolts ++ Example.coatedBolts)))
    (List.cons_ne_nil _ _) (List.cons_ne_nil _ _) combinations
  obtain ⟨params, read⟩ := accepted ⟨exists_eq_ok_of_isOk (by decide), exists_eq_ok_of_isOk (by decide)⟩
  obtain ⟨parts, parts', adds, adds', -, -, isCommon⟩ := listed params read
  refine ⟨combinations, params, parts, parts', read, adds, adds', isCommon, ?_⟩
  have shown : (ofNode (Example.declaringBolt (.seq (Example.smallBolts ++ Example.coatedBolts)))).toOption.map
      (·.common) = some (some [[.text "M3", .bool true], [.text "M3", .bool false],
        [.text "M3", .bool true], [.text "M4", .bool true], [.text "M4", .bool false]]) := by
    decide
  rw [read] at shown
  exact Option.some.inj shown

end PartCatalog.ParameterSet
