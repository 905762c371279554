/-
# Laws of common combinations -- one value from each domain

The cross product of some domains has the lists that take one member from each
(`mem_crossProduct`), each once if the domains have theirs once (`nodup_crossProduct`).
Whether declared or not, a common combination has one value for each free parameter,
and the type of the parameter admits it (`admits_of_expandCommon`,
`admits_of_allCombinations?`).
-/
import Mathlib.Data.List.Nodup
import PartCatalog.ParameterSet.Common
import PartCatalog.Proofs.Outcome
import PartCatalog.Proofs.TypedTables

set_option autoImplicit false

namespace PartCatalog

open Outcome

/-! ## Cross products -/

theorem mem_crossProduct {domains : List (List Value)} {combo : List Value} :
    combo ∈ crossProduct domains ↔ List.Forall₂ (fun domain v => v ∈ domain) domains combo := by
  induction domains generalizing combo with
  | nil => simp [crossProduct]
  | cons domain domains ih =>
      simp only [crossProduct, List.mem_flatMap, List.mem_map, List.forall₂_cons_left_iff, ih]
      constructor
      · rintro ⟨v, member, rest, related, rfl⟩
        exact ⟨v, rest, member, related, rfl⟩
      · rintro ⟨v, rest, member, related, rfl⟩
        exact ⟨v, member, rest, related, rfl⟩

theorem nodup_crossProduct {domains : List (List Value)} (nodup : ∀ domain ∈ domains, domain.Nodup) :
    (crossProduct domains).Nodup := by
  induction domains with
  | nil => simp [crossProduct]
  | cons domain domains ih =>
      have rest := ih fun d member => nodup d (List.mem_cons_of_mem _ member)
      rw [crossProduct, List.nodup_flatMap]
      refine ⟨fun v _ => rest.map fun _ _ same => (List.cons.inj same).2, ?_⟩
      refine (nodup domain List.mem_cons_self).imp fun {v w} different => ?_
      simp only [Function.onFun, List.disjoint_left, List.mem_map]
      rintro combo ⟨tail, -, rfl⟩ ⟨tail', -, same⟩
      exact different (List.cons.inj same).1.symm

namespace ParameterSet

variable {params : ParameterSet}

/-! ## Domains -/

/-- The parameters whose values can be listed: a bool, and an index with choices. -/
theorem fullDomain_eq_ok {name : String} {domain : List Value} :
    params.fullDomain name = .ok domain ↔
      (params.types.get? name = some .bool ∧ domain = [.bool true, .bool false]) ∨
        (params.types.get? name = some .tableIndex ∧
          ∃ choices, params.choices.get? name = some choices ∧ domain = choices.map .text) := by
  constructor
  · intro listed
    unfold fullDomain at listed
    split at listed
    · next isBool =>
      cases listed
      exact .inl ⟨TypeMap.get?_of_typeOf (by decide) isBool, rfl⟩
    · next isIndex =>
      split at listed
      · next choices found =>
        cases listed
        exact .inr ⟨TypeMap.get?_of_typeOf (by decide) isIndex, choices, found, rfl⟩
      · cases listed
    · cases listed
  · rintro (⟨typed, rfl⟩ | ⟨typed, choices, found, rfl⟩)
    · rw [fullDomain, TypeMap.typeOf_eq_of_get? typed]
    · rw [fullDomain, TypeMap.typeOf_eq_of_get? typed]
      simp only [found]

theorem admits_of_fullDomain {name : String} {domain : List Value}
    (listed : params.fullDomain name = .ok domain) : ∀ v ∈ domain, params.types.Admits name v := by
  intro v member
  rcases fullDomain_eq_ok.1 listed with ⟨typed, rfl⟩ | ⟨typed, choices, -, rfl⟩
  · refine ⟨.bool, typed, ?_⟩
    rcases List.mem_cons.1 member with rfl | member
    · rfl
    · rcases List.mem_cons.1 member with rfl | member
      · rfl
      · cases member
  · obtain ⟨c, -, rfl⟩ := List.mem_map.1 member
    exact ⟨.tableIndex, typed, .inl rfl⟩

theorem admits_of_positionDomain {name : String} {position : Node} {domain : List Value}
    (known : name ∈ params.types.keys) (read : params.positionDomain name position = .ok domain) :
    ∀ v ∈ domain, params.types.Admits name v := by
  unfold positionDomain at read
  split at read
  · split at read
    · exact admits_of_fullDomain (mapError_eq_ok.1 read)
    · cases read
  · intro v member
    obtain ⟨cell, -, typed⟩ := exists_left_of_forall₂ (mapM_eq_ok.1 read) v member
    exact TypeMap.admits_of_normalize known (mapError_eq_ok.1 typed)
  · cases read

/-! ## Combinations -/

/-- Whether a combination has a value for each free parameter that its type admits. -/
def AdmitsCombination (params : ParameterSet) (combo : List Value) : Prop :=
  List.Forall₂ params.types.Admits params.free combo

theorem admits_of_mem_crossProduct {names : List String} {domains : List (List Value)}
    {types : TypeMap}
    (domainsOf : List.Forall₂ (fun name domain => ∀ v ∈ domain, types.Admits name v) names domains)
    {combo : List Value} (member : combo ∈ crossProduct domains) :
    List.Forall₂ types.Admits names combo := by
  rw [mem_crossProduct] at member
  induction domainsOf generalizing combo with
  | nil =>
      cases member
      exact .nil
  | cons head _ ih =>
      cases member with
      | cons inDomain rest => exact .cons (head _ inDomain) (ih rest)

theorem admits_of_expandPositions {positions : List Node} {combos : List (List Value)}
    (known : ∀ name ∈ params.free, name ∈ params.types.keys)
    (read : params.expandPositions positions = .ok combos) :
    ∀ combo ∈ combos, params.AdmitsCombination combo := by
  unfold expandPositions at read
  split at read
  · next sameLength =>
    obtain ⟨domains, reads, rfl⟩ := map_eq_ok.1 read
    have names : (params.free.zip positions).map Prod.fst = params.free :=
      List.map_fst_zip (Nat.le_of_eq sameLength.symm)
    have inFree : ∀ pair ∈ params.free.zip positions, pair.1 ∈ params.free := by
      rintro ⟨name, position⟩ member
      exact (List.of_mem_zip member).1
    have domainsOf : List.Forall₂ (fun name domain => ∀ v ∈ domain, params.types.Admits name v)
        params.free domains := by
      rw [← names]
      refine List.forall₂_map_left_iff.2 ?_
      refine ((List.forall₂_and_left _ _).2 ⟨inFree, mapM_eq_ok.1 reads⟩).imp fun pair domain fact => ?_
      exact admits_of_positionDomain (known _ fact.1) fact.2
    intro combo member
    exact admits_of_mem_crossProduct domainsOf member
  · cases read

theorem admits_of_expandCommon {declared : Node} {combos : List (List Value)}
    (known : ∀ name ∈ params.free, name ∈ params.types.keys)
    (read : params.expandCommon declared = .ok combos) :
    ∀ combo ∈ combos, params.AdmitsCombination combo := by
  unfold expandCommon at read
  split at read
  · cases read
  · exact admits_of_expandPositions known read
  · split at read
    · obtain ⟨lists, reads, rfl⟩ := map_eq_ok.1 read
      intro combo member
      obtain ⟨list, inLists, inList⟩ := List.mem_flatten.1 member
      obtain ⟨positions, -, expanded⟩ := exists_left_of_forall₂ (mapM_eq_ok.1 reads) list inLists
      exact admits_of_expandPositions known expanded combo inList
    · exact admits_of_expandPositions known read

theorem allCombinations?_eq_some {combos : List (List Value)} :
    params.allCombinations? = some combos ↔
      ∃ domains, List.Forall₂ (fun name domain => params.fullDomain name = .ok domain) params.free
        domains ∧ combos = crossProduct domains := by
  rw [allCombinations?, Option.map_eq_some_iff]
  simp only [mapM_eq_some, toOption_eq_some, @eq_comm _ combos]

theorem admits_of_allCombinations? {combos : List (List Value)}
    (listed : params.allCombinations? = some combos) :
    ∀ combo ∈ combos, params.AdmitsCombination combo := by
  obtain ⟨domains, domainsOf, rfl⟩ := allCombinations?_eq_some.1 listed
  intro combo member
  exact admits_of_mem_crossProduct (domainsOf.imp fun _ _ => admits_of_fullDomain) member

end ParameterSet

end PartCatalog
