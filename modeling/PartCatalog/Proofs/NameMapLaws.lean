/-
# Laws of name maps -- what a look-up finds after each operation

Every operation is described by the look-ups of its result: `get?_insert` for one
entry, `get?_insertAll` for a list of them, where the last payload of a name counts
(`lastEntry`), `get?_overlay` for a whole map laid over another. Two maps with the
same look-ups are equal (`ext_get?`), because both keep their entries in strictly
ascending order. The names of a map are said as membership in `keys`. A traversal goes
through the names in ascending order, so it fails at the smallest one whose payload cannot
be changed (`traverse_eq_error_iff_get?`).
-/
import Mathlib.Data.List.Forall2
import Mathlib.Data.List.Nodup
import PartCatalog.NameMap
import PartCatalog.Proofs.Outcome

set_option autoImplicit false

namespace PartCatalog

universe u v

namespace NameMap

variable {α : Type u} {β : Type v}

/-! ## Entries and names -/

/-- The last payload that a list of entries gives a name. -/
def lastEntry (name : String) : List (String × α) → Option α
  | [] => none
  | (other, x) :: rest => (lastEntry name rest).or (if other = name then some x else none)

theorem findEntry_insertEntry (name other : String) (x : α) (es : List (String × α)) :
    findEntry other (insertEntry name x es) = if name = other then some x else findEntry other es := by
  induction es with
  | nil => simp [insertEntry, findEntry]
  | cons e es ih =>
      obtain ⟨first, y⟩ := e
      simp only [insertEntry]
      split
      · simp [findEntry]
      · split
        · next same =>
          subst same
          by_cases hit : name = other <;> simp [findEntry, hit]
        · next different =>
          by_cases hit : first = other
          · subst hit
            simp [findEntry, different]
          · simp [findEntry, hit, ih]

theorem findEntry_eq_some_iff {name : String} {x : α} {es : List (String × α)}
    (ascending : es.Pairwise (fun a b => a.1 < b.1)) :
    findEntry name es = some x ↔ (name, x) ∈ es := by
  induction es with
  | nil => simp [findEntry]
  | cons e es ih =>
      obtain ⟨first, y⟩ := e
      obtain ⟨below, rest⟩ := List.pairwise_cons.1 ascending
      simp only [findEntry, List.mem_cons, Prod.mk.injEq]
      split
      · next same =>
        subst same
        have absent : (first, x) ∉ es := fun member => String.lt_irrefl _ (below (first, x) member)
        simp [absent, eq_comm]
      · next different =>
        simp [ih rest, Ne.symm different]

theorem mem_entries_iff {m : NameMap α} {name : String} {x : α} :
    (name, x) ∈ m.entries ↔ m.get? name = some x :=
  (findEntry_eq_some_iff m.ascending).symm

theorem mem_keys_iff {m : NameMap α} {name : String} :
    name ∈ m.keys ↔ ∃ x, m.get? name = some x := by
  simp only [keys, List.mem_map, Prod.exists, mem_entries_iff]
  simp

theorem contains_iff {m : NameMap α} {name : String} : m.contains name = true ↔ name ∈ m.keys := by
  rw [mem_keys_iff, contains, Option.isSome_iff_exists]

theorem get?_eq_none_iff {m : NameMap α} {name : String} : m.get? name = none ↔ name ∉ m.keys := by
  rw [mem_keys_iff, Option.eq_none_iff_forall_ne_some, not_exists]

theorem mem_keys_of_get? {m : NameMap α} {name : String} {x : α} (found : m.get? name = some x) :
    name ∈ m.keys :=
  mem_keys_iff.2 ⟨x, found⟩

theorem pairwise_keys (m : NameMap α) : m.keys.Pairwise (· < ·) := List.pairwise_map.2 m.ascending

theorem nodup_keys (m : NameMap α) : m.keys.Nodup :=
  m.pairwise_keys.imp fun {a b} (below : a < b) (same : a = b) => String.lt_irrefl b (same ▸ below)

/-- Two lists in a strict order with the same members are equal. -/
theorem eq_of_mem_iff {γ : Type u} {r : γ → γ → Prop} (irrefl : ∀ a, ¬ r a a)
    (trans : ∀ a b c, r a b → r b c → r a c) {xs ys : List γ} (ascending : xs.Pairwise r)
    (ascending' : ys.Pairwise r) (same : ∀ a, a ∈ xs ↔ a ∈ ys) : xs = ys := by
  have nodup : ∀ {zs : List γ}, zs.Pairwise r → zs.Nodup := fun pairwise =>
    pairwise.imp fun {a b} (below : r a b) (equal : a = b) => irrefl b (equal ▸ below)
  have perm : xs.Perm ys := (List.perm_ext_iff_of_nodup (nodup ascending) (nodup ascending')).2 same
  exact perm.eq_of_pairwise (fun a b _ _ below above => absurd (trans a b a below above) (irrefl a))
    ascending ascending'

theorem keys_eq_of_mem_iff {m : NameMap α} {n : NameMap β}
    (same : ∀ name, name ∈ m.keys ↔ name ∈ n.keys) : m.keys = n.keys :=
  eq_of_mem_iff String.lt_irrefl (fun _ _ _ => String.lt_trans) m.pairwise_keys n.pairwise_keys same

/-- Two maps with the same look-ups are equal. -/
theorem ext_get? {m n : NameMap α} (same : ∀ name, m.get? name = n.get? name) : m = n := by
  have members : ∀ e, e ∈ m.entries ↔ e ∈ n.entries := fun e => by
    rw [mem_entries_iff, mem_entries_iff, same]
  have equal : m.entries = n.entries :=
    eq_of_mem_iff (r := fun a b => a.1 < b.1) (fun e => String.lt_irrefl e.1)
      (fun _ _ _ => String.lt_trans) m.ascending n.ascending members
  cases m
  cases n
  simp only at equal
  subst equal
  rfl

/-! ## Inserting -/

@[simp] theorem get?_empty (name : String) : (empty : NameMap α).get? name = none := rfl

@[simp] theorem keys_empty : (empty : NameMap α).keys = [] := rfl

theorem get?_insert (m : NameMap α) (name other : String) (x : α) :
    (m.insert name x).get? other = if name = other then some x else m.get? other :=
  findEntry_insertEntry name other x m.entries

theorem get?_insertAll (m : NameMap α) (es : List (String × α)) (name : String) :
    (m.insertAll es).get? name = (lastEntry name es).or (m.get? name) := by
  induction es generalizing m with
  | nil => rfl
  | cons e es ih =>
      have step : m.insertAll (e :: es) = (m.insert e.1 e.2).insertAll es := rfl
      rw [step, ih, get?_insert, lastEntry]
      split <;> cases lastEntry name es <;> rfl

theorem get?_ofList (es : List (String × α)) (name : String) :
    (ofList es).get? name = lastEntry name es := by
  have built : ofList es = empty.insertAll es := rfl
  rw [built, get?_insertAll, get?_empty, Option.or_none]

theorem mem_of_lastEntry {name : String} {x : α} {es : List (String × α)}
    (last : lastEntry name es = some x) : (name, x) ∈ es := by
  induction es with
  | nil => simp [lastEntry] at last
  | cons e es ih =>
      obtain ⟨other, y⟩ := e
      rw [lastEntry, Option.or_eq_some_iff] at last
      rcases last with last | ⟨_, last⟩
      · exact List.mem_cons_of_mem _ (ih last)
      · split at last
        · next same =>
          cases last
          exact same ▸ List.mem_cons_self
        · cases last

theorem lastEntry_isSome_iff {name : String} {es : List (String × α)} :
    (lastEntry name es).isSome ↔ name ∈ es.map (·.1) := by
  induction es with
  | nil => simp [lastEntry]
  | cons e es ih =>
      by_cases hit : e.1 = name
      · simp [lastEntry, hit]
      · simp [lastEntry, hit, ih, Ne.symm hit]

theorem lastEntry_eq_none_iff {name : String} {es : List (String × α)} :
    lastEntry name es = none ↔ name ∉ es.map (·.1) := by
  rw [← lastEntry_isSome_iff, Option.not_isSome_iff_eq_none]

theorem lastEntry_map (f : α → β) (name : String) (es : List (String × α)) :
    lastEntry name (es.map fun e => (e.1, f e.2)) = (lastEntry name es).map f := by
  induction es with
  | nil => rfl
  | cons e es ih =>
      rw [List.map_cons, lastEntry, lastEntry, ih]
      split <;> cases lastEntry name es <;> rfl

/-- Where names are not repeated, the last payload is the only one. -/
theorem lastEntry_entries (m : NameMap α) (name : String) : lastEntry name m.entries = m.get? name := by
  cases found : lastEntry name m.entries with
  | some x => exact (mem_entries_iff.1 (mem_of_lastEntry found)).symm
  | none => exact (get?_eq_none_iff.2 (lastEntry_eq_none_iff.1 found)).symm

/-- Of names that are all different, each finds what stands at its place. -/
theorem forall₂_lastEntry_zip {names : List String} {xs : List α} (nodup : names.Nodup)
    (sameLength : names.length = xs.length) :
    List.Forall₂ (fun name x => lastEntry name (names.zip xs) = some x) names xs := by
  induction names generalizing xs with
  | nil =>
      cases xs with
      | nil => exact .nil
      | cons x xs => cases sameLength
  | cons n names ih =>
      cases xs with
      | nil => cases sameLength
      | cons x xs =>
          obtain ⟨fresh, nodup⟩ := List.nodup_cons.1 nodup
          have lengths : names.length = xs.length := Nat.succ.inj sameLength
          refine .cons ?_ ((ih nodup lengths).imp fun name y found => ?_)
          · have absent : lastEntry n (names.zip xs) = none := by
              rw [lastEntry_eq_none_iff, List.map_fst_zip (Nat.le_of_eq lengths)]
              exact fresh
            rw [List.zip_cons_cons, lastEntry, absent, Option.none_or, if_pos rfl]
          · rw [List.zip_cons_cons, lastEntry, found, Option.some_or]

theorem get?_overlay (left right : NameMap α) (name : String) :
    (left.overlay right).get? name = (right.get? name).or (left.get? name) := by
  rw [overlay, get?_insertAll, lastEntry_entries]

theorem mem_keys_insertAll {m : NameMap α} {es : List (String × α)} {name : String} :
    name ∈ (m.insertAll es).keys ↔ name ∈ es.map (·.1) ∨ name ∈ m.keys := by
  rw [← contains_iff, contains, get?_insertAll, Option.isSome_or, Bool.or_eq_true,
    lastEntry_isSome_iff]
  exact or_congr_right contains_iff

theorem mem_keys_insert {m : NameMap α} {name other : String} {x : α} :
    other ∈ (m.insert name x).keys ↔ other = name ∨ other ∈ m.keys := by
  have built : m.insert name x = m.insertAll [(name, x)] := rfl
  rw [built, mem_keys_insertAll, List.map_singleton, List.mem_singleton]

theorem mem_keys_ofList {es : List (String × α)} {name : String} :
    name ∈ (ofList es).keys ↔ name ∈ es.map (·.1) := by
  have built : ofList es = empty.insertAll es := rfl
  rw [built, mem_keys_insertAll]
  simp

/-- Where names are not repeated, the last payload of a name is any payload of it. -/
theorem lastEntry_eq_some_iff {name : String} {x : α} {es : List (String × α)}
    (nodup : (es.map (·.1)).Nodup) : lastEntry name es = some x ↔ (name, x) ∈ es := by
  refine ⟨mem_of_lastEntry, fun member => ?_⟩
  obtain ⟨y, last⟩ := Option.isSome_iff_exists.1 (lastEntry_isSome_iff.2 (List.mem_map_of_mem member))
  have same := List.inj_on_of_nodup_map nodup member (mem_of_lastEntry last) rfl
  rw [last, (Prod.mk.inj same).2]

/-- Entries of different names make the same map in any order. -/
theorem ofList_eq_of_perm {es fs : List (String × α)} (nodup : (es.map (·.1)).Nodup)
    (perm : es.Perm fs) : ofList es = ofList fs := by
  refine ext_get? fun name => Option.ext fun x => ?_
  have nodup' : (fs.map (·.1)).Nodup := (perm.map _).nodup_iff.1 nodup
  rw [get?_ofList, get?_ofList, lastEntry_eq_some_iff nodup, lastEntry_eq_some_iff nodup', perm.mem_iff]

theorem mem_keys_overlay {left right : NameMap α} {name : String} :
    name ∈ (left.overlay right).keys ↔ name ∈ right.keys ∨ name ∈ left.keys :=
  mem_keys_insertAll

theorem overlay_assoc (a b c : NameMap α) : (a.overlay b).overlay c = a.overlay (b.overlay c) :=
  ext_get? fun name => by simp only [get?_overlay, Option.or_assoc]

theorem overlay_self (m : NameMap α) : m.overlay m = m :=
  ext_get? fun name => by rw [get?_overlay, Option.or_self]

/-! ## Sameness -/

/-- Two maps with the same names and the same payloads under each are the same. -/
theorem same_of_get? {samePayload : α → α → Bool} {m n : NameMap α}
    (names : ∀ name, name ∈ m.keys ↔ name ∈ n.keys)
    (payloads : ∀ name x y, m.get? name = some x → n.get? name = some y → samePayload x y = true) :
    m.same samePayload n = true := by
  have sameNames : m.keys = n.keys := keys_eq_of_mem_iff names
  simp only [← mem_entries_iff] at payloads
  simp only [keys] at sameNames
  unfold same
  generalize m.entries = es at sameNames payloads
  generalize n.entries = fs at sameNames payloads
  induction es generalizing fs with
  | nil =>
      cases fs with
      | nil => rfl
      | cons f fs => cases sameNames
  | cons e es ih =>
      cases fs with
      | nil => cases sameNames
      | cons f fs =>
          obtain ⟨name, x⟩ := e
          obtain ⟨name', y⟩ := f
          obtain ⟨rfl, rest⟩ := List.cons.inj sameNames
          have head := payloads name x y List.mem_cons_self List.mem_cons_self
          have tail := ih fs rest fun other x' y' member member' =>
            payloads other x' y' (List.mem_cons_of_mem _ member) (List.mem_cons_of_mem _ member')
          simp only [List.isEqv, beq_self_eq_true, head, tail, Bool.and_self]

/-! ## Changing the payloads -/

@[simp] theorem keys_mapWithName (f : String → α → β) (m : NameMap α) :
    (m.mapWithName f).keys = m.keys := by
  simp [keys, mapWithName]

theorem get?_mapWithName (f : String → α → β) (m : NameMap α) (name : String) :
    (m.mapWithName f).get? name = (m.get? name).map (f name) := by
  obtain ⟨es, ascending⟩ := m
  simp only [get?, mapWithName]
  clear ascending
  induction es with
  | nil => rfl
  | cons e es ih =>
      by_cases hit : e.1 = name
      · simp [findEntry, hit]
      · simp [findEntry, hit, ih]

theorem traverse_eq_ok_iff {ε α β : Type} {f : String → α → Except ε β} {m : NameMap α} {n : NameMap β} :
    m.traverse f = .ok n ↔ traverseEntries f m.entries = .ok n.entries := by
  obtain ⟨es, ascending⟩ := n
  unfold traverse
  split
  · next e failed => simp [failed]
  · next fs read => simp [read]

/-- A traversal keeps the names, and each payload comes from the one that stood under
its name. -/
theorem traverse_eq_ok {ε α β : Type} {f : String → α → Except ε β} {m : NameMap α}
    {n : NameMap β} (run : m.traverse f = .ok n) :
    n.keys = m.keys ∧
      ∀ name y, n.get? name = some y → ∃ x, m.get? name = some x ∧ f name x = .ok y := by
  have entries := traverse_eq_ok_iff.1 run
  refine ⟨keys_traverseEntries entries, fun name y found => ?_⟩
  rw [← mem_entries_iff] at found
  simp only [← mem_entries_iff]
  generalize n.entries = fs at entries found
  generalize m.entries = es at entries
  induction es generalizing fs with
  | nil => cases entries; simp at found
  | cons e es ih =>
      obtain ⟨first, x⟩ := e
      simp only [traverseEntries] at entries
      split at entries
      · cases entries
      · next z read =>
        split at entries
        · cases entries
        · next rest reads =>
          cases entries
          rcases List.mem_cons.1 found with same | member
          · cases same
            exact ⟨x, List.mem_cons_self, read⟩
          · obtain ⟨x', inEs, read'⟩ := ih rest member reads
            exact ⟨x', List.mem_cons_of_mem _ inEs, read'⟩

/-- A traversal gives the map whose payloads it reads back. -/
theorem traverse_map_eq_ok {ε α β : Type} {f : String → α → Except ε β} {g : β → α} {n : NameMap β}
    (readsBack : ∀ name y, n.get? name = some y → f name (g y) = .ok y) :
    (n.map g).traverse f = .ok n := by
  simp only [← mem_entries_iff] at readsBack
  have entries : traverseEntries f (n.entries.map fun e => (e.1, g e.2)) = .ok n.entries := by
    generalize n.entries = es at readsBack
    induction es with
    | nil => rfl
    | cons e es ih =>
        have head := readsBack e.1 e.2 List.mem_cons_self
        have tail := ih fun name y member => readsBack name y (List.mem_cons_of_mem e member)
        rw [List.map_cons, traverseEntries, head]
        dsimp only
        rw [tail]
  exact traverse_eq_ok_iff.2 entries

/-! ## Traversals -/

section Traversals

open Outcome

variable {ε α β : Type} {f : String → α → Except ε β} {m : NameMap α} {n : NameMap β}

theorem traverseEntries_eq_mapM (es : List (String × α)) :
    traverseEntries f es = es.mapM fun e => (f e.1 e.2).map (Prod.mk e.1) := by
  induction es with
  | nil => rfl
  | cons e es ih =>
      rw [traverseEntries, ih, List.mapM_cons]
      cases f e.1 e.2 with
      | error fault => rfl
      | ok y => cases es.mapM fun e => (f e.1 e.2).map (Prod.mk e.1) <;> rfl

theorem traverse_eq_error_iff {fault : ε} :
    m.traverse f = .error fault ↔ traverseEntries f m.entries = .error fault := by
  unfold traverse
  split
  · next failed => simp [failed]
  · next read => simp [read]

/-- A traversal succeeds exactly if each payload is read. -/
theorem exists_traverse_iff :
    (∃ n, m.traverse f = .ok n) ↔ ∀ name x, m.get? name = some x → ∃ y, f name x = .ok y := by
  have failed : (∃ fault, m.traverse f = .error fault) ↔ ∃ e ∈ m.entries, ∃ fault, f e.1 e.2 = .error fault := by
    simp only [traverse_eq_error_iff, traverseEntries_eq_mapM, mapM_eq_error, map_eq_error]
    rw [← exists_isFirst_iff]
    constructor
    · rintro ⟨fault, e, first, -⟩
      exact ⟨e, first⟩
    · rintro ⟨e, first⟩
      obtain ⟨fault, fails⟩ := first.has
      exact ⟨fault, e, first, fails⟩
  rw [exists_eq_ok_iff, failed]
  push Not
  constructor
  · intro reads name x found
    exact exists_eq_ok_iff.2 fun ⟨fault, fails⟩ => reads (name, x) (mem_entries_iff.2 found) fault fails
  · rintro reads ⟨name, x⟩ member fault fails
    obtain ⟨y, read⟩ := reads name x (mem_entries_iff.1 member)
    cases read.symm.trans fails

/-- A traversal gives the map that has, under the same names, what is read of each payload. -/
theorem traverse_eq_ok_iff_get? :
    m.traverse f = .ok n ↔
      n.keys = m.keys ∧ ∀ name x, m.get? name = some x → ∃ y, n.get? name = some y ∧ f name x = .ok y := by
  constructor
  · intro run
    obtain ⟨sameKeys, from_⟩ := traverse_eq_ok run
    refine ⟨sameKeys, fun name x found => ?_⟩
    obtain ⟨y, found'⟩ := mem_keys_iff.1 (sameKeys ▸ mem_keys_of_get? found : name ∈ n.keys)
    obtain ⟨x', isX, read⟩ := from_ name y found'
    obtain rfl : x = x' := Option.some.inj (found.symm.trans isX)
    exact ⟨y, found', read⟩
  · rintro ⟨sameKeys, reads⟩
    obtain ⟨n', run⟩ := exists_traverse_iff.2 fun name x found => (reads name x found).imp fun _ => And.right
    obtain ⟨sameKeys', from_⟩ := traverse_eq_ok run
    have same : n' = n := by
      refine ext_get? fun name => ?_
      cases found : n'.get? name with
      | none =>
          have absent : name ∉ n.keys := by
            rw [sameKeys, ← sameKeys']
            exact get?_eq_none_iff.1 found
          exact (get?_eq_none_iff.2 absent).symm
      | some y =>
          obtain ⟨x, isX, read⟩ := from_ name y found
          obtain ⟨y', found', read'⟩ := reads name x isX
          rw [found', Except.ok.inj (read.symm.trans read')]
    rw [run, same]

/-- A traversal fails with the error of the smallest name whose payload is not read. -/
theorem traverse_eq_error_iff_get? {fault : ε} :
    m.traverse f = .error fault ↔
      ∃ name x, m.get? name = some x ∧ f name x = .error fault ∧
        ∀ other x', m.get? other = some x' → other < name → ∃ y, f other x' = .ok y := by
  simp only [traverse_eq_error_iff, traverseEntries_eq_mapM, mapM_eq_error, map_eq_error]
  have asymm : ∀ a b : String × α, a.1 < b.1 → ¬ b.1 < a.1 := fun _ _ => String.lt_asymm
  simp only [isFirst_iff_of_pairwise asymm m.ascending]
  constructor
  · rintro ⟨⟨name, x⟩, ⟨member, -, smallest⟩, fails⟩
    refine ⟨name, x, mem_entries_iff.1 member, fails, fun other x' found below => ?_⟩
    rw [exists_eq_ok_iff]
    exact fun failsToo => smallest (other, x') (mem_entries_iff.2 found) failsToo below
  · rintro ⟨name, x, found, fails, readBelow⟩
    refine ⟨(name, x), ⟨mem_entries_iff.2 found, ⟨fault, fails⟩, ?_⟩, fails⟩
    rintro ⟨other, x'⟩ member ⟨fault', fails'⟩ below
    obtain ⟨y, read⟩ := readBelow other x' (mem_entries_iff.1 member) below
    cases read.symm.trans fails'

end Traversals

end NameMap

/-! ## Sets of names -/

namespace NameSet

open NameMap

theorem mem_keys_addAll {s : NameSet} {names : List String} {name : String} :
    name ∈ keys (addAll s names) ↔ name ∈ names ∨ name ∈ keys s := by
  have built : addAll s names = insertAll s (names.map fun n => (n, ())) := by
    rw [insertAll, List.foldl_map]
    rfl
  rw [built, mem_keys_insertAll]
  simp

theorem mem_keys_ofNames {names : List String} {name : String} :
    name ∈ keys (ofNames names) ↔ name ∈ names := by
  rw [ofNames, mem_keys_addAll]
  simp

theorem mem_keys_union {s t : NameSet} {name : String} :
    name ∈ keys (NameSet.union s t) ↔ name ∈ keys s ∨ name ∈ keys t := by
  rw [NameSet.union, mem_keys_addAll, or_comm]

theorem ext_keys {s t : NameSet} (same : ∀ name, name ∈ keys s ↔ name ∈ keys t) : s = t := by
  refine ext_get? fun name => ?_
  cases found : NameMap.get? s name with
  | none => exact (get?_eq_none_iff.2 fun member => get?_eq_none_iff.1 found ((same name).2 member)).symm
  | some x =>
      obtain ⟨y, found'⟩ := NameMap.mem_keys_iff.1 ((same name).1 (mem_keys_of_get? found))
      rw [found']

theorem union_assoc (s t u : NameSet) :
    NameSet.union (NameSet.union s t) u = NameSet.union s (NameSet.union t u) :=
  ext_keys fun name => by simp only [mem_keys_union, or_assoc]

theorem union_comm (s t : NameSet) : NameSet.union s t = NameSet.union t s :=
  ext_keys fun name => by simp only [mem_keys_union, or_comm]

theorem union_self (s : NameSet) : NameSet.union s s = s :=
  ext_keys fun name => by simp only [mem_keys_union, or_self]

theorem mem_keys_inter {s t : NameSet} {name : String} :
    name ∈ keys (NameSet.inter s t) ↔ name ∈ keys s ∧ name ∈ keys t := by
  simp only [keys, NameSet.inter, List.mem_map, List.mem_filter, contains_iff]
  constructor
  · rintro ⟨e, ⟨inS, inT⟩, rfl⟩
    exact ⟨⟨e, inS, rfl⟩, by simpa [keys] using inT⟩
  · rintro ⟨⟨e, inS, rfl⟩, inT⟩
    exact ⟨e, ⟨inS, by simpa [keys] using inT⟩, rfl⟩

end NameSet

end PartCatalog
