/-
# The odometer -- a counter that runs through the cross product

`onwards` lists the combinations from the one that the wheels of a counter show.  Turning
the wheels drops the first of them, and comes all the way round when it was the last
(`onwards_eq_cons`).  So what a counter has to come (`pending`) gets shorter by one with each
step (`next?_of_pending_cons`), and a new counter gives the cross product of its domains
from the beginning (`take_ofDomains`).
-/
import Mathlib.Data.List.GetD
import PartCatalog.Combinations
import PartCatalog.Proofs.Outcome

set_option autoImplicit false

namespace PartCatalog.Combinations

open Outcome

/-! ## The wheels -/

/-- The combinations from the one that the wheels show onwards: the wheels behind the
first run out, then the first one moves on and they begin again. -/
def onwards : List (List Value) → List Nat → List (List Value)
  | domain :: domains, pos :: rest =>
      (onwards domains rest).map (domain.getD pos .absent :: ·) ++
        (domain.drop (pos + 1)).flatMap fun v => (crossProduct domains).map (v :: ·)
  | _, _ => [[]]

/-- The wheels all the way back. -/
def zeros (domains : List (List Value)) : List Nat := domains.map fun _ => 0

/-- What the wheels show. -/
def shown (domains : List (List Value)) (cursor : List Nat) : List Value :=
  List.zipWith (fun domain pos => domain.getD pos .absent) domains cursor

/-- Whether every wheel shows a member of its domain. -/
def InRange (domains : List (List Value)) (cursor : List Nat) : Prop :=
  List.Forall₂ (fun domain pos => pos < domain.length) domains cursor

theorem inRange_zeros {domains : List (List Value)} (full : ∀ domain ∈ domains, domain ≠ []) :
    InRange domains (zeros domains) := by
  induction domains with
  | nil => exact .nil
  | cons domain domains ih =>
      refine .cons (List.length_pos_iff.2 (full domain List.mem_cons_self)) (ih fun other member => ?_)
      exact full other (List.mem_cons_of_mem _ member)

theorem onwards_zeros {domains : List (List Value)} (full : ∀ domain ∈ domains, domain ≠ []) :
    onwards domains (zeros domains) = crossProduct domains := by
  induction domains with
  | nil => rfl
  | cons domain domains ih =>
      have rest := ih fun other member => full other (List.mem_cons_of_mem _ member)
      have some_member := full domain List.mem_cons_self
      cases domain with
      | nil => exact absurd rfl some_member
      | cons v vs =>
          show (onwards domains (zeros domains)).map _ ++ _ = _
          rw [rest]
          rfl

theorem full_of_inRange {domains : List (List Value)} {cursor : List Nat}
    (inRange : InRange domains cursor) : ∀ domain ∈ domains, domain ≠ [] := by
  intro domain member empty
  subst empty
  obtain ⟨pos, -, below⟩ := exists_left_of_forall₂ inRange.flip [] member
  exact absurd below (Nat.not_lt_zero pos)

theorem drop_eq_cons {domain : List Value} {pos : Nat} (below : pos < domain.length) :
    domain.drop pos = domain.getD pos .absent :: domain.drop (pos + 1) := by
  rw [List.getD_eq_getElem _ _ below]
  exact List.drop_eq_getElem_cons below

/-- The wheels come round exactly when they show the last combination, and otherwise go on
to the next one. -/
theorem onwards_eq_cons {domains : List (List Value)} {cursor : List Nat}
    (inRange : InRange domains cursor) :
    InRange domains (turn domains cursor).1 ∧
      onwards domains cursor = shown domains cursor ::
        (if (turn domains cursor).2 then [] else onwards domains (turn domains cursor).1) ∧
      ((turn domains cursor).2 = true → (turn domains cursor).1 = zeros domains) := by
  -- On the wheels. A wheel moves only when all behind it have come round.
  induction inRange with
  | nil => exact ⟨.nil, rfl, fun _ => rfl⟩
  | @cons domain pos domains cursor below inRange ih =>
      obtain ⟨inRange', shows, back⟩ := ih
      have again := onwards_zeros (full_of_inRange inRange)
      rw [onwards, turn]
      cases turned : turn domains cursor with
      | mk cursor' round =>
          rw [turned] at inRange' shows back
          cases round with
          | false =>
              refine ⟨.cons below inRange', ?_, fun round => by cases round⟩
              rw [shows]
              rfl
          | true =>
              obtain rfl := back rfl
              by_cases more : pos + 1 < domain.length
              · rw [shows, drop_eq_cons more]
                simp only [more, if_true]
                refine ⟨.cons more inRange', ?_, fun round => by cases round⟩
                show _ = shown (domain :: domains) (pos :: cursor) :: onwards _ _
                rw [onwards, again]
                rfl
              · rw [shows, List.drop_eq_nil_of_le (Nat.le_of_not_lt more)]
                simp only [more, if_false]
                refine ⟨.cons (Nat.zero_lt_of_lt below) inRange', rfl, fun _ => rfl⟩

/-! ## The counter -/

/-- The combinations that a counter has to come. -/
def pending (c : Combinations) : List (List Value) :=
  if c.exhausted then [] else onwards c.domains c.cursor

/-- Whether the wheels of a counter show members of its domains, as long as it has a
combination to come. -/
def Valid (c : Combinations) : Prop := c.exhausted = false → InRange c.domains c.cursor

theorem next?_of_pending_nil {c : Combinations} (valid : c.Valid) (done : c.pending = []) :
    c.next? = none := by
  unfold pending at done
  unfold next?
  cases exhausted : c.exhausted with
  | true => rfl
  | false =>
      rw [exhausted] at done
      rw [(onwards_eq_cons (valid exhausted)).2.1] at done
      cases done

/-- A step gives the first of the combinations to come, and the others are still to come. -/
theorem next?_of_pending_cons {c : Combinations} (valid : c.Valid) {combo : List Value}
    {rest : List (List Value)} (first : c.pending = combo :: rest) :
    ∃ c', c.next? = some (combo, c') ∧ c'.Valid ∧ c'.pending = rest := by
  unfold pending at first
  unfold next?
  cases exhausted : c.exhausted with
  | true =>
      rw [exhausted] at first
      cases first
  | false =>
      obtain ⟨inRange', shows, -⟩ := onwards_eq_cons (valid exhausted)
      rw [exhausted] at first
      rw [shows] at first
      obtain ⟨rfl, rfl⟩ := List.cons.inj first
      exact ⟨_, rfl, fun _ => inRange', rfl⟩

/-- **The run of a counter.**  Some steps give as many of the combinations to come, from
the beginning. -/
theorem take_eq {c : Combinations} (valid : c.Valid) (n : Nat) :
    (take n c).1 = c.pending.take n := by
  induction n generalizing c with
  | zero => rfl
  | succ n ih =>
      rw [take]
      cases to_come : c.pending with
      | nil =>
          rw [next?_of_pending_nil valid to_come]
          rfl
      | cons combo rest =>
          obtain ⟨c', step, valid', still⟩ := next?_of_pending_cons valid to_come
          rw [step, List.take_succ_cons, ← still, ← ih valid']

theorem valid_ofDomains (domains : List (List Value)) : (ofDomains domains).Valid := by
  intro not_exhausted
  refine inRange_zeros fun domain member empty => ?_
  have exhausted : domains.any List.isEmpty = true :=
    List.any_eq_true.2 ⟨domain, member, List.isEmpty_iff.2 empty⟩
  rw [ofDomains, exhausted] at not_exhausted
  cases not_exhausted

theorem crossProduct_eq_nil {domains : List (List Value)} (empty : [] ∈ domains) :
    crossProduct domains = [] := by
  induction domains with
  | nil => cases empty
  | cons domain domains ih =>
      rw [crossProduct]
      rcases List.mem_cons.1 empty with rfl | empty
      · rfl
      · rw [ih empty]
        simp

theorem pending_ofDomains (domains : List (List Value)) :
    (ofDomains domains).pending = crossProduct domains := by
  unfold pending
  split
  · next exhausted =>
    obtain ⟨domain, member, empty⟩ := List.any_eq_true.1 (exhausted : domains.any List.isEmpty = true)
    rw [List.isEmpty_iff.1 empty] at member
    rw [crossProduct_eq_nil member]
  · next not_exhausted =>
    refine onwards_zeros fun domain member empty => not_exhausted ?_
    exact List.any_eq_true.2 ⟨domain, member, List.isEmpty_iff.2 empty⟩

/-- A new counter gives the cross product of its domains, from the beginning. -/
theorem take_ofDomains (domains : List (List Value)) (n : Nat) :
    (take n (ofDomains domains)).1 = (crossProduct domains).take n := by
  rw [take_eq (valid_ofDomains domains), pending_ofDomains]

end PartCatalog.Combinations
