/-
# Mixed radix -- which combination a call gives, and how many are to come

The wheels of a counter spell a number in a mixed radix, the last wheel for the units: its
`place` in the cross product, counted from the front.  What is to come together with that
place makes up the `size` of the cross product (`place_add_length_onwards`), so after `k`
calls the wheels spell `k`, and the next call gives the combination whose positions are the
digits of `k` (`combination_of_call`).  `remaining` works out the size and the place again,
both cut off at the largest count (`counts_eq`), and takes one from the other.  That is what is
to come as long as the size can be counted.  Beyond that it is too little after the first
call and before the last (`remaining_after_calls`), even by one where what is to come could
still be counted (`remaining_after_calls_refuted`).
-/
import Mathlib.Algebra.Group.Nat.Defs
import Mathlib.Logic.Function.Iterate
import PartCatalog.Proofs.Odometer

set_option autoImplicit false

namespace PartCatalog.Combinations

variable {domains : List (List Value)} {cursor : List Nat}

/-! ## Calls -/

/-- The counter after a call. A counter with nothing to come stays as it is. -/
def advance (c : Combinations) : Combinations := (c.next?.map (·.2)).getD c

/-- The counter after some calls. -/
def after (k : Nat) (c : Combinations) : Combinations := Nat.iterate advance k c

theorem item_eq_head? {c : Combinations} (valid : c.Valid) :
    c.next?.map (·.1) = c.pending.head? := by
  cases to_come : c.pending with
  | nil => rw [next?_of_pending_nil valid to_come]; rfl
  | cons combo rest =>
      obtain ⟨c', step, -⟩ := next?_of_pending_cons valid to_come
      rw [step]
      rfl

theorem domains_advance (c : Combinations) : c.advance.domains = c.domains := by
  unfold advance next?
  split <;> rfl

/-- A call takes away the first of the combinations to come. -/
theorem pending_advance {c : Combinations} (valid : c.Valid) :
    c.advance.Valid ∧ c.advance.pending = c.pending.tail := by
  unfold advance
  cases to_come : c.pending with
  | nil =>
      rw [next?_of_pending_nil valid to_come]
      exact ⟨valid, to_come⟩
  | cons combo rest =>
      obtain ⟨c', step, valid', still⟩ := next?_of_pending_cons valid to_come
      rw [step]
      exact ⟨valid', still⟩

/-- The state of a new counter after some calls. -/
theorem after_ofDomains (domains : List (List Value)) (k : Nat) :
    (after k (ofDomains domains)).Valid ∧ (after k (ofDomains domains)).domains = domains ∧
      (after k (ofDomains domains)).pending = (crossProduct domains).drop k := by
  induction k with
  | zero => exact ⟨valid_ofDomains domains, rfl, pending_ofDomains domains⟩
  | succ k ih =>
      obtain ⟨valid, sameDomains, still⟩ := ih
      have step : after (k + 1) (ofDomains domains) = (after k (ofDomains domains)).advance :=
        Function.iterate_succ_apply' advance k _
      obtain ⟨valid', rest⟩ := pending_advance valid
      rw [step, domains_advance, rest, still, List.tail_drop]
      exact ⟨valid', sameDomains, rfl⟩

/-! ## Places -/

/-- The number of combinations. -/
def size (domains : List (List Value)) : Nat := (domains.map List.length).prod

theorem size_cons (domain : List Value) (domains : List (List Value)) :
    size (domain :: domains) = domain.length * size domains := List.prod_cons

theorem size_eq_take_mul_drop (domains : List (List Value)) (i : Nat) :
    size domains = size (domains.take i) * size (domains.drop i) := by
  rw [size, size, size, ← List.prod_append, ← List.map_append, List.take_append_drop]

theorem length_crossProduct (domains : List (List Value)) :
    (crossProduct domains).length = size domains := by
  induction domains with
  | nil => rfl
  | cons domain domains ih => simp [crossProduct, List.length_flatMap, size_cons, ih]

/-- The number that the wheels spell. -/
def place : List (List Value) → List Nat → Nat
  | _ :: domains, pos :: rest => pos * size domains + place domains rest
  | _, _ => 0

/-- The wheels spell how many combinations come before the one that they show. -/
theorem place_add_length_onwards (inRange : InRange domains cursor) :
    place domains cursor + (onwards domains cursor).length = size domains := by
  induction inRange with
  | nil => rfl
  | @cons domain pos domains cursor below _ ih =>
      obtain ⟨more, wheel⟩ := Nat.exists_eq_add_of_le (Nat.succ_le_of_lt below)
      have behind : (onwards (domain :: domains) (pos :: cursor)).length =
          (onwards domains cursor).length + more * size domains := by
        simp [onwards, List.length_flatMap, length_crossProduct, wheel]
      calc place (domain :: domains) (pos :: cursor) + (onwards (domain :: domains) (pos :: cursor)).length
          = pos * size domains + (place domains cursor + (onwards domains cursor).length) +
              more * size domains := by rw [place, behind]; omega
        _ = size (domain :: domains) := by rw [ih, size_cons, wheel, Nat.add_mul, Nat.succ_mul]

/-! ## Digits -/

/-- Each member of a domain stands before all the tails before the next member does. -/
theorem getElem?_flatMap_map (domain : List Value) {tails : List (List Value)} (some_tail : 0 < tails.length)
    (k : Nat) : (domain.flatMap fun v => tails.map (v :: ·))[k]? =
      domain[k / tails.length]?.bind fun v => tails[k % tails.length]?.map (v :: ·) := by
  induction domain generalizing k with
  | nil => rfl
  | cons v domain ih =>
      rw [List.flatMap_cons]
      by_cases here : k < tails.length
      · rw [List.getElem?_append_left (by rwa [List.length_map]), Nat.div_eq_of_lt here,
          Nat.mod_eq_of_lt here]
        simp
      · have later : tails.length ≤ k := Nat.le_of_not_lt here
        rw [List.getElem?_append_right (by rwa [List.length_map]), List.length_map, ih,
          Nat.div_eq_sub_div some_tail later, Nat.mod_eq_sub_mod later, List.getElem?_cons_succ]

/-- The digit of a place at a wheel that has others behind it. -/
def digit (domains : List (List Value)) (i k : Nat) : Nat :=
  k / size (domains.drop (i + 1)) % (domains.getD i []).length

theorem digit_mod {domains : List (List Value)} {i : Nat} (isWheel : i < domains.length) (k : Nat) :
    digit domains i (k % size domains) = digit domains i k := by
  have split : size domains =
      size (domains.drop (i + 1)) * (domains[i].length * size (domains.take i)) := by
    rw [size_eq_take_mul_drop domains i, List.drop_eq_getElem_cons isWheel, size_cons]
    ac_rfl
  rw [digit, digit, List.getD_eq_getElem _ _ isWheel, split, Nat.mod_mul_right_div_self,
    Nat.mod_mul_right_mod]

/-- The combinations in their order: the last position varies fastest. -/
theorem getElem?_crossProduct {k : Nat} (below : k < size domains) :
    ∃ combo, (crossProduct domains)[k]? = some combo ∧ combo.length = domains.length ∧
      ∀ i domain, domains[i]? = some domain → combo[i]? = domain[digit domains i k]? := by
  induction domains generalizing k with
  | nil =>
      obtain rfl : k = 0 := Nat.lt_one_iff.1 below
      exact ⟨[], rfl, rfl, fun i domain found => by cases found⟩
  | cons domain domains ih =>
      rw [size_cons] at below
      have positive : 0 < size domains := Nat.pos_of_mul_pos_left (Nat.zero_lt_of_lt below)
      have first : k / size domains < domain.length := (Nat.div_lt_iff_lt_mul positive).2 below
      obtain ⟨tail, found, sameLength, digits⟩ := ih (Nat.mod_lt k positive)
      refine ⟨domain[k / size domains] :: tail, ?_, by rw [List.length_cons, List.length_cons, sameLength],
        fun i wheel isWheel => ?_⟩
      · rw [crossProduct, getElem?_flatMap_map domain (by rwa [length_crossProduct]), length_crossProduct,
          List.getElem?_eq_getElem first, found]
        rfl
      · cases i with
        | zero =>
            obtain rfl : domain = wheel := Option.some.inj isWheel
            rw [digit, List.drop_one, List.tail_cons, List.getD_cons_zero, Nat.mod_eq_of_lt first,
              List.getElem?_eq_getElem first]
            rfl
        | succ i =>
            rw [List.getElem?_cons_succ] at isWheel ⊢
            obtain ⟨inDomains, -⟩ := List.getElem?_eq_some_iff.1 isWheel
            rw [digits i wheel isWheel, digit_mod inDomains]
            rfl

/-! ## Counting in 64 bits -/

theorem satMul_min (a b : Nat) : satMul (min a maxCount) b = min (a * b) maxCount := by
  unfold satMul
  rcases Nat.le_total a maxCount with counted | beyond
  · rw [Nat.min_eq_left counted]
  · rw [Nat.min_eq_right beyond]
    cases b with
    | zero => simp
    | succ b =>
        have more : maxCount ≤ maxCount * (b + 1) := Nat.le_mul_of_pos_right _ b.succ_pos
        rw [Nat.min_eq_right more, Nat.min_eq_right (Nat.le_trans more (Nat.mul_le_mul_right _ beyond))]

theorem satAdd_min (a b : Nat) : satAdd (min a maxCount) b = min (a + b) maxCount := by
  unfold satAdd
  omega

/-- The count gives the number of combinations and the number that the wheels spell, each
cut off at the largest count. -/
theorem counts_eq (inRange : InRange domains cursor) (total consumed : Nat) :
    counts domains cursor (min total maxCount, min consumed maxCount) =
      (min (total * size domains) maxCount,
        min (consumed * size domains + place domains cursor) maxCount) := by
  induction inRange generalizing total consumed with
  | nil => simp [counts, size, place]
  | @cons domain pos domains cursor _ _ ih =>
      rw [counts, satMul_min, satMul_min, satAdd_min, ih, size_cons, place]
      congr 2
      · rw [Nat.mul_assoc]
      · rw [Nat.add_mul, Nat.mul_assoc, Nat.add_assoc]

/-- Whether a count goes through without a product or a sum beyond the largest count. -/
def Unclamped : List (List Value) → List Nat → Nat × Nat → Prop
  | domain :: domains, pos :: rest, (total, consumed) =>
      total * domain.length ≤ maxCount ∧ consumed * domain.length ≤ maxCount ∧
        consumed * domain.length + pos ≤ maxCount ∧
        Unclamped domains rest (total * domain.length, consumed * domain.length + pos)
  | _, _, _ => True

/-- At each wheel fewer combinations have been counted as come than in all, and those are
no more than there are with the wheels behind. -/
theorem unclamped_of_le (inRange : InRange domains cursor) {total consumed : Nat}
    (fewer : consumed < total) (counted : total * size domains ≤ maxCount) :
    Unclamped domains cursor (total, consumed) := by
  induction inRange generalizing total consumed with
  | nil => trivial
  | @cons domain pos domains cursor below inRange ih =>
      have positive : 0 < size domains := by
        have := place_add_length_onwards inRange
        rw [(onwards_eq_cons inRange).2.1, List.length_cons] at this
        omega
      rw [size_cons, ← Nat.mul_assoc] at counted
      have inAll : total * domain.length ≤ maxCount :=
        Nat.le_trans (Nat.le_mul_of_pos_right _ positive) counted
      have fewer' : consumed * domain.length + pos < total * domain.length :=
        calc consumed * domain.length + pos
            < (consumed + 1) * domain.length := by rw [Nat.succ_mul]; omega
          _ ≤ total * domain.length := Nat.mul_le_mul_right _ fewer
      exact ⟨inAll, by omega, by omega, ih fewer' counted⟩

/-- What is left of the wheels of a new counter after some calls. -/
theorem place_after {k : Nat} (running : (after k (ofDomains domains)).exhausted = false) :
    InRange domains (after k (ofDomains domains)).cursor ∧
      place domains (after k (ofDomains domains)).cursor = k ∧ k < size domains := by
  obtain ⟨valid, sameDomains, still⟩ := after_ofDomains domains k
  have inRange := valid running
  rw [sameDomains] at inRange
  rw [pending, running, sameDomains, if_neg Bool.false_ne_true] at still
  have whole := place_add_length_onwards inRange
  have some_left := congrArg List.length (onwards_eq_cons inRange).2.1
  rw [still, List.length_drop, length_crossProduct] at whole some_left
  rw [List.length_cons] at some_left
  exact ⟨inRange, by omega, by omega⟩

theorem size_le_of_exhausted {k : Nat} (exhausted : (after k (ofDomains domains)).exhausted = true) :
    size domains ≤ k := by
  have still := (after_ofDomains domains k).2.2
  rw [pending, exhausted, if_pos rfl, eq_comm, List.drop_eq_nil_iff, length_crossProduct] at still
  exact still

/-- The size of the cross product and the number of calls are cut off each for itself. -/
theorem remaining_after (domains : List (List Value)) (k : Nat) :
    (after k (ofDomains domains)).remaining = min (size domains) maxCount - min k maxCount := by
  unfold remaining
  cases state : (after k (ofDomains domains)).exhausted with
  | true =>
      have none_left := size_le_of_exhausted state
      rw [if_pos rfl]
      omega
  | false =>
      obtain ⟨inRange, isPlace, -⟩ := place_after state
      have counted := counts_eq inRange 1 0
      rw [if_neg Bool.false_ne_true, (after_ofDomains domains k).2.1]
      rw [Nat.one_mul, Nat.zero_mul, Nat.zero_add, isPlace] at counted
      exact congrArg (fun c : Nat × Nat => c.1 - c.2) counted

/-! ## Calls in their order -/

/-- **Which combination a call gives.**  The call after `k` others gives the combination whose
positions are the digits of `k` in the mixed radix of the domains, and nothing once there have
been as many as there are combinations.  As long as those can be counted, what is to come is
counted exactly, and nothing is cut off on the way. -/
theorem combination_of_call (domains : List (List Value)) :
    (∀ k < size domains, ∃ combo, (after k (ofDomains domains)).next?.map (·.1) = some combo ∧
      combo.length = domains.length ∧
      ∀ i domain, domains[i]? = some domain → combo[i]? = domain[digit domains i k]?) ∧
    (∀ k, size domains ≤ k → (after k (ofDomains domains)).next? = none) ∧
    (size domains ≤ maxCount → ∀ k,
      let c := after k (ofDomains domains)
      c.remaining = size domains - k ∧ c.sizeHint = (size domains - k, some (size domains - k)) ∧
        (c.exhausted = false → Unclamped c.domains c.cursor (1, 0))) := by
  refine ⟨fun k below => ?_, fun k through => ?_, fun countable k => ?_⟩
  · obtain ⟨valid, -, still⟩ := after_ofDomains domains k
    obtain ⟨combo, found, digits⟩ := getElem?_crossProduct below
    refine ⟨combo, ?_, digits⟩
    rw [item_eq_head? valid, still, List.head?_drop, found]
  · obtain ⟨valid, -, still⟩ := after_ofDomains domains k
    refine next?_of_pending_nil valid ?_
    rw [still, List.drop_eq_nil_iff, length_crossProduct]
    exact through
  · have exact_count : (after k (ofDomains domains)).remaining = size domains - k := by
      rw [remaining_after]
      omega
    refine ⟨exact_count, by rw [sizeHint, exact_count], fun running => ?_⟩
    rw [(after_ofDomains domains k).2.1]
    exact unclamped_of_le (place_after running).1 Nat.zero_lt_one (by rwa [Nat.one_mul])

/-- The fourth of six combinations is the first one with the second size. -/
example : (after 3 (ofDomains [[.text "M3", .text "M4"], [.bool true, .bool false, .absent]])).next?.map
    (·.1) = some [.text "M4", .bool true] := rfl

/-- **What a counter says is to come.**  The size of the cross product and the number of calls
are cut off each for itself at the largest count.  What is to come, cut off itself, is the
difference exactly if the size can be counted, no call has been made, or nothing is to come. -/
theorem remaining_after_calls (domains : List (List Value)) (k : Nat) :
    let c := after k (ofDomains domains)
    c.remaining = min (size domains) maxCount - min k maxCount ∧
      c.sizeHint = (c.remaining, some c.remaining) ∧
      (c.remaining = min (size domains - k) maxCount ↔
        size domains ≤ maxCount ∨ k = 0 ∨ size domains ≤ k) := by
  have positive : 0 < maxCount := by decide
  refine ⟨remaining_after domains k, rfl, ?_⟩
  rw [remaining_after]
  omega

namespace Example

/-- As many switches as there are bits in a count. -/
def switches : List (List Value) := List.replicate 64 [.bool true, .bool false]

theorem size_switches : size switches = maxCount + 1 := by decide

end Example

/-- One more combination than can be counted: after the first call the others can be, but one
of them is left out. -/
theorem remaining_after_calls_refuted :
    size Example.switches - 1 = maxCount ∧
      (after 1 (ofDomains Example.switches)).remaining = maxCount - 1 ∧
      (after 1 (ofDomains Example.switches)).sizeHint = (maxCount - 1, some (maxCount - 1)) ∧
      (after 1 (ofDomains Example.switches)).remaining ≠ min (size Example.switches - 1) maxCount := by
  have short : (after 1 (ofDomains Example.switches)).remaining = maxCount - 1 := by
    rw [remaining_after, Example.size_switches]
    decide
  refine ⟨by rw [Example.size_switches]; rfl, short, by rw [sizeHint, short], ?_⟩
  rw [short, Example.size_switches]
  decide

end PartCatalog.Combinations
