/-
# Combinations -- the cross product of value domains, one by one

A `Combinations` is a counter with one wheel for each domain; the last wheel turns
fastest. `next?` gives the combination the wheels show and turns them by one;
`crossProduct` is the list of all combinations in the same order. Counting is done
in 64 bits and stops at the largest number there.
-/
import PartCatalog.Value

set_option autoImplicit false

namespace PartCatalog

/-- All lists with one member from each domain; the last position varies fastest. -/
def crossProduct : List (List Value) → List (List Value)
  | [] => [[]]
  | domain :: domains => domain.flatMap fun v => (crossProduct domains).map (v :: ·)

/-- The combinations of the domains from the one that the cursor shows onwards. -/
structure Combinations where
  domains : List (List Value)
  cursor : List Nat
  exhausted : Bool

namespace Combinations

/-- The largest count. -/
def maxCount : Nat := Nat.pow 2 64 - 1

/-- A product that stops at the largest count. -/
def satMul (a b : Nat) : Nat := min (a * b) maxCount

/-- A sum that stops at the largest count. -/
def satAdd (a b : Nat) : Nat := min (a + b) maxCount

/-- All combinations of the domains. -/
def ofDomains (domains : List (List Value)) : Combinations where
  domains := domains
  cursor := domains.map fun _ => 0
  exhausted := domains.any List.isEmpty

/-- The combination that the cursor shows. -/
def current (c : Combinations) : List Value :=
  List.zipWith (fun domain pos => domain.getD pos .absent) c.domains c.cursor

/-- Turn the last wheel by one, and each wheel before it when the ones after it
have all come round; the answer says whether every wheel came round. -/
def turn : List (List Value) → List Nat → List Nat × Bool
  | domain :: domains, pos :: rest =>
    match turn domains rest with
    | (rest', false) => (pos :: rest', false)
    | (rest', true) =>
      if pos + 1 < domain.length then ((pos + 1) :: rest', false) else (0 :: rest', true)
  | _, _ => ([], true)

/-- The next combination, and the combinations after it. -/
def next? (c : Combinations) : Option (List Value × Combinations) :=
  if c.exhausted then none
  else
    let (cursor, exhausted) := turn c.domains c.cursor
    some (c.current, { c with cursor, exhausted })

/-- The next combinations, at most `n`, and what is left. -/
def take : Nat → Combinations → List (List Value) × Combinations
  | 0, c => ([], c)
  | n + 1, c =>
    match c.next? with
    | none => ([], c)
    | some (v, c') =>
      let (vs, rest) := take n c'
      (v :: vs, rest)

/-- Count the combinations in all and those before the cursor, wheel by wheel. -/
def counts : List (List Value) → List Nat → Nat × Nat → Nat × Nat
  | domain :: domains, pos :: rest, (total, consumed) =>
    counts domains rest
      (satMul total domain.length, satAdd (satMul consumed domain.length) pos)
  | _, _, acc => acc

/-- The number of combinations still to come. -/
def remaining (c : Combinations) : Nat :=
  if c.exhausted then 0
  else
    let (total, consumed) := counts c.domains c.cursor (1, 0)
    total - consumed

/-- The least and the greatest number of combinations that may be to come. The count
is taken for exact, so both are the count. -/
def sizeHint (c : Combinations) : Nat × Option Nat := (c.remaining, some c.remaining)

end Combinations

end PartCatalog
