/-
# Patterns -- what a search finds that tries the longest runs first

A pattern says what a text consists of: single characters, runs, parts that may be absent, and
numbered groups whose characters are wanted.  `Pattern.ways` is the search: all ways to match the
beginning of a text, in the order in which they are tried, the longest run first.  `Pattern.Takes`
is what the pattern says, with no order in it, and the search finds these ways and no others
(`mem_ways_iff`).

For a pattern that has to match a text from beginning to end the first way that leaves nothing
counts (`whole?`).  There is one if the pattern takes the text at all (`whole?_eq_none_iff`), and
which one is first does not matter where all of them have the same groups (`captured_of_unique`).

A pattern that may match anywhere is tried at one start after the other, and the first way at the
first start that has one counts (`search?`).  There is none if the pattern takes no part of the
text (`search?_eq_none`).  Which way is first at a start is told part by part: a run goes as far as
it can (`exists_ways_many`), and so does a sequence if what follows can go on from there (`ways_seq`).
-/
import Mathlib.Data.List.Infix
import Mathlib.Data.List.TakeWhile

set_option autoImplicit false

namespace PartCatalog

/-- A pattern over characters. -/
inductive Pattern where
  | one (fits : Char → Bool)
  | many (fits : Char → Bool)
  | seq (first second : Pattern)
  | optional (inner : Pattern)
  | group (number : Nat) (inner : Pattern)

namespace Pattern

/-- Groups that took part in a match, by their numbers and with their characters, the last first. -/
abbrev Groups : Type := List (Nat × List Char)

/-- A match of the beginning of a text: the characters taken, the groups that took part, and the
characters left. -/
structure Match where
  taken : List Char
  groups : Groups
  rest : List Char
deriving DecidableEq

namespace Match

/-- The match that takes nothing. -/
def empty (cs : List Char) : Match := ⟨[], [], cs⟩

/-- One match after another. -/
def append (m n : Match) : Match := ⟨m.taken ++ n.taken, n.groups ++ m.groups, n.rest⟩

/-- The characters of a group, the last time it took part. -/
def group? (m : Match) (number : Nat) : Option (List Char) := m.groups.lookup number

end Match

/-! ## The search -/

/-- The runs of fitting characters at the beginning of a text, the longest first. -/
def runs (fits : Char → Bool) : List Char → List Match
  | [] => [.empty []]
  | c :: cs =>
    if fits c then (runs fits cs).map (Match.append ⟨[c], [], cs⟩) ++ [.empty (c :: cs)]
    else [.empty (c :: cs)]

/-- The ways to match the beginning of a text, in the order in which they are tried. -/
def ways : Pattern → List Char → List Match
  | one _, [] => []
  | one fits, c :: cs => if fits c then [⟨[c], [], cs⟩] else []
  | many fits, cs => runs fits cs
  | seq first second, cs => (first.ways cs).flatMap fun m => (second.ways m.rest).map m.append
  | optional inner, cs => inner.ways cs ++ [.empty cs]
  | group number inner, cs =>
    (inner.ways cs).map fun m => { m with groups := (number, m.taken) :: m.groups }

/-- The first way to match a text from beginning to end. -/
def whole? (pattern : Pattern) (cs : List Char) : Option Match :=
  (pattern.ways cs).find? fun m => m.rest.isEmpty

/-- A group of that match. -/
def captured (pattern : Pattern) (number : Nat) (cs : List Char) : Option (List Char) :=
  (pattern.whole? cs).bind (·.group? number)

/-- The first way to match a part of a text, at the first start that has one. -/
def search? (pattern : Pattern) (cs : List Char) : Option Match :=
  (cs.tails.flatMap pattern.ways).head?

/-! ## What a pattern takes -/

/-- Whether a pattern takes some characters, with the groups that take part. -/
inductive Takes : Pattern → List Char → Groups → Prop where
  | one {fits : Char → Bool} {c : Char} (isFit : fits c = true) : Takes (.one fits) [c] []
  | many {fits : Char → Bool} {cs : List Char} (areFit : ∀ c ∈ cs, fits c = true) :
      Takes (.many fits) cs []
  | seq {first second : Pattern} {cs ds : List Char} {g h : Groups}
      (takesFirst : Takes first cs g) (takesSecond : Takes second ds h) :
      Takes (.seq first second) (cs ++ ds) (h ++ g)
  | absent {inner : Pattern} : Takes (.optional inner) [] []
  | present {inner : Pattern} {cs : List Char} {g : Groups} (takes : Takes inner cs g) :
      Takes (.optional inner) cs g
  | group {number : Nat} {inner : Pattern} {cs : List Char} {g : Groups} (takes : Takes inner cs g) :
      Takes (.group number inner) cs ((number, cs) :: g)

section Parts

variable {fits : Char → Bool} {number : Nat} {inner first second : Pattern} {cs : List Char} {g : Groups}

theorem takes_one_iff : Takes (.one fits) cs g ↔ ∃ c, fits c = true ∧ cs = [c] ∧ g = [] := by
  constructor
  · rintro ⟨isFit⟩
    exact ⟨_, isFit, rfl, rfl⟩
  · rintro ⟨c, isFit, rfl, rfl⟩
    exact .one isFit

theorem takes_many_iff : Takes (.many fits) cs g ↔ (∀ c ∈ cs, fits c = true) ∧ g = [] := by
  constructor
  · intro takes
    cases takes with
    | many areFit => exact ⟨areFit, rfl⟩
  · rintro ⟨areFit, rfl⟩
    exact .many areFit

theorem takes_seq_iff : Takes (.seq first second) cs g ↔
    ∃ as bs h k, Takes first as h ∧ Takes second bs k ∧ cs = as ++ bs ∧ g = k ++ h := by
  constructor
  · intro takes
    cases takes with
    | seq takesFirst takesSecond => exact ⟨_, _, _, _, takesFirst, takesSecond, rfl, rfl⟩
  · rintro ⟨as, bs, h, k, takesFirst, takesSecond, rfl, rfl⟩
    exact .seq takesFirst takesSecond

theorem takes_optional_iff : Takes (.optional inner) cs g ↔ (cs = [] ∧ g = []) ∨ Takes inner cs g := by
  constructor
  · intro takes
    cases takes with
    | absent => exact .inl ⟨rfl, rfl⟩
    | present takes => exact .inr takes
  · rintro (⟨rfl, rfl⟩ | takes)
    · exact .absent
    · exact .present takes

theorem takes_group_iff :
    Takes (.group number inner) cs g ↔ ∃ h, Takes inner cs h ∧ g = (number, cs) :: h := by
  constructor
  · intro takes
    cases takes with
    | group takes => exact ⟨_, takes, rfl⟩
  · rintro ⟨h, takes, rfl⟩
    exact .group takes

end Parts

/-! ## The search and the pattern -/

theorem empty_mem_runs (fits : Char → Bool) (cs : List Char) : .empty cs ∈ runs fits cs := by
  cases cs with
  | nil => exact List.mem_singleton_self _
  | cons c cs =>
      unfold runs
      split
      · exact List.mem_append_right _ (List.mem_singleton_self _)
      · exact List.mem_singleton_self _

theorem mem_runs_of_takes {fits : Char → Bool} {taken : List Char} (areFit : ∀ c ∈ taken, fits c = true)
    (rest : List Char) : ⟨taken, [], rest⟩ ∈ runs fits (taken ++ rest) := by
  induction taken with
  | nil => exact empty_mem_runs fits rest
  | cons c taken ih =>
      have shorter := ih fun d member => areFit d (List.mem_cons_of_mem c member)
      rw [List.cons_append, runs, if_pos (areFit c List.mem_cons_self)]
      exact List.mem_append_left _ (List.mem_map.2 ⟨_, shorter, rfl⟩)

theorem takes_of_mem_runs {fits : Char → Bool} {cs : List Char} {m : Match} (member : m ∈ runs fits cs) :
    cs = m.taken ++ m.rest ∧ m.groups = [] ∧ ∀ c ∈ m.taken, fits c = true := by
  induction cs generalizing m with
  | nil =>
      obtain rfl := List.mem_singleton.1 member
      exact ⟨rfl, rfl, List.forall_mem_nil _⟩
  | cons c cs ih =>
      unfold runs at member
      split at member
      · next isFit =>
        rcases List.mem_append.1 member with longer | last
        · obtain ⟨n, isRun, rfl⟩ := List.mem_map.1 longer
          obtain ⟨written, noGroup, areFit⟩ := ih isRun
          refine ⟨congrArg (c :: ·) written, ?_, List.forall_mem_cons.2 ⟨isFit, areFit⟩⟩
          rw [Match.append, noGroup]
          rfl
        · obtain rfl := List.mem_singleton.1 last
          exact ⟨rfl, rfl, List.forall_mem_nil _⟩
      · obtain rfl := List.mem_singleton.1 member
        exact ⟨rfl, rfl, List.forall_mem_nil _⟩

/-- What the search finds the pattern takes. -/
theorem takes_of_mem_ways {pattern : Pattern} {cs : List Char} {m : Match} (member : m ∈ pattern.ways cs) :
    cs = m.taken ++ m.rest ∧ pattern.Takes m.taken m.groups := by
  induction pattern generalizing cs m with
  | one fits =>
      cases cs with
      | nil => cases member
      | cons c cs =>
          unfold ways at member
          split at member
          · next isFit =>
            obtain rfl := List.mem_singleton.1 member
            exact ⟨rfl, .one isFit⟩
          · cases member
  | many fits =>
      obtain ⟨taken, groups, rest⟩ := m
      obtain ⟨written, rfl, areFit⟩ := takes_of_mem_runs member
      exact ⟨written, .many areFit⟩
  | seq first second ihFirst ihSecond =>
      obtain ⟨m, isFirst, after⟩ := List.mem_flatMap.1 member
      obtain ⟨n, isSecond, rfl⟩ := List.mem_map.1 after
      obtain ⟨written, takesFirst⟩ := ihFirst isFirst
      obtain ⟨left, takesSecond⟩ := ihSecond isSecond
      refine ⟨?_, .seq takesFirst takesSecond⟩
      rw [written, left, ← List.append_assoc]
      rfl
  | optional inner ih =>
      rcases List.mem_append.1 member with present | absent
      · obtain ⟨written, takes⟩ := ih present
        exact ⟨written, .present takes⟩
      · obtain rfl := List.mem_singleton.1 absent
        exact ⟨rfl, .absent⟩
  | group number inner ih =>
      obtain ⟨m, isInner, rfl⟩ := List.mem_map.1 member
      obtain ⟨written, takes⟩ := ih isInner
      exact ⟨written, .group takes⟩

/-- What the pattern takes the search finds, whatever is left. -/
theorem Takes.mem_ways {pattern : Pattern} {taken : List Char} {groups : Groups}
    (takes : pattern.Takes taken groups) (rest : List Char) :
    ⟨taken, groups, rest⟩ ∈ pattern.ways (taken ++ rest) := by
  induction takes generalizing rest with
  | one isFit =>
      rw [List.singleton_append, ways, if_pos isFit]
      exact List.mem_singleton_self _
  | many areFit => exact mem_runs_of_takes areFit rest
  | @seq first second cs ds g h takesFirst takesSecond ihFirst ihSecond =>
      rw [List.append_assoc]
      exact List.mem_flatMap.2 ⟨_, ihFirst (ds ++ rest), List.mem_map.2 ⟨_, ihSecond rest, rfl⟩⟩
  | absent => exact List.mem_append_right _ (List.mem_singleton_self _)
  | present takes ih => exact List.mem_append_left _ (ih rest)
  | group takes ih => exact List.mem_map.2 ⟨_, ih rest, rfl⟩

/-- **The search finds what the pattern takes**, and nothing else. -/
theorem mem_ways_iff {pattern : Pattern} {cs : List Char} {m : Match} :
    m ∈ pattern.ways cs ↔ cs = m.taken ++ m.rest ∧ pattern.Takes m.taken m.groups := by
  refine ⟨takes_of_mem_ways, ?_⟩
  rintro ⟨rfl, takes⟩
  exact takes.mem_ways m.rest

/-! ## Whole texts -/

variable {pattern first second : Pattern} {cs : List Char} {g : Groups} {m n : Match}

theorem whole?_eq_none_iff : pattern.whole? cs = none ↔ ∀ g, ¬ pattern.Takes cs g := by
  rw [whole?, List.find?_eq_none]
  constructor
  · intro noWay g takes
    exact noWay ⟨cs, g, []⟩ (mem_ways_iff.2 ⟨(List.append_nil cs).symm, takes⟩) rfl
  · intro noneTaken m member isWhole
    obtain ⟨written, takes⟩ := mem_ways_iff.1 member
    rw [List.isEmpty_iff.1 isWhole, List.append_nil] at written
    exact noneTaken _ (written ▸ takes)

theorem takes_of_whole?_eq_some (found : pattern.whole? cs = some m) : pattern.Takes cs m.groups := by
  unfold whole? at found
  obtain ⟨written, takes⟩ := mem_ways_iff.1 (List.mem_of_find?_eq_some found)
  have isWhole := List.find?_some found
  rw [List.isEmpty_iff.1 isWhole, List.append_nil] at written
  exact written ▸ takes

theorem captured_eq_none (noneTaken : ∀ g, ¬ pattern.Takes cs g) (number : Nat) :
    pattern.captured number cs = none := by
  rw [captured, whole?_eq_none_iff.2 noneTaken, Option.bind_none]

/-- Where every way to match a text has the same groups, they are the groups found. -/
theorem captured_of_unique (takes : pattern.Takes cs g) (unique : ∀ h, pattern.Takes cs h → h = g)
    (number : Nat) :
    pattern.captured number cs = g.lookup number := by
  rw [captured]
  cases found : pattern.whole? cs with
  | none => exact absurd takes (whole?_eq_none_iff.1 found g)
  | some m => rw [Option.bind_some, Match.group?, unique _ (takes_of_whole?_eq_some found)]

/-! ## Parts of texts -/

/-- There is no match if no part of the text is taken. -/
theorem search?_eq_none (noneTaken : ∀ taken g, taken <:+: cs → ¬ pattern.Takes taken g) :
    pattern.search? cs = none := by
  have noWay : cs.tails.flatMap pattern.ways = [] := by
    refine List.flatMap_eq_nil_iff.2 fun start isStart => List.eq_nil_iff_forall_not_mem.2 fun m member => ?_
    obtain ⟨written, takes⟩ := mem_ways_iff.1 member
    have isPart : m.taken <:+: start := written ▸ List.infix_append' [] m.taken m.rest
    exact noneTaken m.taken m.groups (isPart.trans ((List.mem_tails _ _).1 isStart).isInfix) takes
  rw [search?, noWay, List.head?_nil]

/-- If there is a way at the first start, no other start is tried. -/
theorem search?_of_ways {later : List Match} (here : pattern.ways cs = m :: later) : pattern.search? cs = some m := by
  have starts : ∃ others, cs.tails = cs :: others := by cases cs <;> exact ⟨_, rfl⟩
  obtain ⟨others, starts⟩ := starts
  rw [search?, starts, List.flatMap_cons, here, List.cons_append, List.head?_cons]

/-- The first run is the longest: it goes up to the first character that does not fit. -/
theorem exists_ways_many (fits : Char → Bool) (cs : List Char) :
    ∃ shorter, (many fits).ways cs = ⟨cs.takeWhile fits, [], cs.dropWhile fits⟩ :: shorter := by
  induction cs with
  | nil => exact ⟨[], rfl⟩
  | cons c cs ih =>
      obtain ⟨shorter, longest⟩ := ih
      rw [ways] at longest
      by_cases isFit : fits c = true
      · exact ⟨shorter.map (Match.append ⟨[c], [], cs⟩) ++ [.empty (c :: cs)], by
          simp [ways, runs, longest, isFit, Match.append]⟩
      · exact ⟨[], by simp [ways, runs, isFit, Match.empty]⟩

/-- A group has its first way from what it groups. -/
theorem ways_group {later : List Match} (here : pattern.ways cs = m :: later) (number : Nat) :
    ∃ more, (group number pattern).ways cs = { m with groups := (number, m.taken) :: m.groups } :: more := by
  rw [ways, here, List.map_cons]
  exact ⟨_, rfl⟩

/-- The first way of a sequence goes on from the first way of its beginning, if it can. -/
theorem ways_seq {later others : List Match} (here : first.ways cs = m :: later)
    (onwards : second.ways m.rest = n :: others) : ∃ more, (seq first second).ways cs = m.append n :: more := by
  rw [ways, here, List.flatMap_cons, onwards, List.map_cons, List.cons_append]
  exact ⟨_, rfl⟩

end Pattern

end PartCatalog
