/-
# Outcomes -- when a chain of readers succeeds, and which step fails

A reader answers `Except`, and its steps are chained with `bind`, `map`, `mapM` and
`foldlM`. Each law here says of one such chain exactly when it succeeds and with
what, or with which error it fails, so that a run can be taken apart into the runs of
its steps. `mapM` succeeds when every element does, in the order of the list
(`mapM_eq_ok`), and else has the error of the first that does not (`mapM_eq_error`).
What all errors of the steps have, all errors of the chain have (`FailsOnly`).
Two runs `Agree` if one succeeds exactly when the other does, with the same answer;
every chain keeps that.
-/
import Mathlib.Data.List.Perm.Basic

set_option autoImplicit false

namespace PartCatalog

/-! ## The first of a list -/

/-- Whether `x` is the first member of a list that has a property. -/
def IsFirst {α : Type} (p : α → Prop) (xs : List α) (x : α) : Prop :=
  ∃ before after, xs = before ++ x :: after ∧ p x ∧ ∀ y ∈ before, ¬ p y

section IsFirst

variable {α : Type} {p : α → Prop} {x y : α} {xs : List α}

theorem isFirst_cons_iff :
    IsFirst p (y :: xs) x ↔ (x = y ∧ p y) ∨ (¬ p y ∧ IsFirst p xs x) := by
  constructor
  · rintro ⟨before, after, split, has, none_before⟩
    cases before with
    | nil =>
        obtain ⟨rfl, rfl⟩ := List.cons.inj split
        exact .inl ⟨rfl, has⟩
    | cons z before =>
        obtain ⟨rfl, rfl⟩ := List.cons.inj split
        obtain ⟨notFirst, none_before⟩ := List.forall_mem_cons.1 none_before
        exact .inr ⟨notFirst, before, after, rfl, has, none_before⟩
  · rintro (⟨rfl, has⟩ | ⟨notFirst, before, after, rfl, has, none_before⟩)
    · exact ⟨[], xs, rfl, has, by simp⟩
    · exact ⟨y :: before, after, rfl, has, List.forall_mem_cons.2 ⟨notFirst, none_before⟩⟩

theorem exists_isFirst_iff : (∃ x, IsFirst p xs x) ↔ ∃ x ∈ xs, p x := by
  induction xs with
  | nil => simp [IsFirst]
  | cons y xs ih =>
      simp only [isFirst_cons_iff, exists_or, exists_eq_left, exists_and_left, ih, List.exists_mem_cons_iff]
      by_cases has : p y <;> simp [has]

theorem IsFirst.mem (first : IsFirst p xs x) : x ∈ xs := by
  obtain ⟨before, after, rfl, -, -⟩ := first
  exact List.mem_append_right _ List.mem_cons_self

theorem IsFirst.has (first : IsFirst p xs x) : p x := by
  obtain ⟨before, after, -, has, -⟩ := first
  exact has

/-- The first member depends on the property of the members only. -/
theorem isFirst_congr {q : α → Prop} (same : ∀ y ∈ xs, p y ↔ q y) : IsFirst p xs x ↔ IsFirst q xs x := by
  induction xs with
  | nil => simp [IsFirst]
  | cons y xs ih =>
      obtain ⟨here, later⟩ := List.forall_mem_cons.1 same
      rw [isFirst_cons_iff, isFirst_cons_iff, here, ih later]

/-- In a strict order, the first member with a property is the smallest one with it. -/
theorem isFirst_iff_of_pairwise {r : α → α → Prop} (asymm : ∀ a b, r a b → ¬ r b a)
    (ascending : xs.Pairwise r) :
    IsFirst p xs x ↔ x ∈ xs ∧ p x ∧ ∀ y ∈ xs, p y → ¬ r y x := by
  constructor
  · intro first
    refine ⟨first.mem, first.has, fun y member has below => ?_⟩
    obtain ⟨before, after, rfl, -, none_before⟩ := first
    obtain ⟨-, above, -⟩ := List.pairwise_append.1 ascending
    rcases List.mem_append.1 member with inBefore | inRest
    · exact none_before y inBefore has
    · rcases List.mem_cons.1 inRest with rfl | inAfter
      · exact asymm y y below below
      · exact asymm x y ((List.pairwise_cons.1 above).1 y inAfter) below
  · rintro ⟨member, has, smallest⟩
    obtain ⟨before, after, rfl⟩ := List.append_of_mem member
    obtain ⟨-, -, below⟩ := List.pairwise_append.1 ascending
    refine ⟨before, after, rfl, has, fun y inBefore has' => ?_⟩
    exact smallest y (List.mem_append_left _ inBefore) has' (below y inBefore x List.mem_cons_self)

/-- The first member with a property stands where no member before has it. -/
theorem isFirst_iff_getElem? :
    IsFirst p xs x ↔ ∃ i : Nat, xs[i]? = some x ∧ p x ∧ ∀ j < i, ∀ y, xs[j]? = some y → ¬ p y := by
  constructor
  · rintro ⟨before, after, rfl, has, noneBefore⟩
    refine ⟨before.length, by simp, has, fun j inside y isAt => ?_⟩
    rw [List.getElem?_append_left inside] at isAt
    exact noneBefore y (List.mem_of_getElem? isAt)
  · rintro ⟨i, isAt, has, noneBefore⟩
    obtain ⟨inside, rfl⟩ := List.getElem?_eq_some_iff.1 isAt
    refine ⟨xs.take i, xs.drop (i + 1), ?_, has, fun y member => ?_⟩
    · rw [List.getElem_cons_drop, List.take_append_drop]
    · obtain ⟨j, below, rfl⟩ := List.mem_take_iff_getElem.1 member
      exact noneBefore j (by omega) _ (List.getElem?_eq_getElem _)

end IsFirst

namespace Outcome

variable {ε α β : Type}

theorem pure_eq (a : α) : (pure a : Except ε α) = .ok a := rfl

theorem bind_eq_ok {x : Except ε α} {f : α → Except ε β} {b : β} :
    (x >>= f) = .ok b ↔ ∃ a, x = .ok a ∧ f a = .ok b := by
  cases x <;> simp [bind, Except.bind]

theorem bind_eq_error {x : Except ε α} {f : α → Except ε β} {e : ε} :
    (x >>= f) = .error e ↔ x = .error e ∨ ∃ a, x = .ok a ∧ f a = .error e := by
  cases x <;> simp [bind, Except.bind]

theorem map_eq_ok {x : Except ε α} {f : α → β} {b : β} :
    x.map f = .ok b ↔ ∃ a, x = .ok a ∧ f a = b := by
  cases x <;> simp [Except.map]

theorem map_eq_error {x : Except ε α} {f : α → β} {e : ε} : x.map f = .error e ↔ x = .error e := by
  cases x <;> simp [Except.map]

theorem map_bind {γ : Type} {x : Except ε α} {f : α → Except ε β} {g : β → γ} :
    (x >>= f).map g = x >>= fun a => (f a).map g := by
  cases x <;> rfl

theorem mapError_eq_ok {δ : Type} {x : Except ε α} {f : ε → δ} {a : α} :
    x.mapError f = .ok a ↔ x = .ok a := by
  cases x <;> simp [Except.mapError]

theorem mapError_eq_error {δ : Type} {x : Except ε α} {f : ε → δ} {e : δ} :
    x.mapError f = .error e ↔ ∃ e', x = .error e' ∧ f e' = e := by
  cases x <;> simp [Except.mapError]

/-- The error of a run that fails. -/
def error? : Except ε α → Option ε
  | .ok _ => none
  | .error e => some e

theorem error?_eq_some {x : Except ε α} {e : ε} : error? x = some e ↔ x = .error e := by
  cases x <;> simp [error?]

theorem toOption_eq_some {x : Except ε α} {a : α} : x.toOption = some a ↔ x = .ok a := by
  cases x <;> simp [Except.toOption]

/-- A traversal succeeds when the reader succeeds on each element. -/
theorem mapM_eq_ok {f : α → Except ε β} {xs : List α} {ys : List β} :
    xs.mapM f = .ok ys ↔ List.Forall₂ (fun x y => f x = .ok y) xs ys := by
  induction xs generalizing ys with
  | nil => cases ys <;> simp [pure_eq]
  | cons x xs ih =>
      simp only [List.mapM_cons, bind_eq_ok, pure_eq, Except.ok.injEq, ih, List.forall₂_cons_left_iff]
      constructor
      · rintro ⟨y, read, rest, reads, rfl⟩
        exact ⟨y, rest, read, reads, rfl⟩
      · rintro ⟨y, rest, read, reads, rfl⟩
        exact ⟨y, read, rest, reads, rfl⟩

/-- A traversal fails with the error of the first element that cannot be read. -/
theorem mapM_eq_error {f : α → Except ε β} {xs : List α} {e : ε} :
    xs.mapM f = .error e ↔ ∃ x, IsFirst (fun x => ∃ e, f x = .error e) xs x ∧ f x = .error e := by
  induction xs with
  | nil => simp [IsFirst, pure_eq]
  | cons x xs ih =>
      simp only [List.mapM_cons, bind_eq_error, pure_eq, reduceCtorEq, and_false, exists_false, or_false,
        ih, isFirst_cons_iff]
      cases read : f x with
      | error e' => simp [read]
      | ok y => simp

/-- A traversal gives for each place what is read there. -/
theorem mapM_eq_ok_iff_getElem? {f : α → Except ε β} {xs : List α} {ys : List β} :
    xs.mapM f = .ok ys ↔
      ys.length = xs.length ∧ ∀ (i : Nat) x, xs[i]? = some x → ∃ y, ys[i]? = some y ∧ f x = .ok y := by
  rw [mapM_eq_ok, List.forall₂_iff_get]
  constructor
  · rintro ⟨sameLength, reads⟩
    refine ⟨sameLength.symm, fun i x isAt => ?_⟩
    obtain ⟨inside, rfl⟩ := List.getElem?_eq_some_iff.1 isAt
    exact ⟨ys[i], List.getElem?_eq_getElem (sameLength ▸ inside), reads i inside _⟩
  · rintro ⟨sameLength, reads⟩
    refine ⟨sameLength.symm, fun i inside inside' => ?_⟩
    obtain ⟨y, isAt, read⟩ := reads i xs[i] (List.getElem?_eq_getElem inside)
    rw [List.getElem?_eq_getElem inside', Option.some.injEq] at isAt
    simpa [isAt] using read

theorem mapM_congr {f g : α → Except ε β} {xs : List α} (same : ∀ x ∈ xs, f x = g x) :
    xs.mapM f = xs.mapM g := by
  induction xs with
  | nil => rfl
  | cons x xs ih =>
      obtain ⟨head, rest⟩ := List.forall_mem_cons.1 same
      rw [List.mapM_cons, List.mapM_cons, head, ih rest]

/-- To read each member with the same name is to read the pairs with a list of that name. -/
theorem mapM_zip_const {γ δ : Type} {f : γ × α → Except ε β} {c : γ} {names : List δ} {xs : List α}
    (count : names.length = xs.length) :
    ((names.map fun _ => c).zip xs).mapM f = xs.mapM fun x => f (c, x) := by
  induction xs generalizing names with
  | nil => rw [List.zip_nil_right]; rfl
  | cons x xs ih =>
      obtain ⟨name, names, rfl⟩ := List.exists_cons_of_length_eq_add_one count
      rw [List.map_cons, List.zip_cons_cons, List.mapM_cons, List.mapM_cons, ih (Nat.succ.inj count)]

/-- A run of steps fails with the error of the first step that fails where the steps before
it have led. -/
theorem foldlM_eq_error {f : β → α → Except ε β} {xs : List α} {b : β} {e : ε} :
    xs.foldlM f b = .error e ↔
      ∃ before x after b', xs = before ++ x :: after ∧ before.foldlM f b = .ok b' ∧ f b' x = .error e := by
  induction xs generalizing b with
  | nil => simp [pure_eq]
  | cons x xs ih =>
      simp only [List.foldlM_cons, bind_eq_error, ih]
      constructor
      · rintro (fails | ⟨b', stepped, before, x', after, b'', rfl, led, fails⟩)
        · exact ⟨[], x, xs, b, rfl, rfl, fails⟩
        · exact ⟨x :: before, x', after, b'', rfl, bind_eq_ok.2 ⟨b', stepped, led⟩, fails⟩
      · rintro ⟨before, x', after, b'', split, led, fails⟩
        cases before with
        | nil =>
            obtain ⟨rfl, rfl⟩ := List.cons.inj split
            cases led
            exact .inl fails
        | cons y before =>
            obtain ⟨rfl, rfl⟩ := List.cons.inj split
            obtain ⟨b', stepped, led⟩ := bind_eq_ok.1 led
            exact .inr ⟨b', stepped, before, x', after, b'', rfl, led, fails⟩

/-- The same for a reader that may just find nothing. -/
theorem mapM_eq_some {f : α → Option β} {xs : List α} {ys : List β} :
    xs.mapM f = some ys ↔ List.Forall₂ (fun x y => f x = some y) xs ys := by
  induction xs generalizing ys with
  | nil => cases ys <;> simp
  | cons x xs ih =>
      simp only [List.mapM_cons, Option.bind_eq_bind, Option.bind_eq_some_iff, Option.pure_def,
        Option.some.injEq, ih, List.forall₂_cons_left_iff]
      constructor
      · rintro ⟨y, read, rest, reads, rfl⟩
        exact ⟨y, rest, read, reads, rfl⟩
      · rintro ⟨y, rest, read, reads, rfl⟩
        exact ⟨y, read, rest, reads, rfl⟩

/-- What stands on the right of a relation of lists stands there for something on the
left. -/
theorem exists_left_of_forall₂ {R : α → β → Prop} {xs : List α} {ys : List β}
    (related : List.Forall₂ R xs ys) : ∀ y ∈ ys, ∃ x ∈ xs, R x y := by
  induction related with
  | nil => simp
  | cons head _ ih =>
      intro y member
      rcases List.mem_cons.1 member with rfl | member
      · exact ⟨_, List.mem_cons_self, head⟩
      · obtain ⟨x, inXs, related⟩ := ih y member
        exact ⟨x, List.mem_cons_of_mem _ inXs, related⟩

theorem exists_getElem?_of_forall₂ {R : α → β → Prop} {xs : List α} {ys : List β}
    (related : List.Forall₂ R xs ys) {i : Nat} {y : β} (found : ys[i]? = some y) :
    ∃ x, xs[i]? = some x ∧ R x y := by
  induction related generalizing i with
  | nil => cases found
  | @cons x y' xs ys head _ ih =>
      cases i with
      | zero =>
          obtain rfl : y' = y := Option.some.inj found
          exact ⟨x, rfl, head⟩
      | succ i => exact ih found

/-- A property of the members carries over along a relation that keeps it. -/
theorem exists_mem_congr {R : α → β → Prop} {p : α → Prop} {q : β → Prop} {xs : List α}
    {ys : List β} (related : List.Forall₂ R xs ys) (same : ∀ x y, R x y → (p x ↔ q y)) :
    (∃ x ∈ xs, p x) ↔ ∃ y ∈ ys, q y := by
  induction related with
  | nil => simp
  | cons head _ ih => simp [same _ _ head, ih]

/-- Two lists have one image where the related members have. -/
theorem map_eq_map_of_forall₂ {γ : Type} {R : α → β → Prop} {f : α → γ} {g : β → γ} {xs : List α}
    {ys : List β} (related : List.Forall₂ R xs ys) (same : ∀ x y, R x y → f x = g y) :
    xs.map f = ys.map g := by
  rw [← List.forall₂_eq_eq_eq, List.forall₂_map_left_iff, List.forall₂_map_right_iff]
  exact related.imp same

/-- Two lists are paired with the same lists where the related members are with the same
members. -/
theorem forall₂_congr_left {γ : Type} {R : α → β → Prop} {P : α → γ → Prop} {Q : β → γ → Prop}
    {xs : List α} {ys : List β} (related : List.Forall₂ R xs ys)
    (same : ∀ x y, R x y → ∀ z, P x z ↔ Q y z) (zs : List γ) :
    List.Forall₂ P xs zs ↔ List.Forall₂ Q ys zs := by
  induction related generalizing zs with
  | nil => simp
  | cons head _ ih => simp only [List.forall₂_cons_left_iff, same _ _ head, ih]

/-- A relation pairs up a whole list as soon as it finds something for each member. -/
theorem exists_forall₂_iff {R : α → β → Prop} {xs : List α} :
    (∃ ys, List.Forall₂ R xs ys) ↔ ∀ x ∈ xs, ∃ y, R x y := by
  induction xs with
  | nil => simp
  | cons x xs ih =>
      simp only [List.forall₂_cons_left_iff, List.forall_mem_cons, ← ih]
      constructor
      · rintro ⟨_, y, ys, head, rest, rfl⟩
        exact ⟨⟨y, head⟩, ys, rest⟩
      · rintro ⟨⟨y, head⟩, ys, rest⟩
        exact ⟨_, y, ys, head, rest, rfl⟩

/-- What a relation pairs with two lists one after the other are two such lists. -/
theorem forall₂_append_left_iff {R : α → β → Prop} {xs ys : List α} {zs : List β} :
    List.Forall₂ R (xs ++ ys) zs ↔
      ∃ us vs, List.Forall₂ R xs us ∧ List.Forall₂ R ys vs ∧ zs = us ++ vs := by
  induction xs generalizing zs with
  | nil => simp
  | cons x xs ih =>
      simp only [List.cons_append, List.forall₂_cons_left_iff, ih]
      constructor
      · rintro ⟨z, _, head, ⟨us, vs, left, right, rfl⟩, rfl⟩
        exact ⟨z :: us, vs, ⟨z, us, head, left, rfl⟩, right, rfl⟩
      · rintro ⟨_, vs, ⟨z, us, head, left, rfl⟩, right, rfl⟩
        exact ⟨z, us ++ vs, head, ⟨us, vs, left, right, rfl⟩, rfl⟩

/-- Two lists that differ in their order only are read to such lists. -/
theorem exists_mapM_of_perm {f : α → Except ε β} {xs xs' : List α} {ys : List β} (perm : xs.Perm xs')
    (run : xs.mapM f = .ok ys) : ∃ ys', xs'.mapM f = .ok ys' ∧ ys.Perm ys' := by
  obtain ⟨ys', reads, perm'⟩ := List.perm_comp_forall₂ perm.symm (mapM_eq_ok.1 run)
  exact ⟨ys', mapM_eq_ok.2 reads, perm'.symm⟩

theorem exists_eq_ok_iff {x : Except ε α} : (∃ a, x = .ok a) ↔ ¬ ∃ e, x = .error e := by
  cases x <;> simp

theorem exists_eq_ok_of_isOk {x : Except ε α} (succeeds : x.isOk = true) : ∃ a, x = .ok a := by
  cases x with
  | error e => cases succeeds
  | ok a => exact ⟨a, rfl⟩

theorem exists_eq_error_of_isOk {x : Except ε α} (fails : x.isOk = false) : ∃ e, x = .error e := by
  cases x with
  | error e => exact ⟨e, rfl⟩
  | ok a => cases fails

/-! ## Errors of one kind -/

/-- Whether a run has no other error than such with a property. -/
def FailsOnly (p : ε → Prop) (x : Except ε α) : Prop := ∀ e, x = .error e → p e

section FailsOnly

variable {p : ε → Prop}

theorem failsOnly_ok (a : α) : FailsOnly p (.ok a : Except ε α) := by
  intro e fails
  cases fails

theorem failsOnly_error {e : ε} (has : p e) : FailsOnly p (.error e : Except ε α) := by
  intro e' fails
  cases fails
  exact has

theorem FailsOnly.mapError {δ : Type} {q : δ → Prop} {x : Except ε α} {f : ε → δ} (fails : FailsOnly p x)
    (keeps : ∀ e, p e → q (f e)) : FailsOnly q (x.mapError f) := by
  intro e' failed
  obtain ⟨e, inside, rfl⟩ := mapError_eq_error.1 failed
  exact keeps e (fails e inside)

theorem FailsOnly.map {x : Except ε α} (fails : FailsOnly p x) (f : α → β) : FailsOnly p (x.map f) := by
  intro e failed
  exact fails e (map_eq_error.1 failed)

theorem FailsOnly.bind {x : Except ε α} {f : α → Except ε β} (fails : FailsOnly p x)
    (each : ∀ a, FailsOnly p (f a)) : FailsOnly p (x >>= f) := by
  intro e failed
  rcases bind_eq_error.1 failed with first | ⟨a, -, second⟩
  · exact fails e first
  · exact each a e second

theorem failsOnly_mapM {f : α → Except ε β} {xs : List α} (each : ∀ a, FailsOnly p (f a)) :
    FailsOnly p (xs.mapM f) := by
  intro e failed
  obtain ⟨x, -, fails⟩ := mapM_eq_error.1 failed
  exact each x e fails

end FailsOnly

/-! ## Readers that agree -/

/-- Whether two runs succeed alike and with the same answer.  Their errors may differ. -/
def Agree (x y : Except ε α) : Prop := ∀ a, x = .ok a ↔ y = .ok a

theorem Agree.refl (x : Except ε α) : Agree x x := fun _ => Iff.rfl

theorem Agree.of_eq {x y : Except ε α} (same : x = y) : Agree x y := same ▸ Agree.refl x

/-- Two runs that agree give one answer, or both fail. -/
theorem Agree.ok_or_error {x y : Except ε α} (agree : Agree x y) :
    (∃ a, x = .ok a ∧ y = .ok a) ∨ ∃ e e', x = .error e ∧ y = .error e' := by
  cases x with
  | ok a => exact .inl ⟨a, rfl, (agree a).1 rfl⟩
  | error e =>
      cases y with
      | ok a => cases (agree a).2 rfl
      | error e' => exact .inr ⟨e, e', rfl, rfl⟩

theorem Agree.bind {x y : Except ε α} {f g : α → Except ε β} (agree : Agree x y)
    (each : ∀ a, Agree (f a) (g a)) : Agree (x >>= f) (y >>= g) := by
  intro b
  simp only [bind_eq_ok, agree _, each _ _]

theorem Agree.map {x y : Except ε α} (agree : Agree x y) (f : α → β) : Agree (x.map f) (y.map f) := by
  intro b
  simp only [map_eq_ok, agree _]

/-- Traversals agree where the elements are read alike. -/
theorem Agree.mapM {γ : Type} {f : α → Except ε β} {g : γ → Except ε β} {xs : List α} {ys : List γ}
    (each : List.Forall₂ (fun x y => Agree (f x) (g y)) xs ys) : Agree (xs.mapM f) (ys.mapM g) := by
  induction each with
  | nil => exact Agree.refl _
  | cons head _ ih =>
      rw [List.mapM_cons, List.mapM_cons]
      exact head.bind fun _ => ih.bind fun _ => Agree.refl _

end Outcome

end PartCatalog
