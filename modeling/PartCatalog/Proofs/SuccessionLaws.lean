/-
# Laws of succession -- which updates are found, and what they record

Recording a list of updates changes each class at most in its successor, to the last one
recorded at its position (`positioned_foldl_record`).  The updates of some classes are found
if none of them misses the class it replaces (`successors_eq_ok_iff`), and else the first that
does is the one in the error (`successors_eq_error_iff`).  Of all classes that replace the
one at a position, the last is recorded there (`recorded_filterMap_eq_some_iff`).
-/
import PartCatalog.Proofs.ClassIndexLaws
import PartCatalog.Proofs.LastWriter

set_option autoImplicit false

namespace PartCatalog

open Outcome

/-! ## The last of a list -/

section Lists

variable {α β : Type}

theorem exists_isLast_iff {p : α → Prop} {xs : List α} : (∃ x, IsLast p xs x) ↔ ∃ x ∈ xs, p x := by
  induction xs with
  | nil => simp [IsLast]
  | cons y xs ih =>
      simp only [isLast_cons_iff, exists_or, exists_eq_left, ih, List.exists_mem_cons_iff]
      by_cases has : ∃ x ∈ xs, p x
      · simp only [has, true_or, or_true]
      · have none_has : ∀ x ∈ xs, ¬ p x := fun x member isSo => has ⟨x, member, isSo⟩
        simp only [has, false_or, or_false]
        exact and_iff_left none_has

theorem isLast_map_iff {f : α → β} {p : β → Prop} {xs : List α} {y : β} :
    IsLast p (xs.map f) y ↔ ∃ x, IsLast (fun x => p (f x)) xs x ∧ f x = y := by
  induction xs with
  | nil => simp [IsLast]
  | cons z xs ih =>
      rw [List.map_cons, isLast_cons_iff, ih]
      simp only [isLast_cons_iff, List.forall_mem_map]
      constructor
      · rintro (⟨x, last, rfl⟩ | ⟨rfl, has, none_after⟩)
        · exact ⟨x, .inl last, rfl⟩
        · exact ⟨z, .inr ⟨rfl, has, none_after⟩, rfl⟩
      · rintro ⟨x, last | ⟨rfl, has, none_after⟩, rfl⟩
        · exact .inl ⟨x, last, rfl⟩
        · exact .inr ⟨rfl, has, none_after⟩

end Lists

/-! ## Successors of a class -/

namespace PartClass

/-- The class as it was before it learnt a successor. -/
def withoutSuccessor (c : PartClass) : PartClass := { c with replacedBy := none }

/-- The class with the successor it learns, if it learns one. -/
def learn (c : PartClass) (successor : Option String) : PartClass :=
  { c with replacedBy := successor.or c.replacedBy }

end PartClass

/-! ## Recording successors -/

namespace Succession

/-- The successor that some updates record at a position, the last of them. -/
def recorded (position : ClassPosition) : List (ClassPosition × String) → Option String
  | [] => none
  | (other, successor) :: rest =>
    (recorded position rest).or (if other = position then some successor else none)

/-- After some updates each class knows the successor recorded last at its position, or
failing that the one it knew. -/
theorem positioned_foldl_record (updates : List (ClassPosition × String)) (collections : List Collection) :
    Collection.positioned (updates.foldl record collections) =
      (Collection.positioned collections).map fun e => (e.1, e.2.learn (recorded e.1 updates)) := by
  -- On the updates: what the later ones record at a position stays over what the first did.
  induction updates generalizing collections with
  | nil => exact (List.map_of_fixed fun e _ => rfl).symm
  | cons update updates ih =>
      rw [List.foldl_cons, ih, record, Collection.positioned_modifyAt, List.map_map]
      apply List.map_congr_left
      rintro ⟨position, c⟩ -
      obtain ⟨other, successor⟩ := update
      by_cases here : position = other
      · subst here
        cases later : recorded position updates <;> simp [PartClass.learn, recorded, later]
      · cases later : recorded position updates <;>
          simp [PartClass.learn, recorded, here, Ne.symm here, later]

theorem classAt?_foldl_record (updates : List (ClassPosition × String)) (collections : List Collection)
    (position : ClassPosition) :
    Collection.classAt? (updates.foldl record collections) position =
      (Collection.classAt? collections position).map (·.learn (recorded position updates)) := by
  apply Option.ext
  intro c
  rw [← Collection.mem_positioned_iff, positioned_foldl_record, List.mem_map, Option.map_eq_some_iff]
  constructor
  · rintro ⟨⟨position, bare⟩, member, same⟩
    obtain ⟨rfl, rfl⟩ := Prod.mk.inj same
    exact ⟨bare, Collection.mem_positioned_iff.1 member, rfl⟩
  · rintro ⟨bare, isThere, rfl⟩
    exact ⟨(position, bare), Collection.mem_positioned_iff.2 isThere, rfl⟩

/-- An update changes nothing but a successor. -/
theorem withoutSuccessor_record (collections : List Collection) (update : ClassPosition × String) :
    (record collections update).map (Collection.mapClasses PartClass.withoutSuccessor) =
      collections.map (Collection.mapClasses PartClass.withoutSuccessor) := by
  apply List.map_modify_of_blind
  intro coll
  have sameClasses : ∀ c : PartClass,
      PartClass.withoutSuccessor { c with replacedBy := some update.2 } = c.withoutSuccessor := fun _ => rfl
  simp only [Collection.mapClasses, List.map_modify_of_blind sameClasses]

theorem withoutSuccessor_foldl_record (updates : List (ClassPosition × String))
    (collections : List Collection) :
    (updates.foldl record collections).map (Collection.mapClasses PartClass.withoutSuccessor) =
      collections.map (Collection.mapClasses PartClass.withoutSuccessor) := by
  induction updates generalizing collections with
  | nil => rfl
  | cons update updates ih => rw [List.foldl_cons, ih, withoutSuccessor_record]

/-! ## Finding the replaced classes -/

variable {collections : List Collection} {index : ClassIndex}

/-- The update that a class asks for, if it replaces a class that is found. -/
def update? (collections : List Collection) (index : ClassIndex) (c : PartClass) :
    Option (ClassPosition × String) :=
  c.replaces.bind fun replaced =>
    (target? collections index replaced).map fun position => (position, c.name)

/-- Whether a class replaces one that is not found. -/
def Misses (collections : List Collection) (index : ClassIndex) (c : PartClass) : Prop :=
  ∃ replaced, c.replaces = some replaced ∧ target? collections index replaced = none

variable {c : PartClass} {classes : List PartClass}

theorem successors_cons_of_found (found : ¬ Misses collections index c) :
    successors collections index (c :: classes) =
      (successors collections index classes).map ((update? collections index c).toList ++ ·) := by
  cases replaces : c.replaces with
  | none =>
      simp only [successors, update?, replaces, Option.bind_none, Option.toList_none, List.nil_append]
      cases successors collections index classes <;> rfl
  | some replaced =>
      cases target : target? collections index replaced with
      | none => exact absurd ⟨replaced, replaces, target⟩ found
      | some position =>
          simp only [successors, update?, replaces, target, Option.bind_some, Option.map_some,
            Option.toList_some, List.singleton_append]

theorem successors_cons_of_missed {replaced : String} (replaces : c.replaces = some replaced)
    (missed : target? collections index replaced = none) :
    successors collections index (c :: classes) = .error ⟨.unknownReplacedClass c.name replaced, []⟩ := by
  simp only [successors, replaces, missed]
  rfl

/-- The updates are found if no class misses the one it replaces. -/
theorem successors_eq_ok_iff {updates : List (ClassPosition × String)} :
    successors collections index classes = .ok updates ↔
      (∀ c ∈ classes, ¬ Misses collections index c) ∧
        updates = classes.filterMap (update? collections index) := by
  induction classes generalizing updates with
  | nil => simp [successors, eq_comm]
  | cons c classes ih =>
      by_cases misses : Misses collections index c
      · obtain ⟨replaced, replaces, missed⟩ := misses
        rw [successors_cons_of_missed replaces missed]
        simp only [reduceCtorEq, List.forall_mem_cons, false_iff, not_and]
        exact fun found => absurd ⟨replaced, replaces, missed⟩ found.1
      · rw [successors_cons_of_found misses, map_eq_ok]
        simp only [ih, List.forall_mem_cons, misses, not_false_eq_true, true_and, List.filterMap_cons]
        constructor
        · rintro ⟨rest, ⟨found, rfl⟩, rfl⟩
          refine ⟨found, ?_⟩
          cases update? collections index c <;> rfl
        · rintro ⟨found, rfl⟩
          refine ⟨_, ⟨found, rfl⟩, ?_⟩
          cases update? collections index c <;> rfl

/-- The first class that misses the one it replaces is the one in the error. -/
theorem successors_eq_error_iff {e : LoadError} :
    successors collections index classes = .error e ↔
      ∃ c replaced, IsFirst (Misses collections index) classes c ∧ c.replaces = some replaced ∧
        e = ⟨.unknownReplacedClass c.name replaced, []⟩ := by
  induction classes with
  | nil => simp [successors, IsFirst]
  | cons c classes ih =>
      simp only [isFirst_cons_iff]
      by_cases misses : Misses collections index c
      · obtain ⟨replaced, replaces, missed⟩ := misses
        rw [successors_cons_of_missed replaces missed]
        constructor
        · rintro ⟨⟩
          exact ⟨c, replaced, .inl ⟨rfl, replaced, replaces, missed⟩, replaces, rfl⟩
        · rintro ⟨c', replaced', ⟨rfl, -⟩ | ⟨found, -⟩, replaces', rfl⟩
          · rw [Option.some.inj (replaces.symm.trans replaces')]
          · exact absurd ⟨replaced, replaces, missed⟩ found
      · simp only [misses, and_false, false_or, not_false_eq_true, true_and, ← ih,
          successors_cons_of_found misses]
        cases successors collections index classes <;> simp [Except.map]

/-- Whether a class replaces the one at a position. -/
def Targets (collections : List Collection) (index : ClassIndex) (position : ClassPosition)
    (c : PartClass) : Prop :=
  ∃ replaced, c.replaces = some replaced ∧ target? collections index replaced = some position

variable {position : ClassPosition} {successor : String}

theorem recorded_cons_eq_some_iff :
    recorded position ((c :: classes).filterMap (update? collections index)) = some successor ↔
      recorded position (classes.filterMap (update? collections index)) = some successor ∨
        (recorded position (classes.filterMap (update? collections index)) = none ∧
          Targets collections index position c ∧ c.name = successor) := by
  rw [List.filterMap_cons]
  cases replaces : c.replaces with
  | none => simp [update?, Targets, replaces]
  | some replaced =>
      cases found : target? collections index replaced with
      | none => simp [update?, Targets, replaces, found]
      | some other => simp [update?, Targets, replaces, found, recorded, Option.or_eq_some_iff]

/-- The last class that replaces the one at a position is the one recorded there. -/
theorem recorded_filterMap_eq_some_iff :
    recorded position (classes.filterMap (update? collections index)) = some successor ↔
      ∃ c, IsLast (Targets collections index position) classes c ∧ c.name = successor := by
  induction classes generalizing successor with
  | nil => simp [recorded, IsLast]
  | cons d classes ih =>
      have none_recorded : recorded position (classes.filterMap (update? collections index)) = none ↔
          ∀ c ∈ classes, ¬ Targets collections index position c := by
        rw [← not_iff_not, ← ne_eq, Option.ne_none_iff_exists']
        simp only [ih, not_forall, not_not]
        rw [exists_comm]
        simpa using exists_isLast_iff (p := Targets collections index position)
      rw [recorded_cons_eq_some_iff, ih, none_recorded]
      simp only [isLast_cons_iff]
      constructor
      · rintro (⟨c, last, named⟩ | ⟨none_later, targets, named⟩)
        · exact ⟨c, .inl last, named⟩
        · exact ⟨d, .inr ⟨rfl, targets, none_later⟩, named⟩
      · rintro ⟨c, last | ⟨rfl, targets, none_later⟩, named⟩
        · exact .inl ⟨c, last, named⟩
        · exact .inr ⟨none_later, targets, named⟩

end Succession

end PartCatalog
