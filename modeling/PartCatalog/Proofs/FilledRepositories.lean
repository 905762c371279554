/-
# Filled repositories -- which class knows which successor

The search for a replaced class in the list of its body and the look-up by its name lead to
one position (`Accurate.target?_eq`), because every class of a name has the body of the name.
So in a repository that was filled the class of a replaced name knows the last class that
replaces it, and no other class knows a successor (`KnowsSuccessors`).  Its index is as right
as it was before (`Accurate.of_filled`).

Filling fails at the first class that replaces a name which no class has, or which begins with
the label of no body (`Accurate.filled_eq_error_iff`).  So it may fail although every replaced
name is the name of a class (`filled_fails_for_unknown_refuted`).
-/
import Mathlib.Data.List.Find
import PartCatalog.Proofs.ReadClasses
import PartCatalog.Proofs.SuccessionLaws
import PartCatalog.Repository.Load

set_option autoImplicit false

namespace PartCatalog

open Outcome

/-! ## Repositories -/

namespace Repository

open Succession

/-- Each class whose name is replaced knows the last class that replaces it; a class that is
not found under a replaced name knows no successor. -/
structure KnowsSuccessors (repo : Repository) : Prop where
  replaced : ∀ d ∈ repo.classes, ∀ name, d.replaces = some name →
    ∃ c ∈ repo.classes, ∃ successor, repo.class? name = some c ∧
      IsLast (·.replaces = some name) repo.classes successor ∧ c.replacedBy = some successor.name
  others : ∀ position c, Collection.classAt? repo.collections position = some c →
    (∀ d ∈ repo.classes, ∀ name, d.replaces = some name → repo.index.byName.get? name ≠ some position) →
    c.replacedBy = none

variable {repo full : Repository}

/-- The updates that the classes of a repository ask for. -/
def updates (repo : Repository) : List (ClassPosition × String) :=
  repo.classes.filterMap (update? repo.collections repo.index)

theorem filled_eq_ok_iff :
    repo.filled = .ok full ↔ (∀ c ∈ repo.classes, ¬ Misses repo.collections repo.index c) ∧
      full = { repo with collections := repo.updates.foldl record repo.collections } := by
  simp only [filled, fill, map_eq_ok, successors_eq_ok_iff, updates]
  constructor
  · rintro ⟨_, ⟨_, ⟨found, rfl⟩, rfl⟩, rfl⟩
    exact ⟨found, rfl⟩
  · rintro ⟨found, rfl⟩
    exact ⟨_, ⟨_, ⟨found, rfl⟩, rfl⟩, rfl⟩

/-- Where no class replaces another, filling changes nothing. -/
theorem filled_of_no_replaces (unreplacing : ∀ c ∈ repo.classes, c.replaces = none) :
    repo.filled = .ok repo := by
  have noUpdates : repo.updates = [] := by
    rw [updates, List.filterMap_eq_nil_iff]
    intro c member
    simp [update?, unreplacing c member]
  refine filled_eq_ok_iff.2 ⟨?_, by rw [noUpdates]; rfl⟩
  rintro c member ⟨name, replaces, -⟩
  rw [unreplacing c member] at replaces
  cases replaces

/-- The search for a replaced class and the look-up by its name lead to one position. -/
theorem Accurate.target?_eq (accurate : repo.Accurate) (replaced : String) :
    target? repo.collections repo.index replaced =
      (StandardBody.ofName? replaced).bind fun _ => repo.index.byName.get? replaced := by
  rw [target?]
  cases issued : StandardBody.ofName? replaced with
  | none => rfl
  | some body =>
      rw [Option.bind_some, Option.bind_some, ClassIndex.ofBody, accurate.describes.byBody,
        accurate.describes.byName, List.find?_map, List.find?_filter]
      congr 1
      apply List.find?_congr
      rintro ⟨position, c⟩ member
      have isThere := Collection.mem_positioned_iff.1 member
      have isClass : c ∈ repo.classes := Collection.mem_allClasses_iff.2 ⟨position, isThere⟩
      -- A class of the name has the body of the name, so the list of the body misses none.
      have labelled : c.name = replaced → c.bodyLabel? = some body.label := by
        rintro rfl
        rw [PartClass.bodyLabel?, accurate.embodied c isClass, issued, Option.map_some]
      by_cases named : c.name = replaced
      · simp [isThere, named, labelled named]
      · simp [isThere, named]

theorem Accurate.byName_of_target? (accurate : repo.Accurate) {replaced : String} {position : ClassPosition}
    (found : target? repo.collections repo.index replaced = some position) :
    repo.index.byName.get? replaced = some position := by
  rw [accurate.target?_eq, Option.bind_eq_some_iff] at found
  obtain ⟨-, -, byName⟩ := found
  exact byName

theorem Accurate.name_of_target? (accurate : repo.Accurate) {replaced : String} {position : ClassPosition}
    (found : target? repo.collections repo.index replaced = some position) :
    ∃ c, Collection.classAt? repo.collections position = some c ∧ c.name = replaced := by
  have byName := accurate.byName_of_target? found
  rw [accurate.describes.byName, Option.map_eq_some_iff] at byName
  obtain ⟨⟨position, c⟩, isFirst, rfl⟩ := byName
  have isThere := Collection.mem_positioned_iff.1 (List.mem_of_find?_eq_some isFirst)
  exact ⟨c, isThere, by simpa using List.find?_some isFirst⟩

/-- A class at a position is replaced under its own name only. -/
theorem Accurate.targets_iff (accurate : repo.Accurate) {replaced : String} {position : ClassPosition}
    (found : target? repo.collections repo.index replaced = some position) (d : PartClass) :
    Targets repo.collections repo.index position d ↔ d.replaces = some replaced := by
  constructor
  · rintro ⟨other, replaces, found'⟩
    obtain ⟨c, isThere, rfl⟩ := accurate.name_of_target? found
    obtain ⟨c', isThere', rfl⟩ := accurate.name_of_target? found'
    rw [replaces, Option.some.inj (isThere.symm.trans isThere')]
  · intro replaces
    exact ⟨replaced, replaces, found⟩

/-- The repository as it was before its classes learnt successors. -/
def withoutSuccessors (repo : Repository) : Repository :=
  { repo with collections := repo.collections.map (Collection.mapClasses PartClass.withoutSuccessor) }

theorem classes_withoutSuccessors (repo : Repository) :
    repo.withoutSuccessors.classes = repo.classes.map PartClass.withoutSuccessor :=
  Collection.allClasses_mapClasses _ _

/-- A repository in which no class knows a successor is as it was. -/
theorem withoutSuccessors_of_fresh (fresh : ∀ c ∈ repo.classes, c.replacedBy = none) :
    repo.withoutSuccessors = repo := by
  have sameCollections : repo.collections.map (Collection.mapClasses PartClass.withoutSuccessor) =
      repo.collections := by
    apply List.map_of_fixed
    intro coll member
    have sameClasses : coll.classes.map PartClass.withoutSuccessor = coll.classes := by
      apply List.map_of_fixed
      intro c inColl
      have isFresh : c.replacedBy = none := fresh c (List.mem_flatMap.2 ⟨coll, member, inColl⟩)
      rw [PartClass.withoutSuccessor, ← isFresh]
    rw [Collection.mapClasses, sameClasses]
  rw [withoutSuccessors, sameCollections]

theorem withoutSuccessors_of_filled (filled : repo.filled = .ok full) :
    full.withoutSuccessors = repo.withoutSuccessors := by
  obtain ⟨-, rfl⟩ := filled_eq_ok_iff.1 filled
  simp only [withoutSuccessors, withoutSuccessor_foldl_record]

theorem classes_of_filled (fresh : ∀ c ∈ repo.classes, c.replacedBy = none) (filled : repo.filled = .ok full) :
    full.classes.map PartClass.withoutSuccessor = repo.classes := by
  rw [← classes_withoutSuccessors, withoutSuccessors_of_filled filled, withoutSuccessors_of_fresh fresh]

theorem classAt?_of_filled (filled : repo.filled = .ok full) (position : ClassPosition) :
    Collection.classAt? full.collections position =
      (Collection.classAt? repo.collections position).map (·.learn (recorded position repo.updates)) := by
  obtain ⟨-, rfl⟩ := filled_eq_ok_iff.1 filled
  exact classAt?_foldl_record _ _ _

theorem index_of_filled (filled : repo.filled = .ok full) : full.index = repo.index := by
  obtain ⟨-, rfl⟩ := filled_eq_ok_iff.1 filled
  rfl

/-- The index of a repository is right for its classes after they have learnt successors. -/
theorem Accurate.of_filled (accurate : repo.Accurate) (filled : repo.filled = .ok full) : full.Accurate := by
  obtain ⟨-, rfl⟩ := filled_eq_ok_iff.1 filled
  have entries := positioned_foldl_record repo.updates repo.collections
  constructor
  · rw [entries]
    exact accurate.describes.map (fun _ => rfl) fun _ => rfl
  · intro c member
    rw [classes, ← Collection.map_snd_positioned, entries, List.map_map] at member
    obtain ⟨⟨position, bare⟩, inEntries, rfl⟩ := List.mem_map.1 member
    have isThere := Collection.mem_positioned_iff.1 inEntries
    exact accurate.embodied bare (Collection.mem_allClasses_iff.2 ⟨position, isThere⟩)

/-- What is recorded for a replaced name is the last class that replaces it. -/
theorem Accurate.recorded_eq (accurate : repo.Accurate) {name : String} {position : ClassPosition}
    (found : target? repo.collections repo.index name = some position) {successor : PartClass}
    (isLast : IsLast (·.replaces = some name) repo.classes successor) :
    recorded position repo.updates = some successor.name := by
  have targets : Targets repo.collections repo.index position = (·.replaces = some name) :=
    funext fun d => propext (accurate.targets_iff found d)
  exact recorded_filterMap_eq_some_iff.2 ⟨successor, targets ▸ isLast, rfl⟩

/-- At a position to which no replaced name leads, nothing is recorded. -/
theorem Accurate.recorded_eq_none (accurate : repo.Accurate) {position : ClassPosition}
    (notNamed : ∀ d ∈ repo.classes, ∀ name, d.replaces = some name →
      repo.index.byName.get? name ≠ some position) : recorded position repo.updates = none := by
  rw [Option.eq_none_iff_forall_ne_some]
  intro successor learnt
  obtain ⟨d, isLast, -⟩ := recorded_filterMap_eq_some_iff.1 learnt
  obtain ⟨name, replaces, found⟩ := isLast.has
  exact notNamed d isLast.mem name replaces (accurate.byName_of_target? found)

theorem Accurate.knowsSuccessors (accurate : repo.Accurate) (fresh : ∀ c ∈ repo.classes, c.replacedBy = none)
    (filled : repo.filled = .ok full) : full.KnowsSuccessors := by
  have sameClasses := classes_of_filled fresh filled
  have sameIndex := index_of_filled filled
  have learnt := classAt?_of_filled filled
  constructor
  · intro d member name replaces
    have isBare : d.withoutSuccessor ∈ repo.classes := sameClasses ▸ List.mem_map_of_mem member
    obtain ⟨position, found⟩ : ∃ position, target? repo.collections repo.index name = some position := by
      rw [← Option.ne_none_iff_exists']
      intro missed
      exact (filled_eq_ok_iff.1 filled).1 _ isBare ⟨name, replaces, missed⟩
    obtain ⟨bare, isLast⟩ : ∃ bare, IsLast (·.replaces = some name) repo.classes bare :=
      exists_isLast_iff.2 ⟨_, isBare, replaces⟩
    obtain ⟨c, isThere, -⟩ := accurate.name_of_target? found
    have isThere' := learnt position
    rw [isThere, accurate.recorded_eq found isLast] at isThere'
    -- The last class is the same before and after, but for the successor it learnt itself.
    rw [← sameClasses, isLast_map_iff] at isLast
    obtain ⟨successor, isLast, rfl⟩ := isLast
    refine ⟨_, Collection.mem_allClasses_iff.2 ⟨position, isThere'⟩, successor, ?_, isLast, rfl⟩
    rw [class?, sameIndex, accurate.byName_of_target? found]
    exact isThere'
  · intro position c isThere notNamed
    rw [learnt, Option.map_eq_some_iff] at isThere
    obtain ⟨bare, isThere, rfl⟩ := isThere
    have unrecorded : recorded position repo.updates = none := by
      apply accurate.recorded_eq_none
      intro d member name replaces byName
      rw [← sameClasses, List.mem_map] at member
      obtain ⟨d, member, rfl⟩ := member
      exact notNamed d member name replaces (sameIndex ▸ byName)
    rw [PartClass.learn, unrecorded, Option.none_or]
    exact fresh bare (Collection.mem_allClasses_iff.2 ⟨position, isThere⟩)

/-! ## Collections that were read -/

section Read

variable {path : String} {collections : List Collection}

/-- Each class that is indexed was read, and has its body beside. -/
theorem exists_read_of_indexed (parsed : ∀ c ∈ collections, ∃ document, Collection.ofNode document = .ok c) :
    ∀ c ∈ (indexed path collections).classes,
      ∃ entries name bare, PartClass.ofFieldsWithin entries name = .ok bare ∧ c = bare.withBody := by
  intro c member
  rw [classes_indexed, List.mem_map] at member
  obtain ⟨bare, member, rfl⟩ := member
  obtain ⟨coll, isCollection, inColl⟩ := List.mem_flatMap.1 member
  obtain ⟨document, read⟩ := parsed coll isCollection
  obtain ⟨entries, name, readOne⟩ := Collection.exists_ofFieldsWithin read bare inColl
  exact ⟨entries, name, bare, readOne, rfl⟩

theorem fresh_indexed (parsed : ∀ c ∈ collections, ∃ document, Collection.ofNode document = .ok c) :
    ∀ c ∈ (indexed path collections).classes, c.replacedBy = none := by
  intro c member
  obtain ⟨entries, name, bare, readOne, rfl⟩ := exists_read_of_indexed parsed c member
  have unreplaced : bare.replacedBy = none := (PartClass.readFrom_of_ofFieldsWithin readOne).unreplaced
  exact unreplaced

/-- In a repository that was loaded every query answers what it should. -/
theorem wellIndexed_of_ofCollections (loaded : ofCollections path collections = .ok repo) :
    repo.WellIndexed :=
  ((accurate_indexed path _).of_filled loaded).wellIndexed

/-- **Filling in successors.**  Each replaced class knows the last class that replaces it, no
other class knows a successor, and nothing else has changed. -/
theorem succession_of_filled (parsed : ∀ c ∈ collections, ∃ document, Collection.ofNode document = .ok c)
    (filled : (indexed path collections).filled = .ok repo) :
    repo.KnowsSuccessors ∧ repo.withoutSuccessors = indexed path collections := by
  have fresh : ∀ c ∈ (indexed path collections).classes, c.replacedBy = none := fresh_indexed parsed
  refine ⟨(accurate_indexed path collections).knowsSuccessors fresh filled, ?_⟩
  rw [withoutSuccessors_of_filled filled, withoutSuccessors_of_fresh fresh]

end Read

namespace Example

open ParameterSet.Example (mapping)

/-- A class element with some fields beside those that all have. -/
def element (id : String) (fields : List (String × String)) : Node :=
  mapping <| [("id", .str id), ("naming", mapping [("template", .str "Part")]), ("source", .str "drawing")] ++
    fields.map fun (name, text) => (name, .str text)

/-- A collection document. -/
def document (id : String) (elements : List Node) : Node := mapping [
  ("collection", mapping [("id", .str id), ("author", .str "A <a@b>"), ("license", .str "L <l>"),
    ("blt-version", .float Collection.currentVersion)]),
  ("classes", .seq elements)]

/-- The collections that some documents hold. -/
def read (documents : List Node) : List Collection :=
  documents.filterMap fun document => (Collection.ofNode document).toOption

theorem parsed_read (documents : List Node) :
    ∀ c ∈ read documents, ∃ document, Collection.ofNode document = .ok c := by
  intro c member
  obtain ⟨document, -, read⟩ := List.mem_filterMap.1 member
  exact ⟨document, toOption_eq_some.1 read⟩

/-- A standard with two successors, whose name a later collection uses again. -/
def bolts : List Collection := read [
  document "bolts" [element "c0" [("standard", "DIN1")],
    element "c1" [("standard", "ISO1"), ("replaces", "DIN1")]],
  document "screws" [element "c2" [("standard", "DIN1")],
    element "c3" [("standard", "ISO2"), ("replaces", "DIN1")]]]

end Example

/-- The first class of the name knows the later of two successors, the second class none. -/
theorem succession_of_bolts :
    ∃ repo, (indexed "parts" Example.bolts).filled = .ok repo ∧ repo.KnowsSuccessors ∧
      repo.withoutSuccessors = indexed "parts" Example.bolts ∧
      repo.classes.map (fun c => (c.name, c.replacedBy)) =
        [("DIN1", some "ISO2"), ("ISO1", none), ("DIN1", none), ("ISO2", none)] := by
  obtain ⟨repo, filled⟩ : ∃ repo, (indexed "parts" Example.bolts).filled = .ok repo :=
    exists_eq_ok_of_isOk (by decide +kernel)
  obtain ⟨knows, same⟩ := succession_of_filled (Example.parsed_read _) filled
  have shown : (indexed "parts" Example.bolts).filled.toOption.map
      (fun repo => repo.classes.map fun c => (c.name, c.replacedBy)) =
        some [("DIN1", some "ISO2"), ("ISO1", none), ("DIN1", none), ("ISO2", none)] := by
    decide +kernel
  rw [filled] at shown
  exact ⟨repo, filled, knows, same, Option.some.inj shown⟩

/-! ## Where filling fails -/

/-- Whether a class replaces a name that no class of a repository has. -/
def ReplacesUnknown (repo : Repository) (d : PartClass) : Prop :=
  ∃ name, d.replaces = some name ∧ ∀ c ∈ repo.classes, c.name ≠ name

/-- Whether a class replaces a name that begins with the label of no body. -/
def ReplacesUnissued (d : PartClass) : Prop :=
  ∃ name, d.replaces = some name ∧ ∀ body : StandardBody, ¬ body.Begins name

theorem Accurate.misses_iff (accurate : repo.Accurate) (d : PartClass) :
    Misses repo.collections repo.index d ↔ repo.ReplacesUnknown d ∨ ReplacesUnissued d := by
  have unnamed : ∀ name, repo.index.byName.get? name = none ↔ ∀ c ∈ repo.classes, c.name ≠ name := by
    intro name
    rw [accurate.describes.byName, Option.map_eq_none_iff, ← Option.map_eq_none_iff (f := Prod.snd),
      Collection.class_of_find? (·.name = name), List.find?_eq_none]
    simp [classes]
  have missed : ∀ name, target? repo.collections repo.index name = none ↔
      (∀ c ∈ repo.classes, c.name ≠ name) ∨ ∀ body : StandardBody, ¬ body.Begins name := by
    intro name
    rw [accurate.target?_eq, ← unnamed, ← StandardBody.ofName?_eq_none_iff]
    cases StandardBody.ofName? name <;> simp
  simp only [Misses, ReplacesUnknown, ReplacesUnissued, missed, and_or_left, exists_or]

theorem Accurate.filled_eq_error_iff (accurate : repo.Accurate) {e : LoadError} :
    repo.filled = .error e ↔
      ∃ d name, IsFirst (fun d => repo.ReplacesUnknown d ∨ ReplacesUnissued d) repo.classes d ∧
        d.replaces = some name ∧ e = ⟨.unknownReplacedClass d.name name, []⟩ := by
  have misses : Misses repo.collections repo.index = fun d => repo.ReplacesUnknown d ∨ ReplacesUnissued d :=
    funext fun d => propext (accurate.misses_iff d)
  rw [filled, fill, map_eq_error, map_eq_error, successors_eq_error_iff, misses]
  rfl

theorem Accurate.filled_fails_iff (accurate : repo.Accurate) :
    (∃ e, repo.filled = .error e) ↔ ∃ d ∈ repo.classes, repo.ReplacesUnknown d ∨ ReplacesUnissued d := by
  simp only [accurate.filled_eq_error_iff, ← exists_isFirst_iff]
  constructor
  · rintro ⟨e, d, name, isFirst, -, -⟩
    exact ⟨d, isFirst⟩
  · rintro ⟨d, isFirst⟩
    obtain ⟨before, after, -, ⟨name, replaces, -⟩ | ⟨name, replaces, -⟩, -⟩ := id isFirst
    · exact ⟨_, d, name, isFirst, replaces, rfl⟩
    · exact ⟨_, d, name, isFirst, replaces, rfl⟩

/-- **Where filling fails.**  The error names the first class that replaces a name which no
class has or which begins with no label.  Failing means that a replaced name is unknown just
where one is, or where all replaced names begin with labels. -/
theorem filled_fails_for_unknown_iff (path : String) (collections : List Collection) :
    (∀ e, (indexed path collections).filled = .error e ↔
      ∃ d name, IsFirst (fun d => (indexed path collections).ReplacesUnknown d ∨ ReplacesUnissued d)
          (indexed path collections).classes d ∧
        d.replaces = some name ∧ e = ⟨.unknownReplacedClass d.name name, []⟩) ∧
    (((∃ e, (indexed path collections).filled = .error e) ↔
        ∃ d ∈ (indexed path collections).classes, (indexed path collections).ReplacesUnknown d) ↔
      (∃ d ∈ (indexed path collections).classes, (indexed path collections).ReplacesUnknown d) ∨
        ∀ d ∈ (indexed path collections).classes, ¬ ReplacesUnissued d) := by
  have accurate := accurate_indexed path collections
  refine ⟨fun e => accurate.filled_eq_error_iff, ?_⟩
  rw [accurate.filled_fails_iff]
  constructor
  · intro onlyUnknown
    by_cases unknown : ∃ d ∈ (indexed path collections).classes, (indexed path collections).ReplacesUnknown d
    · exact .inl unknown
    · refine .inr fun d member unissued => unknown ?_
      exact onlyUnknown.1 ⟨d, member, .inr unissued⟩
  · intro condition
    constructor
    · rintro ⟨d, member, unknown | unissued⟩
      · exact ⟨d, member, unknown⟩
      · exact condition.resolve_right fun issued => issued d member unissued
    · rintro ⟨d, member, unknown⟩
      exact ⟨d, member, .inl unknown⟩

/-- A standard that replaces a class without one. -/
def Example.gaskets : List Collection := Example.read [
  Example.document "gaskets" [Example.element "gasket" [],
    Example.element "c0" [("standard", "ISO1"), ("replaces", "gasket")]]]

/-- Filling fails although each replaced name is the name of a class. -/
theorem filled_fails_for_unknown_refuted :
    (∀ c ∈ Example.gaskets, ∃ document, Collection.ofNode document = .ok c) ∧
      (indexed "parts" Example.gaskets).classes.map (fun c => (c.name, c.replaces)) =
        [("gasket", none), ("ISO1", some "gasket")] ∧
      (indexed "parts" Example.gaskets).filled = .error ⟨.unknownReplacedClass "ISO1" "gasket", []⟩ ∧
      ¬ ∃ d ∈ (indexed "parts" Example.gaskets).classes,
        (indexed "parts" Example.gaskets).ReplacesUnknown d := by
  have listed : (indexed "parts" Example.gaskets).classes.map (fun c => (c.name, c.replaces)) =
      [("gasket", none), ("ISO1", some "gasket")] := by
    decide +kernel
  have shown : (match (indexed "parts" Example.gaskets).filled with
      | .ok _ => none
      | .error e => some e) = some ⟨.unknownReplacedClass "ISO1" "gasket", []⟩ := by
    decide +kernel
  refine ⟨Example.parsed_read _, listed, ?_, ?_⟩
  · split at shown
    · cases shown
    · next e failed => rw [failed, Option.some.inj shown]
  · rintro ⟨d, member, name, replaces, unknown⟩
    have inList : (d.name, d.replaces) ∈ [("gasket", none), ("ISO1", some "gasket")] :=
      listed ▸ List.mem_map_of_mem member
    have named : d.name = "ISO1" ∧ name = "gasket" := by
      rw [replaces] at inList
      simpa using inList
    obtain ⟨c, isClass, same⟩ := List.mem_map.1 (listed ▸ List.mem_cons_self :
      ("gasket", none) ∈ (indexed "parts" Example.gaskets).classes.map fun c => (c.name, c.replaces))
    exact unknown c isClass (named.2 ▸ congrArg Prod.fst same)

end Repository

end PartCatalog
