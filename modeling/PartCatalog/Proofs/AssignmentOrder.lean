/-
# Assignment order -- only the last assignment of a name counts

Assignments that are all accepted lay their values over the defaults (`freeValues_eq_ok_iff`),
so the value of a free parameter is the one of the last assignment that names it
(`get?_freeValues`).  Two lists with the same last assignment of each name give the same free
values and with them the same part, or the same error (`freeValues_eq_of_last`).  An
assignment names a free parameter and no free value is left without one, so what resolves has
the parameters of the set for its names, and no other (`keys_of_resolve`).
-/
import PartCatalog.Proofs.CheckedClasses
import PartCatalog.Proofs.LoadedRepositories

set_option autoImplicit false

namespace PartCatalog

open Outcome

namespace PartQuery

variable {params : ParameterSet} {free : NameMap Value}

/-! ## Assignments -/

/-- The name that an assignment gives a value, all of the text if it is no assignment. -/
def assignedName (text : String) : String := (CommandLine.Word.splitAtEquals text.toList).1

/-- The last of some assignments that names a parameter. -/
def lastAssignment? (name : String) (assignments : List String) : Option String :=
  (assignments.filter fun text => assignedName text = name).getLast?

/-- Whether every one of some texts is an assignment to a free parameter that has its type. -/
def Accepts (params : ParameterSet) (assignments : List String) : Prop :=
  ∀ text ∈ assignments, (assignment params text).isOk = true

/-- An accepted assignment gives a value to the free parameter that it names. -/
theorem assignment_names_free {text : String} {entry : String × Value}
    (read : assignment params text = .ok entry) :
    entry.1 = assignedName text ∧ entry.1 ∈ params.free := by
  unfold assignment at read
  unfold assignedName
  split at read
  · cases read
  · next name raw isSplit =>
    split at read
    · next isFree =>
      dsimp only at read
      split at read
      · cases read
        exact ⟨by rw [isSplit], List.contains_iff_mem.1 isFree⟩
      · cases read
    · cases read

theorem foldlM_assignment_eq_ok_iff {assignments : List String} {start : NameMap Value} :
    (assignments.foldlM (fun free text => do
        let entry ← assignment params text
        return free.insert entry.1 entry.2) start) = .ok free ↔
      ∃ entries, assignments.mapM (assignment params) = .ok entries ∧ free = start.insertAll entries := by
  induction assignments generalizing start with
  | nil => simp [pure_eq, NameMap.insertAll, eq_comm]
  | cons text assignments ih =>
      simp only [List.foldlM_cons, bind_eq_ok, ih, mapM_eq_ok, List.forall₂_cons_left_iff]
      constructor
      · rintro ⟨_, ⟨entry, read, same⟩, entries, reads, rfl⟩
        cases same
        exact ⟨entry :: entries, ⟨entry, entries, read, reads, rfl⟩, rfl⟩
      · rintro ⟨_, ⟨entry, entries, read, reads, rfl⟩, rfl⟩
        exact ⟨_, ⟨entry, read, rfl⟩, entries, reads, rfl⟩

/-- Accepted assignments lay their values over the defaults in order. -/
theorem freeValues_eq_ok_iff {assignments : List String} :
    freeValues params assignments = .ok free ↔
      ∃ entries, assignments.mapM (assignment params) = .ok entries ∧ free = params.defaults.insertAll entries :=
  foldlM_assignment_eq_ok_iff

theorem lastAssignment?_cons (name text : String) (assignments : List String) :
    lastAssignment? name (text :: assignments) =
      (lastAssignment? name assignments).or (if assignedName text = name then some text else none) := by
  unfold lastAssignment?
  rw [List.filter_cons]
  by_cases isName : assignedName text = name
  · simp only [isName, decide_true, if_true, List.getLast?_cons]
    cases (assignments.filter fun text => assignedName text = name).getLast? <;> rfl
  · simp [isName]

/-- Of accepted assignments, the last of a name gives the last entry of the name. -/
theorem lastEntry_eq {assignments : List String} {entries : List (String × Value)}
    (reads : assignments.mapM (assignment params) = .ok entries) (name : String) :
    NameMap.lastEntry name entries =
      (lastAssignment? name assignments).bind fun text => (assignment params text).toOption.map Prod.snd := by
  rw [mapM_eq_ok] at reads
  induction reads with
  | nil => rfl
  | @cons text entry assignments entries read reads ih =>
      have named : entry.1 = assignedName text := (assignment_names_free read).1
      rw [NameMap.lastEntry, ih, lastAssignment?_cons, named]
      cases isLast : lastAssignment? name assignments with
      | none => by_cases isName : assignedName text = name <;> simp [isName, read, Except.toOption]
      | some last =>
          -- What is last among accepted assignments is accepted.
          have member : last ∈ assignments := List.mem_of_mem_filter (List.mem_of_getLast? isLast)
          obtain ⟨entry', -, read'⟩ := exists_left_of_forall₂ reads.flip last member
          simp [read', Except.toOption]

theorem Accepts.exists_entries {assignments : List String} (accepted : Accepts params assignments) :
    ∃ entries, assignments.mapM (assignment params) = .ok entries := by
  simp only [mapM_eq_ok, exists_forall₂_iff]
  exact fun text member => exists_eq_ok_of_isOk (accepted text member)

/-- A free parameter has the value of its last assignment, or else its default. -/
theorem get?_freeValues {assignments : List String} (assigned : freeValues params assignments = .ok free)
    (name : String) :
    free.get? name =
      ((lastAssignment? name assignments).bind fun text =>
        (assignment params text).toOption.map Prod.snd).or (params.defaults.get? name) := by
  obtain ⟨entries, reads, rfl⟩ := freeValues_eq_ok_iff.1 assigned
  rw [NameMap.get?_insertAll, lastEntry_eq reads]

/-- Accepted assignments give the same free values if the last of each name is the same. -/
theorem freeValues_eq_of_last {assignments others : List String} (accepted : Accepts params assignments)
    (accepted' : Accepts params others)
    (same : ∀ name, lastAssignment? name others = lastAssignment? name assignments) :
    freeValues params others = freeValues params assignments := by
  obtain ⟨entries, reads⟩ := accepted.exists_entries
  obtain ⟨entries', reads'⟩ := accepted'.exists_entries
  have assigned := freeValues_eq_ok_iff.2 ⟨entries, reads, rfl⟩
  have assigned' := freeValues_eq_ok_iff.2 ⟨entries', reads', rfl⟩
  rw [assigned, assigned']
  refine congrArg Except.ok (NameMap.ext_get? fun name => ?_)
  rw [get?_freeValues assigned, get?_freeValues assigned', same]

/-! ## Parts -/

/-- Free values and defaults have no other names than the free parameters, so what they resolve
to has the names of the parameters and no other. -/
theorem keys_of_resolve (well : params.WellFormed) {assignments : List String} {values : NameMap Value}
    (assigned : freeValues params assignments = .ok free) (resolved : params.resolve free = .ok values) :
    values.keys = NameMap.keys params.parameters := by
  refine NameMap.keys_eq_of_mem_iff fun name => ⟨fun valued => ?_, ParameterSet.mem_keys_of_resolve resolved⟩
  by_contra unknown
  obtain ⟨entries, reads, rfl⟩ := freeValues_eq_ok_iff.1 assigned
  have notFree : name ∉ params.free := fun isFree => unknown ((well.parameters name).2 (.inr (.inl isFree)))
  have unassigned : name ∉ entries.map (·.1) := by
    intro member
    obtain ⟨entry, isEntry, rfl⟩ := List.mem_map.1 member
    obtain ⟨text, -, read⟩ := exists_left_of_forall₂ (mapM_eq_ok.1 reads) entry isEntry
    exact notFree (assignment_names_free read).2
  have noValue : name ∉ (params.defaults.insertAll entries).keys := by
    rw [NameMap.mem_keys_insertAll, not_or]
    exact ⟨unassigned, mt (well.defaults name).1 notFree⟩
  rw [← NameMap.get?_eq_none_iff, ← ParameterSet.get?_resolve_of_unknown well unknown resolved,
    NameMap.get?_eq_none_iff] at noValue
  exact noValue valued

/-- Whether two lists of assignments come to the same for a class: to the same part or the same
error, and to the same print under each name of the class. -/
def Interchangeable (repo : Repository) (c : PartClass) (withBase : Bool) (assignments others : List String) :
    Prop :=
  PartQuery.part repo c others withBase = PartQuery.part repo c assignments withBase ∧
    ∀ class_ format, repo.class? class_ = some c →
      CommandLine.runParams repo class_ others format withBase =
        CommandLine.runParams repo class_ assignments format withBase

variable {repo : Repository} {c : PartClass} {withBase : Bool}

theorem interchangeable_of_freeValues {assignments others : List String}
    (isSet : parameters repo c withBase = .ok params)
    (same : freeValues params others = freeValues params assignments) :
    Interchangeable repo c withBase assignments others := by
  have samePart : PartQuery.part repo c others withBase = PartQuery.part repo c assignments withBase := by
    simp only [PartQuery.part, isSet]
    change (freeValues params others >>= _) = (freeValues params assignments >>= _)
    rw [same]
  refine ⟨samePart, fun class_ format isClass => ?_⟩
  have found : CommandLine.findClass repo class_ = .ok c := by
    rw [CommandLine.findClass, isClass]
  simp only [CommandLine.runParams, found]
  change (PartQuery.part repo c others withBase >>= _) = (PartQuery.part repo c assignments withBase >>= _)
  rw [samePart]

theorem reachable_parameters {tree : FileTree} {path : String} {options : LoadOptions}
    (loaded : Repository.load tree path options = .ok repo) (isClass : c ∈ repo.classes)
    (isSet : parameters repo c withBase = .ok params) : params.Reachable := by
  cases withBase with
  | true => exact Repository.Loaded.reachable_fullParameters loaded isClass (mapError_eq_ok.1 isSet)
  | false =>
      cases isSet
      exact Repository.Loaded.reachable loaded c isClass

/-- **Only the last assignment of a name counts.**  If all assignments to a class of a loaded
repository are accepted, a part they make has one value for each parameter and no other; other
accepted assignments come to the same if the last of each name is the same; and so does any
order of the assignments that keeps the order of those with one name. -/
theorem part_of_last_assignments {tree : FileTree} {path : String} {options : LoadOptions}
    (loaded : Repository.load tree path options = .ok repo) (isClass : c ∈ repo.classes)
    (isSet : parameters repo c withBase = .ok params) {assignments : List String}
    (accepted : Accepts params assignments) :
    (∀ part, PartQuery.part repo c assignments withBase = .ok part →
        part.values.keys = NameMap.keys params.parameters ∧
          ∃ entries, Json.ofValues part.values = .object entries ∧
            entries.map Prod.fst = NameMap.keys params.parameters) ∧
      (∀ others, Accepts params others →
        (∀ name, lastAssignment? name others = lastAssignment? name assignments) →
          Interchangeable repo c withBase assignments others) ∧
      ∀ others, others.Perm assignments →
        (∀ name, others.filter (fun text => assignedName text = name) =
          assignments.filter fun text => assignedName text = name) →
          Interchangeable repo c withBase assignments others := by
  refine ⟨fun part made => ?_, fun others accepted' same => ?_, fun others perm same => ?_⟩
  · obtain ⟨params', free, isSet', assigned, resolved, -⟩ := part_eq_ok_iff.1 made
    obtain rfl : params = params' := Except.ok.inj (isSet.symm.trans isSet')
    have names := keys_of_resolve (reachable_parameters loaded isClass isSet).wellFormed assigned resolved
    refine ⟨names, _, rfl, ?_⟩
    rw [← names, List.map_map]
    rfl
  · exact interchangeable_of_freeValues isSet (freeValues_eq_of_last accepted accepted' same)
  · have accepted' : Accepts params others := fun text member => accepted text (perm.mem_iff.1 member)
    refine interchangeable_of_freeValues isSet (freeValues_eq_of_last accepted accepted' fun name => ?_)
    rw [lastAssignment?, lastAssignment?, same]

end PartQuery

/-- The length may be assigned first, and the first diameter left out. -/
theorem PartQuery.part_of_last_assignments_pin :
    ∃ repo c, Repository.load Repository.Example.pinFiles "parts" LoadOptions.defaults = .ok repo ∧
      repo.classes = [c] ∧ Accepts c.parameters ["d=1", "l=5", "d=2"] ∧
      Interchangeable repo c true ["d=1", "l=5", "d=2"] ["d=2", "l=5"] ∧
      Interchangeable repo c true ["d=1", "l=5", "d=2"] ["l=5", "d=1", "d=2"] := by
  obtain ⟨coll, repo, c, -, loaded, classes, unbased, allOk⟩ := Repository.Example.exists_pin
  have accepted : Accepts c.parameters ["d=1", "l=5", "d=2"] := List.all_eq_true.1 allOk
  have isClass : c ∈ repo.classes := classes ▸ List.mem_cons_self
  have isSet : parameters repo c true = .ok c.parameters := by
    simp only [parameters, if_true, Repository.fullParameters, Repository.baseFor?, unbased, Option.bind_none]
    rfl
  obtain ⟨-, last, order⟩ := part_of_last_assignments loaded isClass isSet accepted
  have named : assignedName "d=1" = "d" ∧ assignedName "d=2" = "d" ∧ assignedName "l=5" = "l" := by decide
  have kept : ["d=2", "l=5"] ⊆ ["d=1", "l=5", "d=2"] := by decide
  refine ⟨repo, c, loaded, classes, accepted, last _ (fun text member => accepted text (kept member)) ?_,
    order _ (by decide) ?_⟩
  all_goals
    intro name
    by_cases isDiameter : "d" = name
    · subst isDiameter
      decide
    · by_cases isLength : "l" = name
      · subst isLength
        decide
      · simp [lastAssignment?, named, isDiameter, isLength]

end PartCatalog
