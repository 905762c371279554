/-
# Schedules -- what is seen of the order in which collection files are read

Files that are read at the same time give what they would give one after the other, whenever all
of them can be read (`Schedule.gather_map_eq_ok_iff`).  So a repository is loaded under every
schedule or under none, and it is the same one (`Repository.loadBy_eq_ok_iff`).  If files cannot be
read, one of their errors is given (`Schedule.gather_eq_error`), and each of them is under some
schedule (`Schedule.gather_preferring`).  The order of the files is the schedule that reads them
one after the other (`Schedule.gather_inOrder`).
-/
import PartCatalog.Proofs.LoadErrors

set_option autoImplicit false

namespace PartCatalog

open Outcome

/-! ## Readings at the same time -/

namespace Schedule

variable {α β : Type} {schedule : Schedule} {readings : List (Load.Result α)} {e : LoadError} {xs : List α}

theorem mem_failures_iff : e ∈ failures readings ↔ .error e ∈ readings := by
  rw [failures, List.mem_filterMap]
  constructor
  · rintro ⟨reading, member, isError⟩
    cases reading with
    | ok x => cases isError
    | error e' =>
        cases isError
        exact member
  · intro member
    exact ⟨_, member, rfl⟩

theorem failures_eq_nil_iff :
    (failures readings = [] ∧ readings.filterMap Except.toOption = xs) ↔
      List.Forall₂ (fun reading x => reading = .ok x) readings xs := by
  induction readings generalizing xs with
  | nil => simp [failures, eq_comm]
  | cons reading readings ih =>
      rw [List.forall₂_cons_left_iff]
      cases reading with
      | error e => simp [failures]
      | ok x =>
          constructor
          · rintro ⟨noneFails, rfl⟩
            exact ⟨x, _, rfl, ih.1 ⟨noneFails, rfl⟩, rfl⟩
          · rintro ⟨_, _, ⟨⟩, rest, rfl⟩
            obtain ⟨noneFails, rfl⟩ := ih.2 rest
            exact ⟨noneFails, rfl⟩

/-- Together they succeed exactly if each of them does. -/
theorem gather_eq_ok_iff :
    schedule.gather readings = .ok xs ↔ List.Forall₂ (fun reading x => reading = .ok x) readings xs := by
  rw [← failures_eq_nil_iff, gather]
  split
  · next noneFails => simp [noneFails]
  · next oneFails => simp [oneFails]

theorem gather_map_eq_ok_iff {f : β → Load.Result α} {ys : List β} :
    schedule.gather (ys.map f) = .ok xs ↔ ys.mapM f = .ok xs := by
  rw [gather_eq_ok_iff, mapM_eq_ok, List.forall₂_map_left_iff]

theorem gather_eq_error (fails : schedule.gather readings = .error e) : .error e ∈ readings := by
  unfold gather at fails
  split at fails
  · cases fails
  · next first later isFailures =>
    cases fails
    rw [← mem_failures_iff, isFailures]
    exact schedule.isOne first later

/-- The schedule in which a given error is the first, where it is there. -/
def preferring (e : LoadError) : Schedule where
  first e' es := if e ∈ es then e else e'
  isOne e' es := by
    split
    · next member => exact List.mem_cons_of_mem e' member
    · exact List.mem_cons_self

theorem gather_preferring (member : .error e ∈ readings) : (preferring e).gather readings = .error e := by
  have isFailure := mem_failures_iff.2 member
  unfold gather
  cases isFailures : failures readings with
  | nil =>
      rw [isFailures] at isFailure
      cases isFailure
  | cons first later =>
      rw [isFailures] at isFailure
      rcases List.mem_cons.1 isFailure with rfl | inLater
      · exact congrArg Except.error (ite_self e)
      · exact congrArg Except.error (if_pos inLater)

/-- In their order they fail where the first of them does. -/
theorem gather_inOrder (f : β → Load.Result α) (ys : List β) : inOrder.gather (ys.map f) = ys.mapM f := by
  induction ys with
  | nil => rfl
  | cons y ys ih =>
      rw [List.map_cons, List.mapM_cons, ← ih]
      cases f y with
      | error e => rfl
      | ok x =>
          have sameFailures : failures (.ok x :: ys.map f) = failures (ys.map f) := rfl
          rw [gather, gather, sameFailures]
          cases failures (ys.map f) <;> rfl

end Schedule

/-! ## Loading -/

namespace Repository

variable {schedule : Schedule} {tree : FileTree} {path directory filename : String} {options : LoadOptions}
  {files : List String} {collections : List Collection} {repo : Repository} {e : LoadError}

theorem readCollections_of_listed (listed : collectionFiles tree directory = .ok files) :
    readCollections schedule options tree directory =
      if options.parallel = true then schedule.gather (files.map (readCollection tree directory))
      else files.mapM (readCollection tree directory) := by
  rw [readCollections, listed]
  rfl

theorem readCollections_eq_ok_iff :
    readCollections schedule options tree directory = .ok collections ↔
      ∃ files, collectionFiles tree directory = .ok files ∧
        files.mapM (readCollection tree directory) = .ok collections := by
  rw [readCollections, bind_eq_ok]
  refine exists_congr fun files => and_congr_right fun _ => ?_
  split
  · exact Schedule.gather_map_eq_ok_iff
  · exact Iff.rfl

/-- Whether a collection file can be the one whose error is given: any that cannot be read or, if
the files are read one after the other, the first. -/
structure FailsFirst (tree : FileTree) (options : LoadOptions) (directory filename : String)
    (files : List String) : Prop where
  isFile : filename ∈ files
  inOrder : options.parallel = false →
    IsFirst (fun file => ∃ e, readCollection tree directory file = .error e) files filename

/-- The error of the collections is that of such a file. -/
theorem exists_failsFirst (listed : collectionFiles tree directory = .ok files)
    (fails : readCollections schedule options tree directory = .error e) :
    ∃ filename, FailsFirst tree options directory filename files ∧
      readCollection tree directory filename = .error e := by
  rw [readCollections_of_listed listed] at fails
  split at fails
  · next parallel =>
    obtain ⟨filename, isFile, failsHere⟩ := List.mem_map.1 (Schedule.gather_eq_error fails)
    refine ⟨filename, ⟨isFile, fun sequential => ?_⟩, failsHere⟩
    cases sequential.symm.trans parallel
  · obtain ⟨filename, first, failsHere⟩ := mapM_eq_error.1 fails
    exact ⟨filename, ⟨first.mem, fun _ => first⟩, failsHere⟩

/-- The error of such a file is given under some schedule. -/
theorem FailsFirst.exists_schedule (first : FailsFirst tree options directory filename files)
    (listed : collectionFiles tree directory = .ok files)
    (fails : readCollection tree directory filename = .error e) :
    ∃ schedule, readCollections schedule options tree directory = .error e := by
  refine ⟨Schedule.preferring e, ?_⟩
  rw [readCollections_of_listed listed]
  split
  · exact Schedule.gather_preferring (List.mem_map.2 ⟨filename, first.isFile, fails⟩)
  · next sequential => exact mapM_eq_error.2 ⟨filename, first.inOrder (Bool.eq_false_iff.2 sequential), fails⟩

/-- Loading goes by stages: two directories are there, the collections are read and made into a
repository, and the bases are read and added. -/
theorem loadBy_eq_ok_iff_stages :
    loadBy schedule tree path options = .ok repo ↔
      (tree.isDirectory path = true ∧ tree.isDirectory (FileTree.join path "data") = true) ∧
        ∃ collections bare bases,
          readCollections schedule options tree (FileTree.join path "data") = .ok collections ∧
          ofCollections path collections = .ok bare ∧ readBases tree path options = .ok bases ∧
          repo = { bare with bases } := by
  simp only [loadBy, Load.within, mapError_eq_ok]
  cases isThere : tree.isDirectory path with
  | false => simp [Load.fail]
  | true =>
      cases hasData : tree.isDirectory (FileTree.join path "data") with
      | false => simp [Load.fail]
      | true =>
          simp only [Bool.not_true, Bool.false_eq_true, if_false, bind_eq_ok, pure_eq, Except.ok.injEq,
            and_self, true_and, exists_and_left, @eq_comm _ _ repo]

/-- **A repository does not show how it was read.**  It is loaded under every schedule that may
read its collection files, or under none. -/
theorem loadBy_eq_ok_iff : loadBy schedule tree path options = .ok repo ↔ load tree path options = .ok repo := by
  simp only [load, loadBy_eq_ok_iff_stages, readCollections_eq_ok_iff]

theorem readCollections_inOrder :
    readCollections Schedule.inOrder options tree directory =
      collectionFiles tree directory >>= fun files => files.mapM (readCollection tree directory) := by
  refine congrArg (collectionFiles tree directory >>= ·) (funext fun files => ?_)
  split
  · exact Schedule.gather_inOrder _ files
  · rfl

/-- One after the other, collection files fail in their order. -/
theorem loadBy_of_sequential (sequential : options.parallel = false) :
    loadBy schedule tree path options = load tree path options := by
  have same : ∀ directory, readCollections schedule options tree directory =
      readCollections Schedule.inOrder options tree directory := by
    intro directory
    rw [readCollections_inOrder, readCollections, sequential]
    rfl
  simp only [load, loadBy, same]

end Repository

end PartCatalog
