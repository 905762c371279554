/-
# Collection order -- no order of the collections but that of their ids

A path is known by its steps, and a file name by what precedes and what follows its last
point.  So the names in a directory are all different (`nodup_names_of_list`), and as every
collection file has one extension and is named for its collection, no two collections of a
directory have one id (`nodup_ids_of_readCollections`).  Different ids have one ascending
order, which is all that a repository sees of the order the collections came in
(`collection_order_irrelevant`).
-/
import Mathlib.Data.List.Nodup
import PartCatalog.Proofs.LoadedRepositories

set_option autoImplicit false

namespace PartCatalog

open Outcome

/-! ## File names -/

namespace FileTree

/-- A path is known by its steps. -/
theorem steps_injective {p q : String} (same : steps p = steps q) : p = q := by
  have chars : p.toList.splitOn '/' = q.toList.splitOn '/' :=
    List.map_injective_iff.2 (fun _ _ => String.ofList_inj.1) same
  have joined := congrArg (List.intercalate ['/']) chars
  rw [List.intercalate_splitOn, List.intercalate_splitOn] at joined
  exact String.toList_inj.1 joined

theorem steps_ne_nil (p : String) : steps p ≠ [] := fun none =>
  List.splitOn_ne_nil _ _ (List.map_eq_nil_iff.1 none)

/-- A path is known by what precedes its last step, and that step. -/
theorem splitLast_injective {p q : String} (same : splitLast p = splitLast q) : p = q := by
  have parts : ∀ r : String, steps r = (splitLast r).1 ++ [(splitLast r).2] := by
    intro r
    unfold splitLast
    cases reversed : (steps r).reverse with
    | nil => exact absurd (List.reverse_eq_nil_iff.1 reversed) (steps_ne_nil r)
    | cons name outer =>
        rw [List.reverse_eq_iff.1 reversed, List.reverse_cons]
  exact steps_injective (by rw [parts p, parts q, same])

/-- The names in a directory are all different. -/
theorem nodup_names_of_list {tree : FileTree} {path : String} {entries : List (String × FileEntry)}
    (listed : tree.list path = .ok entries) : (entries.map (·.1)).Nodup := by
  unfold list at listed
  split at listed
  · cases listed
  · next place located =>
    split at listed
    · cases listed
    · cases listed
      rw [List.Nodup, List.pairwise_map, List.pairwise_filterMap]
      refine tree.entries.ascending.imp ?_
      rintro ⟨p, entry⟩ ⟨q, entry'⟩ below ⟨name, _⟩ here ⟨name', _⟩ here' (rfl : name = name')
      simp only [Option.ite_none_right_eq_some, Option.some.injEq, Prod.mk.injEq] at here here'
      -- Both stand in the directory, so one name makes them one path.
      have samePath : p = q := splitLast_injective
        (Prod.ext (here.1.trans here'.1.symm) (here.2.1.trans here'.2.1.symm))
      exact String.lt_irrefl q (samePath ▸ below)
    · cases listed

/-- A file name with an extension is what precedes its last point, the point, and the extension. -/
theorem eq_of_splitExtension {name stem extension : String}
    (split : splitExtension name = (stem, some extension)) :
    name.toList = stem.toList ++ '.' :: extension.toList := by
  unfold splitExtension at split
  dsimp only at split
  split at split
  · next c rest dropped =>
    rw [Prod.mk.injEq, Option.some.injEq] at split
    obtain ⟨rfl, rfl⟩ := split
    have whole : name.toList.reverse.takeWhile (· ≠ '.') ++ name.toList.reverse.dropWhile (· ≠ '.') =
        name.toList.reverse := List.takeWhile_append_dropWhile
    have reversed := congrArg List.reverse whole
    rw [dropped, List.reverse_reverse] at reversed
    rw [String.toList_ofList, String.toList_ofList]
    refine reversed.symm.trans ?_
    rw [List.reverse_append, List.reverse_cons, List.append_assoc, List.singleton_append]
  · cases split

end FileTree

/-! ## Ids -/

namespace Repository

variable {tree : FileTree} {path directory : String}

theorem id_of_readCollection {filename : String} {coll : Collection}
    (read : readCollection tree directory filename = .ok coll) :
    coll.id = (FileTree.splitExtension filename).1 := by
  simp only [readCollection, Load.within, mapError_eq_ok, bind_eq_ok, pure_eq, Except.ok.injEq] at read
  obtain ⟨text, -, document, -, c, -, ⟨⟩, checked, rfl⟩ := read
  unfold checkId at checked
  split at checked
  · cases checked
  · next same => exact not_ne_iff.1 same

/-- Files of one extension are known by what precedes it. -/
theorem nodup_collectionFiles {files : List String} (listed : collectionFiles tree directory = .ok files) :
    (files.map fun name => (FileTree.splitExtension name).1).Nodup := by
  unfold collectionFiles at listed
  split at listed
  · cases listed
  · next entries isDirectory =>
    cases listed
    refine List.Nodup.map_on ?_ ((FileTree.nodup_names_of_list isDirectory).filter _)
    intro name inFiles name' inFiles' sameStem
    have extended : ∀ {n : String}, n ∈ (entries.map (·.1)).filter (fun name =>
        (FileTree.splitExtension name).2 = some collectionExtension) →
          n.toList = (FileTree.splitExtension n).1.toList ++ '.' :: collectionExtension.toList := by
      intro n member
      have isCollection := of_decide_eq_true (List.mem_filter.1 member).2
      exact FileTree.eq_of_splitExtension (Prod.ext rfl isCollection)
    rw [← String.toList_inj, extended inFiles, extended inFiles', sameStem]

/-- No two collections of a directory have one id. -/
theorem nodup_ids_of_readCollections {schedule : Schedule} {options : LoadOptions}
    {collections : List Collection} (read : readCollections schedule options tree directory = .ok collections) :
    (collections.map (·.id)).Nodup := by
  obtain ⟨files, listed, reads⟩ := readCollections_eq_ok_iff.1 read
  have stems : (files.map fun name => (FileTree.splitExtension name).1) = collections.map (·.id) :=
    map_eq_map_of_forall₂ (mapM_eq_ok.1 reads) fun filename coll readOne => (id_of_readCollection readOne).symm
  exact stems ▸ nodup_collectionFiles listed

/-! ## Order -/

variable {collections others : List Collection}

/-- The collections as they stand in a repository. -/
def ascending (collections : List Collection) : List Collection :=
  collections.mergeSort fun a b => decide (a.id ≤ b.id)

theorem pairwise_le_ascending (collections : List Collection) :
    (ascending collections).Pairwise fun a b => a.id ≤ b.id := by
  have total : ∀ a b : Collection, (decide (a.id ≤ b.id) || decide (b.id ≤ a.id)) = true := by
    intro a b
    rw [Bool.or_eq_true, decide_eq_true_eq, decide_eq_true_eq]
    exact String.le_total a.id b.id
  have trans : ∀ a b c : Collection, decide (a.id ≤ b.id) = true → decide (b.id ≤ c.id) = true →
      decide (a.id ≤ c.id) = true := by
    simp only [decide_eq_true_eq]
    exact fun a b c => String.le_trans
  exact (List.pairwise_mergeSort trans total collections).imp of_decide_eq_true

/-- Different ids are in strict order. -/
theorem pairwise_lt_ascending (distinct : (collections.map (·.id)).Nodup) :
    (ascending collections).Pairwise fun a b => a.id < b.id := by
  have distinct' : (ascending collections).Pairwise fun a b => a.id ≠ b.id :=
    List.pairwise_map.1 (((List.mergeSort_perm _ _).map _).nodup_iff.2 distinct)
  refine ((pairwise_le_ascending collections).and distinct').imp fun {a b} order => ?_
  by_contra above
  exact order.2 (String.le_antisymm order.1 (String.not_lt.1 above))

/-- Collections with different ids have one order, whatever order they come in. -/
theorem ascending_eq_of_perm (distinct : (collections.map (·.id)).Nodup) (perm : others.Perm collections) :
    ascending others = ascending collections := by
  have perm' : (ascending others).Perm (ascending collections) :=
    (List.mergeSort_perm _ _).trans (perm.trans (List.mergeSort_perm _ _).symm)
  have antisymm : ∀ a b : Collection, a ∈ ascending others → b ∈ ascending collections →
      a.id ≤ b.id → b.id ≤ a.id → a = b := by
    intro a b inOthers inSorted ab ba
    have member : a ∈ collections := perm.mem_iff.1 (List.mem_mergeSort.1 inOthers)
    exact List.inj_on_of_nodup_map distinct member (List.mem_mergeSort.1 inSorted) (String.le_antisymm ab ba)
  exact perm'.eq_of_pairwise antisymm (pairwise_le_ascending others) (pairwise_le_ascending collections)

/-- Filling changes no id. -/
theorem ids_of_filled {repo full : Repository} (filled : repo.filled = .ok full) :
    full.collections.map (·.id) = repo.collections.map (·.id) := by
  have same := congrArg (fun r => r.collections.map (·.id)) (withoutSuccessors_of_filled filled)
  simpa [withoutSuccessors, Collection.mapClasses, Function.comp_def] using same

/-- **No order of the collections counts but that of their ids.**  The collections of a directory
have different ids; and collections with different ids make one repository, or fail with one
error, in whatever order they come.  They stand there in strictly ascending order, and the
error can only be that a replaced class is unknown. -/
theorem collection_order_irrelevant :
    (∀ schedule options tree directory collections,
        readCollections schedule options tree directory = .ok collections → (collections.map (·.id)).Nodup) ∧
      ∀ path collections others, (collections.map (·.id)).Nodup → others.Perm collections →
        ofCollections path others = ofCollections path collections ∧
        (∀ repo, ofCollections path collections = .ok repo →
          repo.collections.Pairwise fun a b => a.id < b.id) ∧
        ∀ e, ofCollections path collections = .error e →
          ∃ class_ replaced, e = ⟨.unknownReplacedClass class_ replaced, []⟩ := by
  refine ⟨fun schedule options tree directory collections => nodup_ids_of_readCollections,
    fun path collections others distinct perm => ⟨?_, fun repo made => ?_, fun e fails => ?_⟩⟩
  · exact congrArg (fun inOrder => (indexed path inOrder).filled) (ascending_eq_of_perm distinct perm)
  · have ids : repo.collections.map (·.id) = (ascending collections).map (·.id) := by
      rw [ids_of_filled made, indexed, List.map_map]
      rfl
    have idsAscend : (repo.collections.map (·.id)).Pairwise (· < ·) :=
      ids ▸ List.pairwise_map.2 (pairwise_lt_ascending distinct)
    exact List.pairwise_map.1 idsAscend
  · obtain ⟨d, name, -, -, rfl⟩ := (accurate_indexed path _).filled_eq_error_iff.1 fails
    exact ⟨d.name, name, rfl⟩

/-- Bolts and screws may come in either order, and the pins stand under one id. -/
theorem collection_order_irrelevant_bolts :
    ∃ coll, readCollections Schedule.inOrder LoadOptions.defaults Example.pinFiles "parts/data" = .ok [coll] ∧
      ([coll].map (·.id)).Nodup ∧
      Example.bolts.map (·.id) = ["bolts", "screws"] ∧
      ofCollections "parts" Example.bolts.reverse = ofCollections "parts" Example.bolts := by
  obtain ⟨coll, -, -, read, -⟩ := Example.exists_pin
  have ids : Example.bolts.map (·.id) = ["bolts", "screws"] := by decide +kernel
  have distinct : (Example.bolts.map (·.id)).Nodup := by
    rw [ids]
    decide
  have reversed : Example.bolts.reverse.Perm Example.bolts := List.reverse_perm _
  exact ⟨coll, read, collection_order_irrelevant.1 _ _ _ _ _ read, ids,
    (collection_order_irrelevant.2 "parts" _ _ distinct reversed).1⟩

end Repository

end PartCatalog
