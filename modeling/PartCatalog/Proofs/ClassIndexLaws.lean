/-
# Laws of the class index -- what a name and a body lead to

A name belongs to the body of the longest label it begins with (`ofName?_eq_some_iff`),
because no label in `StandardBody.all` begins a later one.  `ClassIndex.Describes` says of
an index what it was built from: under each name the first entry of that name, under each
label the entries of that body in order.  Entering one more entry keeps this true
(`Describes.enter`), so it is true of a whole index (`describes_ofCollections`), and what the
queries of a repository answer follows (`Repository.WellIndexed`).
-/
import PartCatalog.Proofs.ClassPositions
import PartCatalog.Proofs.NameMapLaws
import PartCatalog.Repository.Load

set_option autoImplicit false

namespace PartCatalog

/-! ## The body of a name -/

namespace StandardBody

/-- Whether a name begins with the label of a body. -/
def Begins (body : StandardBody) (name : String) : Prop := body.label.toList <+: name.toList

/-- Whether a body has the longest of all labels that a name begins with. -/
structure IsLongest (body : StandardBody) (name : String) : Prop where
  begins : body.Begins name
  longest : ∀ other : StandardBody, other.Begins name → other ≠ body →
    other.label.toList.length < body.label.toList.length

variable {body other : StandardBody} {name : String}

theorem mem_all (body : StandardBody) : body ∈ all := by cases body <;> decide

theorem label_injective : Function.Injective label := by
  intro body other same
  cases body <;> cases other <;> first | rfl | exact absurd same (by decide)

theorem issues_iff : body.issues name = true ↔ body.Begins name := List.isPrefixOf_iff_prefix

/-- No label begins the label of a body that is tried later. -/
theorem not_begins_later :
    all.Pairwise fun body other => ¬ body.label.toList <+: other.label.toList := by
  decide

theorem isLongest_of_ofName? (found : ofName? name = some body) : body.IsLongest name := by
  obtain ⟨issues, earlier, later, split, none_earlier⟩ := List.find?_eq_some_iff_append.1 found
  have begins : body.Begins name := issues_iff.1 issues
  refine ⟨begins, fun other otherBegins different => ?_⟩
  have isLater : other ∈ later := by
    have member : other ∈ earlier ++ body :: later := split ▸ mem_all other
    rcases List.mem_append.1 member with inEarlier | here
    · have notIssues : other.issues name = false := by simpa using none_earlier other inEarlier
      rw [issues_iff.2 otherBegins] at notIssues
      cases notIssues
    · exact (List.mem_cons.1 here).resolve_left different
  have apart : ¬ body.label.toList <+: other.label.toList := by
    have pairwise := not_begins_later
    rw [split] at pairwise
    have after := (List.pairwise_append.1 pairwise).2.1
    exact (List.pairwise_cons.1 after).1 other isLater
  -- Two beginnings of one name, of which the first is not a beginning of the second.
  by_contra notShorter
  exact apart (List.prefix_of_prefix_length_le begins otherBegins (Nat.le_of_not_lt notShorter))

theorem ofName?_eq_none_iff : ofName? name = none ↔ ∀ body : StandardBody, ¬ body.Begins name := by
  simp only [ofName?, List.find?_eq_none, issues_iff]
  exact ⟨fun none_begins body => none_begins body (mem_all body), fun none_begins body _ => none_begins body⟩

theorem ofName?_eq_some_iff : ofName? name = some body ↔ body.IsLongest name := by
  refine ⟨isLongest_of_ofName?, fun isLongest => ?_⟩
  cases found : ofName? name with
  | none => exact absurd isLongest.begins (ofName?_eq_none_iff.1 found body)
  | some other =>
      have otherLongest := isLongest_of_ofName? found
      by_cases same : other = body
      · rw [same]
      · have shorter := isLongest.longest other otherLongest.begins same
        have longer := otherLongest.longest body isLongest.begins (Ne.symm same)
        omega

end StandardBody

/-! ## What an index describes -/

/-- The label of the body that a class belongs to. -/
def PartClass.bodyLabel? (c : PartClass) : Option String := c.standardBody.map StandardBody.label

namespace ClassIndex

/-- Whether an index leads to some entries: from a name to the first of that name, and from
a label to all whose body has the label. -/
structure Describes (index : ClassIndex) (entries : List (ClassPosition × PartClass)) : Prop where
  byName : ∀ name, index.byName.get? name = (entries.find? (·.2.name = name)).map (·.1)
  byBody : ∀ label, index.under label = (entries.filter (·.2.bodyLabel? = some label)).map (·.1)

variable {index : ClassIndex} {entries : List (ClassPosition × PartClass)}

theorem get?_insertNew {α : Type} (m : NameMap α) (name other : String) (x : α) :
    (m.insertNew name x).get? other = (m.get? other).or (if name = other then some x else none) := by
  unfold NameMap.insertNew
  split
  · next known =>
    split
    · next same =>
      subst same
      obtain ⟨y, found⟩ := Option.isSome_iff_exists.1 known
      rw [found, Option.some_or]
    · rw [Option.or_none]
  · next unknown =>
    rw [NameMap.get?_insert]
    split
    · next same =>
      subst same
      have absent : m.get? name = none := by simpa [NameMap.contains] using unknown
      rw [absent, Option.none_or]
    · rw [Option.or_none]

theorem byName_enter (index : ClassIndex) (position : ClassPosition) (c : PartClass) :
    (index.enter (position, c)).byName = index.byName.insertNew c.name position := by
  cases belongs : c.standardBody <;> simp only [enter, belongs, enterBody]

theorem under_enter (index : ClassIndex) (position : ClassPosition) (c : PartClass) (label : String) :
    (index.enter (position, c)).under label =
      index.under label ++ if c.bodyLabel? = some label then [position] else [] := by
  unfold enter
  cases belongs : c.standardBody with
  | none => simp [PartClass.bodyLabel?, belongs, under]
  | some body =>
      simp only [PartClass.bodyLabel?, belongs, under, enterBody, ofBody, NameMap.get?_insert,
        Option.map_some, Option.some.injEq]
      split
      · next same => simp [same]
      · simp

theorem describes_empty : empty.Describes [] where
  byName := fun _ => rfl
  byBody := fun _ => rfl

/-- One more entry is described once it is entered. -/
theorem Describes.enter (describes : index.Describes entries) (entry : ClassPosition × PartClass) :
    (index.enter entry).Describes (entries ++ [entry]) where
  byName := by
    intro name
    rw [byName_enter, get?_insertNew, describes.byName, List.find?_append]
    by_cases named : entry.2.name = name <;>
      cases entries.find? (·.2.name = name) <;> simp [named]
  byBody := by
    intro label
    rw [under_enter, describes.byBody, List.filter_append, List.map_append]
    by_cases belongs : entry.2.bodyLabel? = some label <;> simp [belongs]

theorem Describes.foldl_enter (describes : index.Describes entries)
    (more : List (ClassPosition × PartClass)) :
    (more.foldl ClassIndex.enter index).Describes (entries ++ more) := by
  induction more generalizing index entries with
  | nil => simpa using describes
  | cons entry more ih => simpa using ih (describes.enter entry)

theorem describes_ofCollections (collections : List Collection) :
    (ofCollections collections).Describes (Collection.positioned collections) :=
  describes_empty.foldl_enter _

/-- An index does not notice what has neither to do with a name nor with a body. -/
theorem Describes.map (describes : index.Describes entries)
    {f : ClassPosition × PartClass → PartClass} (sameName : ∀ e, (f e).name = e.2.name)
    (sameBody : ∀ e, (f e).standardBody = e.2.standardBody) :
    index.Describes (entries.map fun e => (e.1, f e)) where
  byName := by
    intro name
    rw [describes.byName, List.find?_map, Option.map_map]
    simp only [Function.comp_def, sameName]
  byBody := by
    intro label
    have sameLabel : ∀ e, (f e).bodyLabel? = e.2.bodyLabel? := fun e => by
      rw [PartClass.bodyLabel?, sameBody, PartClass.bodyLabel?]
    rw [describes.byBody, List.filter_map, List.map_map]
    simp only [Function.comp_def, sameLabel]

/-- Whether an index leads to a position, from a name or from a label. -/
def Holds (index : ClassIndex) (position : ClassPosition) : Prop :=
  (∃ name, index.byName.get? name = some position) ∨ ∃ label, position ∈ index.under label

theorem Describes.mem_of_holds (describes : index.Describes entries) {position : ClassPosition}
    (holds : index.Holds position) : ∃ c, (position, c) ∈ entries := by
  rcases holds with ⟨name, found⟩ | ⟨label, member⟩
  · rw [describes.byName, Option.map_eq_some_iff] at found
    obtain ⟨e, isFirst, rfl⟩ := found
    exact ⟨e.2, List.mem_of_find?_eq_some isFirst⟩
  · rw [describes.byBody, List.mem_map] at member
    obtain ⟨e, listed, rfl⟩ := member
    exact ⟨e.2, (List.mem_filter.1 listed).1⟩

end ClassIndex

/-! ## Repositories -/

namespace Repository

/-- What the queries of a repository answer.  Each class has the body its name belongs to; a
body has its classes, in order, at different positions, and no two bodies share one; a name
has the first class of that name, and the collection in which that class is. -/
structure WellIndexed (repo : Repository) : Prop where
  body : ∀ c ∈ repo.classes, ∀ body, c.standardBody = some body ↔ body.IsLongest c.name
  noBody : ∀ c ∈ repo.classes, c.standardBody = none ↔ ∀ body : StandardBody, ¬ body.Begins c.name
  standardized : ∀ body, repo.standardized body = repo.classes.filter (·.standardBody = some body)
  otherLabels : ∀ label, (∀ body : StandardBody, body.label ≠ label) → repo.classesUnder label = []
  nodup : ∀ body, (repo.index.ofBody body).Nodup
  disjoint : ∀ body other position, position ∈ repo.index.ofBody body →
    position ∈ repo.index.ofBody other → body = other
  class? : ∀ name, repo.class? name = repo.classes.find? (·.name = name)
  collectionOf? : ∀ name,
    repo.collectionOf? name = repo.collections.find? (·.classes.any (·.name = name))
  inCollection : ∀ name,
    repo.class? name = (repo.collectionOf? name).bind (·.classes.find? (·.name = name))
  inRange : ∀ position, repo.index.Holds position →
    ∃ c, repo.collections[position.collection]? = some c ∧ position.index < c.classes.length

/-- Whether the classes of a repository have their bodies and its index describes them. -/
structure Accurate (repo : Repository) : Prop where
  describes : repo.index.Describes (Collection.positioned repo.collections)
  embodied : ∀ c ∈ repo.classes, c.standardBody = StandardBody.ofName? c.name

section Accurate

variable {repo : Repository}

/-- Classes whose positions are entries have the classes of the entries. -/
theorem filterMap_classAt? {collections : List Collection}
    {entries : List (ClassPosition × PartClass)}
    (sub : ∀ e ∈ entries, e ∈ Collection.positioned collections) :
    (entries.map (·.1)).filterMap (Collection.classAt? collections) = entries.map (·.2) := by
  rw [List.filterMap_map, ← List.filterMap_eq_map]
  apply List.filterMap_congr
  intro e member
  exact Collection.mem_positioned_iff.1 (sub e member)

theorem Accurate.classesUnder_eq (accurate : repo.Accurate) (label : String) :
    repo.classesUnder label = repo.classes.filter (·.bodyLabel? = some label) := by
  rw [classesUnder, accurate.describes.byBody,
    filterMap_classAt? fun e listed => (List.mem_filter.1 listed).1,
    classes, ← Collection.map_snd_positioned, List.filter_map]
  rfl

theorem Accurate.class?_eq (accurate : repo.Accurate) (name : String) :
    repo.class? name = repo.classes.find? (·.name = name) := by
  rw [class?, accurate.describes.byName, classes, ← Collection.class_of_find?]
  cases found : (Collection.positioned repo.collections).find? (·.2.name = name) with
  | none => rfl
  | some e => exact Collection.mem_positioned_iff.1 (List.mem_of_find?_eq_some found)

theorem Accurate.collectionOf?_eq (accurate : repo.Accurate) (name : String) :
    repo.collectionOf? name = repo.collections.find? (·.classes.any (·.name = name)) := by
  rw [collectionOf?, accurate.describes.byName, Option.bind_map]
  exact Collection.collection_of_find? (·.name = name) _

/-- The class at a position that is listed under a body has the label of the body. -/
theorem Accurate.label_of_listed (accurate : repo.Accurate) {body : StandardBody} {position : ClassPosition}
    (listed : position ∈ repo.index.ofBody body) :
    (Collection.classAt? repo.collections position).bind PartClass.bodyLabel? = some body.label := by
  rw [ClassIndex.ofBody, accurate.describes.byBody, List.mem_map] at listed
  obtain ⟨⟨position, c⟩, member, rfl⟩ := listed
  obtain ⟨isThere, hasLabel⟩ := List.mem_filter.1 member
  rw [Collection.mem_positioned_iff.1 isThere]
  exact of_decide_eq_true hasLabel

theorem Accurate.wellIndexed (accurate : repo.Accurate) : repo.WellIndexed where
  body := by
    intro c member body
    rw [accurate.embodied c member, StandardBody.ofName?_eq_some_iff]
  noBody := by
    intro c member
    rw [accurate.embodied c member, StandardBody.ofName?_eq_none_iff]
  standardized := by
    intro body
    have sameLabel : ∀ c : PartClass, (c.bodyLabel? = some body.label) = (c.standardBody = some body) := by
      intro c
      rw [PartClass.bodyLabel?, ← Option.map_some, (Option.map_injective StandardBody.label_injective).eq_iff]
    rw [standardized, accurate.classesUnder_eq]
    simp only [sameLabel]
  otherLabels := by
    intro label other
    rw [accurate.classesUnder_eq, List.filter_eq_nil_iff]
    intro c _ labelled
    obtain ⟨body, -, same⟩ := Option.map_eq_some_iff.1 (of_decide_eq_true labelled)
    exact other body same
  nodup := by
    intro body
    rw [ClassIndex.ofBody, accurate.describes.byBody]
    exact (Collection.nodup_positions repo.collections).sublist (List.filter_sublist.map _)
  disjoint := by
    intro body other position inBody inOther
    have sameLabel : body.label = other.label :=
      Option.some.inj ((accurate.label_of_listed inBody).symm.trans (accurate.label_of_listed inOther))
    exact StandardBody.label_injective sameLabel
  class? := accurate.class?_eq
  collectionOf? := accurate.collectionOf?_eq
  inCollection := by
    intro name
    rw [accurate.class?_eq, accurate.collectionOf?_eq]
    exact Collection.find?_allClasses _ _
  inRange := by
    intro position holds
    obtain ⟨c, member⟩ := accurate.describes.mem_of_holds holds
    obtain ⟨coll, isCollection, isClass⟩ := Option.bind_eq_some_iff.1 (Collection.mem_positioned_iff.1 member)
    exact ⟨coll, isCollection, (List.getElem?_eq_some_iff.1 isClass).1⟩

end Accurate

/-! ## Indexed collections -/

theorem classes_indexed (path : String) (collections : List Collection) :
    (indexed path collections).classes = (Collection.allClasses collections).map PartClass.withBody :=
  Collection.allClasses_mapClasses _ _

theorem accurate_indexed (path : String) (collections : List Collection) :
    (indexed path collections).Accurate where
  describes := ClassIndex.describes_ofCollections _
  embodied := by
    intro c member
    rw [classes_indexed, List.mem_map] at member
    obtain ⟨bare, -, rfl⟩ := member
    rfl

/-- Indexing changes nothing of the classes but their bodies, and afterwards the queries
answer what they should. -/
theorem wellIndexed_indexed (path : String) (collections : List Collection) :
    (indexed path collections).classes = (Collection.allClasses collections).map PartClass.withBody ∧
      (indexed path collections).WellIndexed :=
  ⟨classes_indexed path collections, (accurate_indexed path collections).wellIndexed⟩

end Repository

end PartCatalog
