/-
# Load errors -- the places that readers give them

Going outwards, each reader may add one place to the error of a part (`Load.within_eq_error`), and
of two places of a kind the inner one is found (`LoadError.place?_placed`).  A fault that ends the
program is given none (`LoadError.placed_of_aborts`).  What is wrong with an element is `Bare`, an
error without a place; and what is wrong inside of a document, be it a collection or a list of
bases, is an `Inner` error: it knows neither the file nor the repository that the document is in,
and its fault is none that needs more than the document.  `loadBy_eq_error_iff_stages` says at which
stage loading fails.
-/
import PartCatalog.Proofs.Outcome
import PartCatalog.Proofs.ReadClasses
import PartCatalog.Repository.Load

set_option autoImplicit false

namespace PartCatalog

open Outcome

/-! ## Adding a place -/

namespace LoadError

variable {e : LoadError} {kind other : PlaceKind} {name : String}

theorem placed_of_reported (reported : e.fault.aborts = false) (kind : PlaceKind) (name : String) :
    e.placed kind name = { e with trace := e.trace ++ [⟨kind, name⟩] } := by
  rw [placed, reported]

theorem placed_of_aborts (aborts : e.fault.aborts = true) (kind : PlaceKind) (name : String) :
    e.placed kind name = e := by
  rw [placed, aborts]

@[simp] theorem fault_placed : (e.placed kind name).fault = e.fault := by
  unfold placed
  split <;> rfl

/-- A place that is added does not hide one further inside. -/
theorem place?_placed (reported : e.fault.aborts = false) :
    (e.placed kind name).place? other = (e.place? other).or (if kind = other then some name else none) := by
  simp only [placed_of_reported reported, place?, List.find?_append, Option.map_or]
  by_cases same : kind = other
  · simp [same]
  · simp [same]

theorem place?_placed_of_ne (different : kind ≠ other) :
    (e.placed kind name).place? other = e.place? other := by
  cases reported : e.fault.aborts with
  | true => rw [placed_of_aborts reported]
  | false => rw [place?_placed reported, if_neg different, Option.or_none]

theorem place?_placed_self (reported : e.fault.aborts = false) (unplaced : e.place? kind = none) :
    (e.placed kind name).place? kind = some name := by
  rw [place?_placed reported, unplaced, if_pos rfl, Option.none_or]

end LoadError

namespace Load

variable {α : Type} {kind : PlaceKind} {name : String} {result : Result α} {e : LoadError}
  {p q : LoadError → Prop}

theorem within_eq_error :
    within kind name result = .error e ↔ ∃ inner, result = .error inner ∧ e = inner.placed kind name := by
  simp only [within, mapError_eq_error, @eq_comm _ _ e]

theorem exists_within_eq_error_iff :
    (∃ e, within kind name result = .error e) ↔ ∃ e, result = .error e := by
  simp only [within_eq_error]
  constructor
  · rintro ⟨e, inner, fails, rfl⟩
    exact ⟨inner, fails⟩
  · rintro ⟨inner, fails⟩
    exact ⟨_, inner, fails, rfl⟩

theorem failsOnly_within (fails : FailsOnly p result) (keeps : ∀ inner, p inner → q (inner.placed kind name)) :
    FailsOnly q (within kind name result) :=
  fails.mapError keeps

theorem failsOnly_fail {fault : LoadFault} (has : p ⟨fault, []⟩) : FailsOnly p (fail fault : Result α) :=
  failsOnly_error has

theorem failsOnly_ofDeclaration {read : Declaration.Result α} (has : ∀ error, p ⟨.declaration error, []⟩) :
    FailsOnly p (ofDeclaration read) := by
  intro e fails
  obtain ⟨error, -, rfl⟩ := mapError_eq_error.1 fails
  exact has error

end Load

/-! ## Inside of a document -/

/-- Whether a document alone can have a fault, whatever else there is. -/
def LoadFault.ofDocument : LoadFault → Bool
  | .file _ | .malformedRepository _ | .nonUniqueBase _ | .unknownReplacedClass .. => false
  | _ => true

namespace LoadError

/-- Whether an error is that of a document, not yet placed in a file. -/
structure Inner (e : LoadError) : Prop where
  noCollection : e.place? .collection = none
  noPath : e.place? .repositoryPath = none
  ofDocument : e.fault.ofDocument = true

/-- Whether an error is that of an element, without a place. -/
structure Bare (e : LoadError) : Prop where
  untraced : e.trace = []
  ofDocument : e.fault.ofDocument = true

theorem bare {fault : LoadFault} (ofDocument : fault.ofDocument = true) : Bare ⟨fault, []⟩ :=
  ⟨rfl, ofDocument⟩

theorem Bare.inner {e : LoadError} (bare : e.Bare) : e.Inner := by
  obtain ⟨fault, trace⟩ := e
  obtain ⟨rfl, ofDocument⟩ := bare
  exact ⟨rfl, rfl, ofDocument⟩

theorem Inner.placed {e : LoadError} {kind : PlaceKind} (inner : e.Inner) (name : String)
    (notCollection : kind ≠ .collection) (notPath : kind ≠ .repositoryPath) : (e.placed kind name).Inner where
  noCollection := (place?_placed_of_ne notCollection).trans inner.noCollection
  noPath := (place?_placed_of_ne notPath).trans inner.noPath
  ofDocument := by rw [fault_placed, inner.ofDocument]

end LoadError

open LoadError (Inner Bare)

theorem Outcome.FailsOnly.inner {α : Type} {result : Load.Result α} (fails : FailsOnly Bare result) :
    FailsOnly Inner result :=
  fun e failed => (fails e failed).inner

theorem DocumentFile.failsOnly_single {text : String} : FailsOnly Inner (single text) := by
  unfold single
  split
  · exact Load.failsOnly_fail (LoadError.bare rfl).inner
  · exact Load.failsOnly_fail (LoadError.bare rfl).inner
  · exact failsOnly_ok _
  · exact Load.failsOnly_fail (LoadError.bare rfl).inner

/-! ## Elements -/

namespace Element

variable {element name : String} {mandatory optional : List String} {entries : List (Node × Node)}
  {declared : Option Node}

theorem failsOnly_check : FailsOnly Bare (check element mandatory optional entries) :=
  Load.failsOnly_ofDeclaration fun _ => LoadError.bare rfl

theorem failsOnly_field : FailsOnly Bare (field element entries name) :=
  Load.failsOnly_ofDeclaration fun _ => LoadError.bare rfl

theorem failsOnly_contact {fault : String → LoadFault} {raw : String} (ofDocument : (fault raw).ofDocument = true) :
    FailsOnly Bare (contact fault raw) := by
  unfold contact
  split
  · exact failsOnly_ok _
  · exact Load.failsOnly_fail (LoadError.bare ofDocument)

theorem failsOnly_parameters : FailsOnly Bare (parameters declared) := by
  unfold parameters
  split
  · exact failsOnly_ok _
  · exact Load.failsOnly_ofDeclaration fun _ => LoadError.bare rfl

end Element

/-! ## Classes -/

namespace PartClass

variable {entries : List (Node × Node)} {name : String}

theorem failsOnly_elementStatus : FailsOnly Bare (elementStatus entries) := by
  unfold elementStatus readStatus
  split
  · exact failsOnly_ok _
  · split
    · exact failsOnly_ok _
    · split
      · exact failsOnly_ok _
      · exact Load.failsOnly_fail (LoadError.bare rfl)

/-- A class is read without a place: a declaration is wrong, or the status is. -/
theorem failsOnly_ofFields : FailsOnly Bare (ofFields entries name) := by
  unfold ofFields
  refine Element.failsOnly_check.bind fun _ => Element.failsOnly_field.bind fun node => ?_
  refine (Load.failsOnly_ofDeclaration fun _ => LoadError.bare rfl).bind fun naming => ?_
  refine failsOnly_elementStatus.bind fun status => Element.failsOnly_parameters.bind fun params => ?_
  exact Element.failsOnly_field.bind fun id => Element.failsOnly_field.bind fun source => failsOnly_ok _

theorem failsOnly_ofNode {node : Node} : FailsOnly Inner (ofNode node) := by
  have each : ∀ entries name, FailsOnly Inner (ofFieldsWithin entries name) := by
    intro entries name
    exact Load.failsOnly_within failsOnly_ofFields.inner fun inner isInner => isInner.placed _ nofun nofun
  unfold ofNode
  split
  · exact Load.failsOnly_fail (LoadError.bare rfl).inner
  · split
    · exact (each _ _).map _
    · exact failsOnly_mapM fun name => each _ name

end PartClass

/-! ## Collections -/

namespace Collection

theorem failsOnly_checkVersion {version : Node} : FailsOnly Inner (checkVersion version) := by
  unfold checkVersion
  split
  · split
    · exact failsOnly_ok _
    · exact Load.failsOnly_fail (LoadError.bare rfl).inner
  · exact Load.failsOnly_fail (LoadError.bare rfl).inner

theorem failsOnly_readAuthors {author : Node} : FailsOnly Inner (readAuthors author) :=
  failsOnly_mapM fun _ => (Element.failsOnly_contact rfl).inner

theorem failsOnly_readLicense {license : Node} : FailsOnly Inner (readLicense license) :=
  (Element.failsOnly_contact rfl).inner

theorem failsOnly_readElements {id : String} {classes : Node} : FailsOnly Inner (readElements id classes) := by
  unfold readElements
  split
  · exact failsOnly_ok _
  · exact Load.failsOnly_fail (LoadError.bare rfl).inner

theorem failsOnly_readClasses {elements : List Node} : FailsOnly Inner (readClasses elements) := by
  refine (failsOnly_mapM fun element => ?_).map _
  exact Load.failsOnly_within PartClass.failsOnly_ofNode fun inner isInner => isInner.placed _ nofun nofun

theorem failsOnly_readHeader {document : Node} : FailsOnly Inner (readHeader document) := by
  unfold readHeader
  split
  · refine (failsOnly_ok _).bind fun root => Element.failsOnly_check.inner.bind fun _ => ?_
    refine Element.failsOnly_field.inner.bind fun node => ?_
    split
    · refine (failsOnly_ok _).bind fun header => Element.failsOnly_check.inner.bind fun _ => ?_
      refine Element.failsOnly_field.inner.bind fun version => failsOnly_checkVersion.bind fun _ => ?_
      exact failsOnly_ok _
    · exact failsOnly_error (LoadError.bare rfl).inner
  · exact failsOnly_error (LoadError.bare rfl).inner

theorem failsOnly_ofNode {document : Node} : FailsOnly Inner (ofNode document) := by
  unfold ofNode
  refine failsOnly_readHeader.bind fun parts => Element.failsOnly_field.inner.bind fun id => ?_
  refine Element.failsOnly_field.inner.bind fun author => failsOnly_readAuthors.bind fun authors => ?_
  refine Element.failsOnly_field.inner.bind fun license => failsOnly_readLicense.bind fun license => ?_
  refine Element.failsOnly_field.inner.bind fun list => failsOnly_readElements.bind fun elements => ?_
  exact failsOnly_readClasses.bind fun classes => failsOnly_ok _

end Collection

/-! ## Bases -/

namespace Base

variable {collection field raw : String} {entries : List (Node × Node)}

theorem failsOnly_strings {node : Node} : FailsOnly Inner (strings field node) := by
  unfold strings
  split
  · exact failsOnly_ok _
  · exact Load.failsOnly_fail (LoadError.bare rfl).inner

theorem failsOnly_contact : FailsOnly Inner (contact field raw) :=
  (Element.failsOnly_contact rfl).inner

theorem failsOnly_ofHeader {kind : BaseKind} {classIds : List String} {parameters : Option Node} :
    FailsOnly Inner (ofHeader collection entries kind classIds parameters) := by
  unfold ofHeader
  refine Element.failsOnly_field.inner.bind fun author => ?_
  refine (failsOnly_mapM fun raw => failsOnly_contact).bind fun authors => ?_
  refine Element.failsOnly_field.inner.bind fun license => failsOnly_contact.bind fun license => ?_
  refine Element.failsOnly_parameters.inner.bind fun params => ?_
  exact Element.failsOnly_field.inner.bind fun filename => failsOnly_ok _

theorem failsOnly_ofModule {module : Node} : FailsOnly Inner (ofModule collection entries module) := by
  unfold ofModule
  split
  · refine (failsOnly_ok _).bind fun fields => Element.failsOnly_check.inner.bind fun _ => ?_
    refine Element.failsOnly_field.inner.bind fun name => ?_
    refine Element.failsOnly_field.inner.bind fun arguments => failsOnly_strings.bind fun arguments => ?_
    refine Element.failsOnly_field.inner.bind fun classIds => failsOnly_strings.bind fun classIds => ?_
    exact failsOnly_ofHeader
  · exact failsOnly_error (LoadError.bare rfl).inner

theorem failsOnly_ofEntry : FailsOnly Inner (ofEntry collection entries) := by
  unfold ofEntry
  dsimp only
  split
  · refine Element.failsOnly_check.inner.bind fun _ => Element.failsOnly_field.inner.bind fun modules => ?_
    split
    · exact failsOnly_mapM fun module => failsOnly_ofModule
    · exact Load.failsOnly_fail (LoadError.bare rfl).inner
  · split
    · refine Element.failsOnly_check.inner.bind fun _ => Element.failsOnly_field.inner.bind fun classIds => ?_
      refine failsOnly_strings.bind fun classIds => ?_
      exact failsOnly_ofHeader.bind fun base => failsOnly_ok _
    · exact Load.failsOnly_fail (LoadError.bare rfl).inner

theorem failsOnly_ofDocument {document : Node} : FailsOnly Inner (ofDocument collection document) := by
  have ofItem : ∀ item, FailsOnly Inner (ofItem collection item) := by
    intro item
    unfold ofItem
    split
    · exact Load.failsOnly_fail (LoadError.bare rfl).inner
    · exact Load.failsOnly_within failsOnly_ofEntry fun inner isInner => isInner.placed _ nofun nofun
  unfold ofDocument
  split
  · exact Load.failsOnly_fail (LoadError.bare rfl).inner
  · exact (failsOnly_mapM ofItem).map _

end Base

/-! ## Loading -/

namespace Repository

variable {schedule : Schedule} {tree : FileTree} {path directory filename : String} {options : LoadOptions}
  {e : LoadError}

theorem failsOnly_checkId {stem id : String} : FailsOnly Inner (checkId stem id) := by
  unfold checkId
  split
  · exact Load.failsOnly_fail (LoadError.bare rfl).inner
  · split
    · exact Load.failsOnly_fail (LoadError.bare rfl).inner
    · exact failsOnly_ok _

/-- A collection file that cannot be read is not text, not one document, no collection, or has
the wrong id. -/
theorem readCollection_eq_error_iff :
    readCollection tree directory filename = .error e ↔
      ∃ inner, e = inner.placed .collection filename ∧
        (DocumentFile.read tree (FileTree.join directory filename) = .error inner ∨
          ∃ text, DocumentFile.read tree (FileTree.join directory filename) = .ok text ∧
            (DocumentFile.single text = .error inner ∨
              ∃ document, DocumentFile.single text = .ok document ∧
                (Collection.ofNode document = .error inner ∨
                  ∃ c, Collection.ofNode document = .ok c ∧
                    checkId (FileTree.splitExtension filename).1 c.id = .error inner))) := by
  rw [readCollection, Load.within_eq_error]
  refine exists_congr fun inner => ?_
  rw [and_comm]
  simp only [bind_eq_error, pure_eq, reduceCtorEq, and_false, exists_false, or_false]

/-- Loading fails at one of its stages, and each of them is placed in the repository. -/
theorem loadBy_eq_error_iff_stages :
    loadBy schedule tree path options = .error e ↔
      ∃ inner, e = inner.placed .repositoryPath path ∧
        ((tree.isDirectory path = false ∧ inner = ⟨.malformedRepository .noDirectory, []⟩) ∨
          (tree.isDirectory path = true ∧ tree.isDirectory (FileTree.join path "data") = false ∧
            inner = ⟨.malformedRepository .noDataDirectory, []⟩) ∨
          (tree.isDirectory path = true ∧ tree.isDirectory (FileTree.join path "data") = true ∧
            (readCollections schedule options tree (FileTree.join path "data") = .error inner ∨
              ∃ collections, readCollections schedule options tree (FileTree.join path "data") = .ok collections ∧
                (ofCollections path collections = .error inner ∨
                  ∃ bare, ofCollections path collections = .ok bare ∧
                    readBases tree path options = .error inner)))) := by
  rw [loadBy, Load.within_eq_error]
  refine exists_congr fun inner => ?_
  rw [and_comm]
  refine and_congr_right fun _ => ?_
  cases isThere : tree.isDirectory path with
  | false => simp [Load.fail, @eq_comm _ _ inner]
  | true =>
      cases hasData : tree.isDirectory (FileTree.join path "data") with
      | false => simp [hasData, Load.fail, @eq_comm _ _ inner]
      | true =>
          simp only [hasData, Bool.not_true, Bool.false_eq_true, if_false, bind_eq_error, pure_eq,
            reduceCtorEq, and_false, exists_false, or_false, false_and, false_or, true_and]

end Repository

end PartCatalog
