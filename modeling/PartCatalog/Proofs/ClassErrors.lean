/-
# Class errors -- how a wrong class element makes loading fail

The classes of an element fail alike under each of its names (`PartClass.ofNode_eq_error_iff`):
what is wrong is placed in the class of the element's id, and going outwards in the class of its
first name, in the file, and in the repository.  Loading has no other error if one file of a
repository has a valid header and a wrong element, and all other files can be read
(`Repository.load_fails_in_class`), under whatever schedule the files are read.  An element that
ends the program has no error to place, and ends it in loading too
(`Repository.load_aborts_in_class`).
-/
import PartCatalog.Proofs.FilledRepositories
import PartCatalog.Proofs.Schedules

set_option autoImplicit false

namespace PartCatalog

open Outcome

/-! ## One element -/

namespace PartClass

/-- The id of an element, as errors are placed by it. -/
def elementId (entries : List (Node × Node)) : String := Element.text entries "id"

variable {element : Node} {entries : List (Node × Node)} {name : String} {e : LoadError}

theorem ofFieldsWithin_eq_error_iff :
    ofFieldsWithin entries name = .error e ↔
      ∃ inner, ofFields entries "" = .error inner ∧ e = inner.placed .class_ (elementId entries) := by
  simp only [ofFieldsWithin, Load.within_eq_error, elementId]
  rw [ofFields_eq_map]
  simp only [map_eq_error]

/-- An element that is a mapping fails under its first name, and as it would under any other. -/
theorem ofNode_eq_error_iff (isMapping : element.asMapping? = some entries) :
    ofNode element = .error e ↔
      ∃ inner, ofFields entries "" = .error inner ∧ e = inner.placed .class_ (elementId entries) := by
  rw [ofNode_eq_mapM isMapping, mapM_eq_error]
  constructor
  · rintro ⟨name, -, fails⟩
    exact ofFieldsWithin_eq_error_iff.1 fails
  · intro fails
    obtain ⟨name, rest, given⟩ := List.exists_cons_of_ne_nil (givenNames_ne_nil entries)
    have failsUnder : ofFieldsWithin entries name = .error e := ofFieldsWithin_eq_error_iff.2 fails
    exact ⟨name, ⟨[], rest, given, ⟨e, failsUnder⟩, by simp⟩, failsUnder⟩

/-- Its error is what any class of it has, without a place. -/
theorem exists_fault_of_ofFields (fails : ofFields entries "" = .error e) :
    ∃ fault, e = ⟨fault, []⟩ ∧ ∀ name, ofFields entries name = .error ⟨fault, []⟩ := by
  have untraced : e.trace = [] := (failsOnly_ofFields e fails).untraced
  have same : e = ⟨e.fault, []⟩ := by rw [← untraced]
  refine ⟨e.fault, same, fun name => ?_⟩
  rw [ofFields_eq_error_iff, fails, ← same]

end PartClass

/-! ## The elements of a document -/

namespace Collection

variable {document element : Node} {elements : List Node} {e : LoadError}

/-- The first wrong element of a list makes it fail, and is placed by its first name. -/
theorem readClasses_eq_error_iff :
    readClasses elements = .error e ↔
      ∃ element inner, IsFirst (fun element => ∃ e, PartClass.ofNode element = .error e) elements element ∧
        PartClass.ofNode element = .error inner ∧ e = inner.placed .class_ (elementName element) := by
  rw [readClasses, map_eq_error, mapM_eq_error]
  simp only [Load.exists_within_eq_error_iff]
  simp only [Load.within_eq_error, exists_and_left]

/-- Whether a document has a valid header and these class elements, which may be wrong. -/
structure Describes (document : Node) (root header : List (Node × Node)) (elements : List Node) : Prop where
  opens : readHeader document = .ok (root, header)
  hasAuthors : ∃ author authors, Node.field? header "author" = some author ∧ readAuthors author = .ok authors
  hasLicense : ∃ license contact, Node.field? header "license" = some license ∧ readLicense license = .ok contact
  hasElements : ∃ id classes, Node.field? header "id" = some id ∧ Node.field? root "classes" = some classes ∧
    readElements id.text classes = .ok elements

/-- Where the header is valid, only a class element can be wrong. -/
theorem ofNode_eq_error_iff {root header : List (Node × Node)}
    (describes : Describes document root header elements) :
    ofNode document = .error e ↔ readClasses elements = .error e := by
  obtain ⟨author, authors, isAuthor, readAuthors⟩ := describes.hasAuthors
  obtain ⟨license, contact, isLicense, readLicense⟩ := describes.hasLicense
  obtain ⟨id, classes, isId, areClasses, hasElements⟩ := describes.hasElements
  simp only [ofNode, describes.opens, Element.field_eq_ok_iff.2 isId, Element.field_eq_ok_iff.2 isAuthor, readAuthors,
    Element.field_eq_ok_iff.2 isLicense, readLicense, Element.field_eq_ok_iff.2 areClasses, hasElements,
    bind_eq_error, pure_eq, reduceCtorEq, Except.ok.injEq, false_or, and_false, exists_false, or_false,
    exists_eq_left']

end Collection

/-! ## The only file that cannot be read -/

namespace Repository

variable {tree : FileTree} {path filename : String} {options : LoadOptions} {elements : List Node}
  {element : Node} {entries : List (Node × Node)} {e : LoadError}

/-- Whether a repository has a collection file with a valid header and these class elements, and
can read all its other collection files. -/
structure HasFile (tree : FileTree) (path filename : String) (elements : List Node) : Prop where
  isThere : tree.isDirectory path = true
  hasData : tree.isDirectory (FileTree.join path "data") = true
  isFile : ∃ files, collectionFiles tree (FileTree.join path "data") = .ok files ∧ filename ∈ files ∧
    ∀ other ∈ files, other ≠ filename →
      ∃ c, readCollection tree (FileTree.join path "data") other = .ok c
  holds : ∃ text document,
    DocumentFile.read tree (FileTree.join (FileTree.join path "data") filename) = .ok text ∧
      DocumentFile.single text = .ok document ∧
      ∃ root header, Collection.Describes document root header elements

/-- Such a file fails as its class elements do, and the other files do not hide it. -/
theorem readCollections_eq_error_of_hasFile (hasFile : HasFile tree path filename elements)
    (fails : Collection.readClasses elements = .error e) (schedule : Schedule) :
    readCollections schedule options tree (FileTree.join path "data") =
      .error (e.placed .collection filename) := by
  obtain ⟨text, document, isText, isSingle, root, header, describes⟩ := hasFile.holds
  obtain ⟨files, listed, isFile, others⟩ := hasFile.isFile
  have notRead : readCollection tree (FileTree.join path "data") filename =
      .error (e.placed .collection filename) := by
    refine readCollection_eq_error_iff.2 ⟨e, rfl, .inr ⟨text, isText, .inr ⟨document, isSingle, .inl ?_⟩⟩⟩
    exact (Collection.ofNode_eq_error_iff describes).2 fails
  cases outcome : readCollections schedule options tree (FileTree.join path "data") with
  | ok collections =>
      obtain ⟨files', listed', reads⟩ := readCollections_eq_ok_iff.1 outcome
      cases listed.symm.trans listed'
      obtain ⟨c, -, isRead⟩ := exists_left_of_forall₂ (mapM_eq_ok.1 reads).flip filename isFile
      cases notRead.symm.trans isRead
  | error e' =>
      obtain ⟨file, first, failed⟩ := exists_failsFirst listed outcome
      -- The file that fails is the only one that can.
      obtain rfl : file = filename := by
        by_contra isOther
        obtain ⟨c, isRead⟩ := others file first.isFile isOther
        cases isRead.symm.trans failed
      cases failed.symm.trans notRead
      rfl

/-- Loading fails with what is wrong with each class of the first wrong element, and every layer
around it adds its place. -/
theorem exists_fault_of_hasFile (hasFile : HasFile tree path filename elements)
    (first : IsFirst (fun element => ∃ e, PartClass.ofNode element = .error e) elements element)
    (isMapping : element.asMapping? = some entries) :
    ∃ fault, (∀ name, PartClass.ofFields entries name = .error ⟨fault, []⟩) ∧
      ∀ schedule, loadBy schedule tree path options = .error
        (((LoadError.placed ⟨fault, []⟩ .class_ (PartClass.elementId entries)).placed .class_
          (Collection.elementName element)).placed .collection filename |>.placed .repositoryPath path) := by
  obtain ⟨placed, fails⟩ := first.has
  obtain ⟨inner, shared, rfl⟩ := (PartClass.ofNode_eq_error_iff isMapping).1 fails
  obtain ⟨fault, rfl, underAll⟩ := PartClass.exists_fault_of_ofFields shared
  have classesFail := Collection.readClasses_eq_error_iff.2 ⟨element, _, first, fails, rfl⟩
  refine ⟨fault, underAll, fun schedule => ?_⟩
  exact loadBy_eq_error_iff_stages.2 ⟨_, rfl, .inr (.inr ⟨hasFile.isThere, hasFile.hasData,
    .inl (readCollections_eq_error_of_hasFile hasFile classesFail schedule)⟩)⟩

/-- **A wrong class element.**  If one collection file has a valid header and all others can be
read, then the first wrong element of the file, if it is a mapping and its error is reported,
makes loading fail with what is wrong with each of its classes, placed in the class of its id, of
its first name, in the file and in the repository. -/
theorem load_fails_in_class (hasFile : HasFile tree path filename elements)
    (first : IsFirst (fun element => ∃ e, PartClass.ofNode element = .error e) elements element)
    (isMapping : element.asMapping? = some entries)
    (reported : ∀ e, PartClass.ofNode element = .error e → e.fault.aborts = false) :
    ∃ fault, (∀ name, PartClass.ofFields entries name = .error ⟨fault, []⟩) ∧
      (∀ schedule, loadBy schedule tree path options = .error ⟨fault,
        [⟨.class_, PartClass.elementId entries⟩, ⟨.class_, Collection.elementName element⟩,
          ⟨.collection, filename⟩, ⟨.repositoryPath, path⟩]⟩) ∧
      ∀ schedule e, loadBy schedule tree path options = .error e →
        e.place? .class_ = some (PartClass.elementId entries) := by
  obtain ⟨fault, underAll, fails⟩ := exists_fault_of_hasFile hasFile first isMapping
  have isReported : fault.aborts = false := by
    have inElement := (PartClass.ofNode_eq_error_iff isMapping).2 ⟨_, underAll "", rfl⟩
    simpa using reported _ inElement
  simp only [LoadError.placed_of_reported, isReported, List.nil_append,
    List.cons_append] at fails
  refine ⟨fault, underAll, fails, fun schedule e failed => ?_⟩
  cases (fails schedule).symm.trans failed
  rfl

/-- If the element ends the program, so does loading. -/
theorem load_aborts_in_class (hasFile : HasFile tree path filename elements)
    (first : IsFirst (fun element => ∃ e, PartClass.ofNode element = .error e) elements element)
    (isMapping : element.asMapping? = some entries)
    (aborts : ∃ e, PartClass.ofNode element = .error e ∧ e.fault.aborts = true) (schedule : Schedule) :
    ∃ e, loadBy schedule tree path options = .error e ∧ e.fault.aborts = true := by
  obtain ⟨fault, underAll, fails⟩ := exists_fault_of_hasFile hasFile first isMapping
  refine ⟨_, fails schedule, ?_⟩
  obtain ⟨e, failed, isAbort⟩ := aborts
  obtain ⟨inner, isFault, rfl⟩ := (PartClass.ofNode_eq_error_iff isMapping).1 failed
  cases (underAll "").symm.trans isFault
  simpa using isAbort

namespace Example

open ParameterSet.Example (mapping texts)

/-- The entries of a class element that stands for two standards and has a status that there is
not. -/
def goneEntries : List (Node × Node) := [
  (.str "id", .str "gone"), (.str "naming", mapping [("template", .str "Part")]),
  (.str "source", .str "drawing"), (.str "standard", texts ["ISO 1", "ISO 2"]), (.str "status", .str "lost")]

/-- The elements of its collection. -/
def goneElements : List Node := [Example.element "pin" [], .map goneEntries]

/-- A repository of that collection only. -/
def goneFiles : FileTree := FileTree.empty.add "parts/data/pins.blt" (.text
"collection: {id: pins, author: A <a@b>, license: L <l>, blt-version: 0.2}
classes:
- {id: pin, naming: {template: Part}, source: drawing}
- {id: gone, naming: {template: Part}, source: drawing, standard: [ISO 1, ISO 2], status: lost}
")

theorem describes_goneElements :
    ∃ root header, Collection.Describes (document "pins" goneElements) root header goneElements := by
  have isCurrent : Collection.checkVersion (.float Collection.currentVersion) = .ok () := by decide +kernel
  exact ⟨_, _, Collection.readHeader_eq_ok_iff.2 ⟨rfl, rfl, ⟨_, rfl, rfl⟩, rfl, _, rfl, isCurrent⟩,
    ⟨_, _, rfl, rfl⟩, ⟨_, _, rfl, rfl⟩, ⟨_, _, rfl, rfl, rfl⟩⟩

theorem hasFile_gone : HasFile goneFiles "parts" "pins.blt" goneElements where
  isThere := by decide +kernel
  hasData := by decide +kernel
  isFile := by
    have listed : collectionFiles goneFiles (FileTree.join "parts" "data") = .ok ["pins.blt"] := by
      decide +kernel
    refine ⟨["pins.blt"], listed, by simp, fun other member isOther => ?_⟩
    exact absurd (List.mem_singleton.1 member) isOther
  holds := by
    have isSingle : ∃ text, DocumentFile.read goneFiles "parts/data/pins.blt" = .ok text ∧
        DocumentFile.single text = .ok (document "pins" goneElements) := ⟨_, rfl, by decide +kernel⟩
    obtain ⟨text, isText, isSingle⟩ := isSingle
    exact ⟨text, _, isText, isSingle, describes_goneElements⟩

theorem isFirst_gone :
    IsFirst (fun element => ∃ e, PartClass.ofNode element = .error e) goneElements (.map goneEntries) := by
  refine ⟨[Example.element "pin" []], [], rfl, exists_eq_error_of_isOk (by decide), ?_⟩
  intro other member
  rw [List.mem_singleton.1 member, ← exists_eq_ok_iff]
  exact exists_eq_ok_of_isOk (by decide)

theorem reported_gone : ∀ e, PartClass.ofNode (.map goneEntries) = .error e → e.fault.aborts = false := by
  have isFault : PartClass.ofNode (.map goneEntries) = .error ⟨.malformedClass (.unknownStatus "lost"),
      [⟨.class_, "gone"⟩]⟩ := error?_eq_some.1 (by decide +kernel)
  intro e fails
  cases isFault.symm.trans fails
  rfl

end Example

/-- The wrong element is placed by its id and by the first of its standards. -/
theorem load_fails_in_class_gone :
    HasFile Example.goneFiles "parts" "pins.blt" Example.goneElements ∧
      load Example.goneFiles "parts" LoadOptions.defaults = .error ⟨.malformedClass (.unknownStatus "lost"),
        [⟨.class_, "gone"⟩, ⟨.class_, "ISO 1"⟩, ⟨.collection, "pins.blt"⟩, ⟨.repositoryPath, "parts"⟩]⟩ := by
  refine ⟨Example.hasFile_gone, ?_⟩
  obtain ⟨fault, underAll, fails, -⟩ :=
    load_fails_in_class Example.hasFile_gone Example.isFirst_gone rfl Example.reported_gone
  have isFault : PartClass.ofFields Example.goneEntries "ISO 2" =
      .error ⟨.malformedClass (.unknownStatus "lost"), []⟩ := error?_eq_some.1 (by decide +kernel)
  cases isFault.symm.trans (underAll "ISO 2")
  exact fails Schedule.inOrder

end Repository

end PartCatalog
