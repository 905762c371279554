/-
# Contact patterns -- which texts are contacts, and what becomes of the others

A contact is what a search for the pattern `([^<]*)<([^>]*)` finds, its two groups trimmed
(`ofText?_eq_found`).  No start but the first is ever needed: there the first group goes up to the
first `<`, and the second from there to the next `>`, or to the end where there is none
(`search?_of_split`).

The pattern does not ask for the `>`.  So every text with a `<` is a contact, those that never close
the bracket among them, and the form `Name <address>` is enforced only as far as that
(`angled_read_iff`, `angled_read_refuted`).  An author or a licence without a `<` makes its
collection or base malformed (`Refused`).
-/
import PartCatalog.Base
import PartCatalog.Proofs.Patterns
import PartCatalog.Proofs.ReadClasses

set_option autoImplicit false

namespace PartCatalog

open Outcome

namespace Contact

variable {raw : String} {cs name address rest after : List Char} {stop : Char}

/-! ## The pattern -/

/-- What a contact is searched by: a name up to a `<`, and an address up to a `>`. -/
def contactPattern : Pattern :=
  .seq (.group 1 (.many (· ≠ '<')))
    (.seq (.one (· = '<')) (.group 2 (.many (· ≠ '>'))))

open Pattern

/-- The contact with these characters for name and address, blanks around them dropped. -/
def trimmed (name address : List Char) : Contact :=
  ⟨String.ofList (Text.trimChars name), String.ofList (Text.trimChars address)⟩

/-- The contact that the groups of the first match in a text make. -/
def found (raw : String) : Option Contact := do
  let m ← contactPattern.search? raw.toList
  return trimmed (← m.group? 1) (← m.group? 2)

theorem ne_of_not_mem (noStop : stop ∉ name) : ∀ c ∈ name, decide (c ≠ stop) = true :=
  fun _ member => decide_eq_true fun same => noStop (same ▸ member)

theorem takeWhile_of_split (noStop : stop ∉ name) : (name ++ stop :: rest).takeWhile (· ≠ stop) = name := by
  rw [List.takeWhile_append_of_pos (ne_of_not_mem noStop)]
  simp

theorem dropWhile_of_split (noStop : stop ∉ name) :
    (name ++ stop :: rest).dropWhile (· ≠ stop) = stop :: rest := by
  rw [List.dropWhile_append_of_pos (ne_of_not_mem noStop)]
  simp

/-- The pattern takes no text without a `<`. -/
theorem mem_of_takes {g : Groups} (takes : contactPattern.Takes cs g) : '<' ∈ cs := by
  obtain ⟨name, angled, _, _, -, takesAngled, rfl, -⟩ := takes_seq_iff.1 takes
  obtain ⟨bracket, address, _, _, takesBracket, -, rfl, -⟩ := takes_seq_iff.1 takesAngled
  obtain ⟨c, isBracket, rfl, -⟩ := takes_one_iff.1 takesBracket
  obtain rfl : c = '<' := of_decide_eq_true isBracket
  simp

theorem search?_of_not_mem (noBracket : '<' ∉ cs) : contactPattern.search? cs = none :=
  search?_eq_none fun _ _ isPart takes => noBracket (isPart.subset (mem_of_takes takes))

/-- The first start has a match in a text with a `<`, and its first match goes up to the first `<`
and on to the next `>`. -/
theorem search?_of_split (split : cs = name ++ '<' :: rest) (first : '<' ∉ name) :
    ∃ m, contactPattern.search? cs = some m ∧ m.group? 1 = some name ∧
      m.group? 2 = some (rest.takeWhile (· ≠ '>')) := by
  obtain ⟨shorter, longest⟩ := exists_ways_many (· ≠ '<') cs
  rw [split, takeWhile_of_split first, dropWhile_of_split first, ← split] at longest
  obtain ⟨shorter', longest'⟩ := exists_ways_many (· ≠ '>') rest
  obtain ⟨names, takesName⟩ := ways_group longest 1
  obtain ⟨addresses, takesAddress⟩ := ways_group longest' 2
  have takesBracket : (one (· = '<')).ways ('<' :: rest) = [⟨['<'], [], rest⟩] := rfl
  obtain ⟨more, takesAngled⟩ := ways_seq takesBracket takesAddress
  obtain ⟨others, takesAll⟩ := ways_seq takesName takesAngled
  exact ⟨_, search?_of_ways takesAll, rfl, rfl⟩

/-! ## Reading -/

theorem ofText?_of_not_mem (noBracket : '<' ∉ raw.toList) : ofText? raw = none := by
  have dropped : raw.toList.dropWhile (· ≠ '<') = [] :=
    List.dropWhile_eq_nil_iff.2 (ne_of_not_mem noBracket)
  rw [ofText?, dropped]

theorem ofText?_of_split (split : raw.toList = name ++ '<' :: rest) (first : '<' ∉ name) :
    ofText? raw = some (trimmed name (rest.takeWhile (· ≠ '>'))) := by
  rw [ofText?, split, takeWhile_of_split first, dropWhile_of_split first]
  rfl

/-- **A contact is what the search finds**, its groups trimmed. -/
theorem ofText?_eq_found (raw : String) : ofText? raw = found raw := by
  by_cases bracket : '<' ∈ raw.toList
  · obtain ⟨name, rest, split, first⟩ := List.eq_append_cons_of_mem bracket
    obtain ⟨m, isMatch, isName, isAddress⟩ := search?_of_split split first
    rw [ofText?_of_split split first, found, isMatch]
    simp only [Option.bind_eq_bind, Option.bind_some, isName, isAddress]
    rfl
  · rw [ofText?_of_not_mem bracket, found, search?_of_not_mem bracket]
    rfl

theorem ofText?_eq_none_iff : ofText? raw = none ↔ '<' ∉ raw.toList := by
  refine ⟨fun isNone bracket => ?_, ofText?_of_not_mem⟩
  obtain ⟨name, rest, split, first⟩ := List.eq_append_cons_of_mem bracket
  rw [ofText?_of_split split first] at isNone
  cases isNone

/-- An address goes up to the next `>`, or to the end. -/
theorem ofText?_of_address (split : raw.toList = name ++ '<' :: (address ++ after)) (first : '<' ∉ name)
    (inside : '>' ∉ address) (ends : ∀ c ∈ after.head?, c = '>') :
    ofText? raw = some (trimmed name address) := by
  rw [ofText?_of_split split first]
  cases after with
  | nil =>
      have whole : address.takeWhile (· ≠ '>') = address :=
        List.takeWhile_eq_self_iff.2 (ne_of_not_mem inside)
      rw [List.append_nil, whole]
  | cons c after =>
      obtain rfl : c = '>' := ends c rfl
      rw [takeWhile_of_split inside]

/-! ## Refusing -/

end Contact

namespace Element

variable {fault : String → LoadFault} {raw : String} {raws : List String} {e : LoadError}

theorem contact_eq_error :
    contact fault raw = .error e ↔ Contact.ofText? raw = none ∧ e = ⟨fault raw, []⟩ := by
  unfold contact Load.fail
  cases Contact.ofText? raw <;> simp [eq_comm]

/-- Of several texts, the first that is no contact is named. -/
theorem mapM_contact_eq_error :
    raws.mapM (contact fault) = .error e ↔
      ∃ raw, IsFirst (Contact.ofText? · = none) raws raw ∧ e = ⟨fault raw, []⟩ := by
  have fails : (fun raw => ∃ e, contact fault raw = .error e) = (Contact.ofText? · = none) :=
    funext fun raw => propext (by simp [contact_eq_error])
  rw [mapM_eq_error, fails]
  refine exists_congr fun raw => and_congr_right fun first => ?_
  rw [contact_eq_error, and_iff_right first.has]

theorem exists_mapM_contact (areContacts : ∀ raw ∈ raws, Contact.ofText? raw ≠ none) :
    ∃ contacts, raws.mapM (contact fault) = .ok contacts := by
  rw [exists_eq_ok_iff]
  rintro ⟨e, fails⟩
  obtain ⟨raw, first, -⟩ := mapM_contact_eq_error.1 fails
  exact areContacts raw first.mem first.has

end Element

namespace Collection

variable {document author license id : Node} {root header : List (Node × Node)} {e : LoadError}

/-- A document with a header fails for its authors, and after them for its licence. -/
theorem ofNode_of_readHeader (opens : readHeader document = .ok (root, header))
    (isId : Node.field? header "id" = some id) (isAuthor : Node.field? header "author" = some author)
    (fails : readAuthors author = .error e ∨ ∃ authors license, readAuthors author = .ok authors ∧
      Node.field? header "license" = some license ∧ readLicense license = .error e) :
    ofNode document = .error e := by
  simp only [ofNode, opens, Element.field_eq_ok_iff.2 isId, Element.field_eq_ok_iff.2 isAuthor, bind_eq_error,
    reduceCtorEq, Except.ok.injEq, false_or, exists_eq_left']
  rcases fails with noAuthors | ⟨authors, license, hasAuthors, isLicense, noLicense⟩
  · exact .inl noAuthors
  · exact .inr ⟨authors, hasAuthors, .inr ⟨license, Element.field_eq_ok_iff.2 isLicense, .inl noLicense⟩⟩

end Collection

/-- A base fails for its authors, and after them for its licence. -/
theorem Base.ofHeader_of_author {collection : String} {entries : List (Node × Node)} {kind : BaseKind}
    {classIds : List String} {parameters : Option Node} {author : Node} {e : LoadError}
    (isAuthor : Node.field? entries "author" = some author)
    (fails : author.texts.mapM (contact "author") = .error e ∨
      ∃ authors license, author.texts.mapM (contact "author") = .ok authors ∧
        Node.field? entries "license" = some license ∧ contact "license" license.text = .error e) :
    ofHeader collection entries kind classIds parameters = .error e := by
  simp only [ofHeader, Element.field_eq_ok_iff.2 isAuthor, bind_eq_error, reduceCtorEq, Except.ok.injEq, false_or,
    exists_eq_left']
  rcases fails with noAuthors | ⟨authors, license, hasAuthors, isLicense, noLicense⟩
  · exact .inl noAuthors
  · exact .inr ⟨authors, hasAuthors, .inr ⟨license, Element.field_eq_ok_iff.2 isLicense, .inl noLicense⟩⟩

namespace Contact

variable {raw : String}

/-- Whether a text is refused wherever a contact is asked for. -/
structure Refused (raw : String) : Prop where
  author : ∀ document root header id author, Collection.readHeader document = .ok (root, header) →
    Node.field? header "id" = some id → Node.field? header "author" = some author →
    IsFirst (ofText? · = none) author.texts raw →
    Collection.ofNode document = .error ⟨.malformedCollection (.badAuthor raw), []⟩
  license : ∀ document root header id author license, Collection.readHeader document = .ok (root, header) →
    Node.field? header "id" = some id → Node.field? header "author" = some author →
    (∀ text ∈ author.texts, ofText? text ≠ none) →
    Node.field? header "license" = some license → license.text = raw →
    Collection.ofNode document = .error ⟨.malformedCollection (.badLicense raw), []⟩
  baseAuthor : ∀ collection entries kind classIds parameters author,
    Node.field? entries "author" = some author → IsFirst (ofText? · = none) author.texts raw →
    Base.ofHeader collection entries kind classIds parameters =
      .error ⟨.malformedBase (.badContact "author" raw), []⟩
  baseLicense : ∀ collection entries kind classIds parameters author license,
    Node.field? entries "author" = some author → (∀ text ∈ author.texts, ofText? text ≠ none) →
    Node.field? entries "license" = some license → license.text = raw →
    Base.ofHeader collection entries kind classIds parameters =
      .error ⟨.malformedBase (.badContact "license" raw), []⟩

/-- Texts without a `<` are refused. -/
theorem refused_of_not_mem (noBracket : '<' ∉ raw.toList) : Refused raw := by
  have isNone : ofText? raw = none := ofText?_of_not_mem noBracket
  constructor
  case author =>
    intro document root header id author opens isId isAuthor first
    exact Collection.ofNode_of_readHeader opens isId isAuthor
      (.inl (Element.mapM_contact_eq_error.2 ⟨raw, first, rfl⟩))
  case license =>
    intro document root header id author license opens isId isAuthor areContacts isLicense isRaw
    obtain ⟨authors, hasAuthors⟩ := Element.exists_mapM_contact areContacts
    have noLicense : Collection.readLicense license = .error ⟨.malformedCollection (.badLicense raw), []⟩ :=
      isRaw ▸ Element.contact_eq_error.2 ⟨isRaw ▸ isNone, rfl⟩
    exact Collection.ofNode_of_readHeader opens isId isAuthor
      (.inr ⟨authors, license, hasAuthors, isLicense, noLicense⟩)
  case baseAuthor =>
    intro collection entries kind classIds parameters author isAuthor first
    exact Base.ofHeader_of_author isAuthor (.inl (Element.mapM_contact_eq_error.2 ⟨raw, first, rfl⟩))
  case baseLicense =>
    intro collection entries kind classIds parameters author license isAuthor areContacts isLicense isRaw
    obtain ⟨authors, hasAuthors⟩ := Element.exists_mapM_contact areContacts
    have noLicense : Base.contact "license" license.text =
        .error ⟨.malformedBase (.badContact "license" raw), []⟩ :=
      isRaw ▸ Element.contact_eq_error.2 ⟨isRaw ▸ isNone, rfl⟩
    exact Base.ofHeader_of_author isAuthor (.inr ⟨authors, license, hasAuthors, isLicense, noLicense⟩)

/-! ## The form -/

/-- Whether a text has the form `Name <address>`, a `<` and somewhere after it a `>`. -/
def Angled (raw : String) : Prop :=
  ∃ before between after, raw.toList = before ++ '<' :: (between ++ '>' :: after)

/-- Whether a text is read by its form: as a contact only if it has the form, and then with the
text before the first `<` for a name and the text from there to the next `>` for an address. -/
structure ReadByForm (raw : String) : Prop where
  accepted : (∃ contact, ofText? raw = some contact) ↔ Angled raw
  parts : ∀ name address after, raw.toList = name ++ '<' :: (address ++ '>' :: after) →
    '<' ∉ name → '>' ∉ address → ofText? raw = some (trimmed name address)

theorem Angled.mem (angled : Angled raw) : '<' ∈ raw.toList := by
  obtain ⟨before, between, after, written⟩ := angled
  rw [written]
  exact List.mem_append_right _ List.mem_cons_self

theorem exists_ofText?_iff : (∃ contact, ofText? raw = some contact) ↔ '<' ∈ raw.toList := by
  rw [← Option.isSome_iff_exists, Option.isSome_iff_ne_none, Ne, ofText?_eq_none_iff, not_not]

/-- **Which texts are contacts.**  A contact is what the search for the pattern finds: of a text with
a `<`, the trimmed text before the first one, and the trimmed text after it up to the next `>` or to
the end.  A text without a `<` is refused as an author and as a licence.  So a text is read by its
form exactly if a `<` in it is ever followed by a `>`. -/
theorem angled_read_iff (raw : String) :
    ofText? raw = found raw ∧
      (∀ name address after, raw.toList = name ++ '<' :: (address ++ after) → '<' ∉ name →
        '>' ∉ address → (∀ c ∈ after.head?, c = '>') → ofText? raw = some (trimmed name address)) ∧
      ('<' ∉ raw.toList → ofText? raw = none ∧ Refused raw) ∧
      (ReadByForm raw ↔ ('<' ∈ raw.toList → Angled raw)) := by
  refine ⟨ofText?_eq_found raw, ?_, ?_, ?_, ?_⟩
  · intro name address after split first inside ends
    exact ofText?_of_address split first inside ends
  · intro noBracket
    exact ⟨ofText?_of_not_mem noBracket, refused_of_not_mem noBracket⟩
  · intro byForm bracket
    exact byForm.accepted.1 (exists_ofText?_iff.2 bracket)
  · intro closes
    constructor
    case accepted =>
      rw [exists_ofText?_iff]
      exact ⟨closes, Angled.mem⟩
    case parts =>
      intro name address after split first inside
      refine ofText?_of_address split first inside ?_
      rintro c ⟨⟩
      rfl

namespace Example

/-- The header of a collection by one author. -/
def header (author : String) : List (Node × Node) := [
  (.str "id", .str "hex"), (.str "author", .str author), (.str "license", .str "MIT <x>"),
  (.str "blt-version", .float Collection.currentVersion)]

def document (author : String) : Node :=
  .map [(.str "collection", .map (header author)), (.str "classes", .seq [])]

theorem readHeader_document (author : String) :
    Collection.readHeader (document author) =
      .ok ([(.str "collection", .map (header author)), (.str "classes", .seq [])], header author) := by
  have isCurrent : Collection.checkVersion (.float Collection.currentVersion) = .ok () := by decide +kernel
  exact Collection.readHeader_eq_ok_iff.2 ⟨rfl, rfl, ⟨_, rfl, rfl⟩, rfl, _, rfl, isCurrent⟩

end Example

/-- An author with a mail address is read by its form, and one without makes a collection
malformed. -/
theorem angled_read_author :
    ReadByForm "A B  < a@b > <c>" ∧ ofText? "A B  < a@b > <c>" = some ⟨"A B", "a@b"⟩ ∧
      Collection.ofNode (Example.document "nobody") = .error ⟨.malformedCollection (.badAuthor "nobody"), []⟩ := by
  obtain ⟨-, reads, -, byForm⟩ := angled_read_iff "A B  < a@b > <c>"
  obtain ⟨-, -, refuses, -⟩ := angled_read_iff "nobody"
  have angled : Angled "A B  < a@b > <c>" := ⟨"A B  ".toList, " a@b ".toList, " <c>".toList, by decide⟩
  refine ⟨byForm.2 fun _ => angled, ?_, ?_⟩
  · exact reads "A B  ".toList " a@b ".toList "> <c>".toList (by decide) (by decide) (by decide) (by simp)
  · obtain ⟨isNone, refused⟩ := refuses (by decide)
    exact refused.author _ _ _ _ _ (Example.readHeader_document "nobody") rfl rfl ⟨[], [], rfl, isNone, by simp⟩

/-- A bracket that is never closed makes a contact all the same, and an author. -/
theorem angled_read_refuted :
    ¬ ReadByForm "A <b" ∧ ¬ Angled "A <b" ∧ ofText? "A <b" = some ⟨"A", "b"⟩ ∧
      Collection.readAuthors (.str "A <b") = .ok [⟨"A", "b"⟩] := by
  have isContact : ofText? "A <b" = some ⟨"A", "b"⟩ := by decide
  have notAngled : ¬ Angled "A <b" := by
    rintro ⟨before, between, after, written⟩
    have noClose : '>' ∉ "A <b".toList := by decide
    rw [written] at noClose
    simp at noClose
  exact ⟨fun byForm => notAngled (byForm.accepted.1 ⟨_, isContact⟩), notAngled, isContact, rfl⟩

end Contact

end PartCatalog
