/-
# Collections -- the classes of one file, with authors and a licence

A collection document has a header and a list of class elements. The header names
the version of the format, and only the current one is read. Errors in an element
are placed in the class of its first name, outside the place of its id.
-/
import PartCatalog.Contact
import PartCatalog.PartClass
import PartCatalog.Binary64.Reader

set_option autoImplicit false

namespace PartCatalog

/-- The classes that one file describes. -/
structure Collection where
  id : String
  name : String
  description : String
  authors : List Contact
  license : Contact
  classes : List PartClass

namespace Collection

def headerMandatory : List String := ["id", "author", "license", "blt-version"]
def headerOptional : List String := ["name", "description"]

/-- The version of the format that is read: the number 0.2. -/
def currentVersion : Binary64 := Binary64.ofDecimal false 2 (-1)

/-- Refuse a document of another version. -/
def checkVersion (version : Node) : Load.Result Unit :=
  match version.asNumber? with
  | some x =>
    if x.numEq currentVersion then .ok () else Load.fail (.version version.text)
  | none => Load.fail (.version version.text)

/-- The authors of a header. -/
def readAuthors (author : Node) : Load.Result (List Contact) :=
  author.texts.mapM (Element.contact fun raw => .malformedCollection (.badAuthor raw))

/-- The licence of a header. -/
def readLicense (license : Node) : Load.Result Contact :=
  Element.contact (fun raw => .malformedCollection (.badLicense raw)) license.text

/-- The first name of a class element, by which its errors are placed. -/
def elementName (element : Node) : String :=
  match element.asMapping? with
  | none => ""
  | some entries => (PartClass.elementNames entries).headD ""

/-- The class elements of a collection, an untagged list and not empty. -/
def readElements (id : String) (classes : Node) : Load.Result (List Node) :=
  match classes with
  | .seq (element :: elements) => .ok (element :: elements)
  | _ => Load.fail (.malformedCollection (.noClass id))

/-- The classes of the elements, in order. -/
def readClasses (elements : List Node) : Load.Result (List PartClass) :=
  (elements.mapM fun element =>
    Load.within .class_ (elementName element) (PartClass.ofNode element)).map List.flatten

/-- The entries of a document and those of its header, which must be of the current
version. -/
def readHeader (document : Node) : Load.Result (List (Node × Node) × List (Node × Node)) := do
  let root ← match document.asMapping? with
    | some entries => .ok entries
    | none => Load.fail (.malformedCollection .notMapping)
  Element.check "collection file" ["collection", "classes"] [] root
  let header ← match (← Element.field "collection file" root "collection").asMapping? with
    | some entries => .ok entries
    | none => Load.fail (.malformedCollection .headerNotMapping)
  Element.check "collection" headerMandatory headerOptional header
  checkVersion (← Element.field "collection" header "blt-version")
  return (root, header)

/-- The collection of a `{collection, classes}` document. -/
def ofNode (document : Node) : Load.Result Collection := do
  let (root, header) ← readHeader document
  let id := (← Element.field "collection" header "id").text
  let authors ← readAuthors (← Element.field "collection" header "author")
  let license ← readLicense (← Element.field "collection" header "license")
  let elements ← readElements id (← Element.field "collection file" root "classes")
  let classes ← readClasses elements
  return {
    id
    name := Element.text header "name"
    description := Element.text header "description"
    authors, license, classes }

def toJson (c : Collection) : Json := .object [
  ("id", .string c.id),
  ("name", .string c.name),
  ("description", .string c.description),
  ("authors", .array (c.authors.map Contact.toJson)),
  ("license", c.license.toJson),
  ("classes", .array (c.classes.map PartClass.toJson))]

end Collection

end PartCatalog
