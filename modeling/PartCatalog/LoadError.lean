/-
# Load errors -- what is wrong with a repository, and where

A `LoadFault` is a cause; a `LoadError` carries in addition the places it was met
in, innermost first. Going outwards, each layer that reads a part of a repository
adds its place with `within`. A fault that `aborts` leaves all layers at once, and
gets no place.
-/
import PartCatalog.Declaration

set_option autoImplicit false

namespace PartCatalog

/-- What a place in a repository refers to. -/
inductive PlaceKind where
  | repositoryPath
  | collection
  | class_
  | base
deriving DecidableEq, Repr

/-- A place in a repository. -/
structure Place where
  kind : PlaceKind
  name : String
deriving DecidableEq, Repr

/-- Why a file or directory cannot be read. -/
inductive FileFault where
  | missing
  | notDirectory
  | isDirectory
  | notText
deriving DecidableEq, Repr

/-- What is wrong with a repository directory. -/
inductive RepositoryFault where
  | noDirectory
  | noDataDirectory
deriving DecidableEq, Repr

/-- What is wrong with a collection file. -/
inductive CollectionFault where
  | notMapping
  | headerNotMapping
  | badLicense (raw : String)
  | badAuthor (raw : String)
  | noClass (id : String)
  | otherName (id : String)
  | forbiddenId (id : String)
  | noDocument
  | manyDocuments (count : Nat)
deriving DecidableEq, Repr

/-- What is wrong with a class element. -/
inductive ClassFault where
  | notMapping
  | unknownStatus (raw : String)
deriving DecidableEq, Repr

/-- What is wrong with a base file. -/
inductive BaseFault where
  | notList
  | entryNotMapping
  | modulesNotList
  | moduleNotMapping
  | unknownType (type : String)
  | badContact (field raw : String)
  | fieldNotList (field : String)
deriving DecidableEq, Repr

/-- What makes loading fail. -/
inductive LoadFault where
  | file (fault : FileFault)
  | yaml
  | declaration (error : DeclarationError)
  | version (found : String)
  | malformedRepository (fault : RepositoryFault)
  | malformedCollection (fault : CollectionFault)
  | malformedClass (fault : ClassFault)
  | malformedBase (fault : BaseFault)
  | nonUniqueBase (id : String)
  | unknownReplacedClass (class_ replaced : String)
deriving DecidableEq

/-- Whether the program is aborted, and no error is reported. -/
def LoadFault.aborts : LoadFault → Bool
  | .declaration error => error.aborts
  | _ => false

/-- A fault with the places it was met in, innermost first. -/
structure LoadError where
  fault : LoadFault
  trace : List Place
deriving DecidableEq

/-! ## Messages -/

def PlaceKind.label : PlaceKind → String
  | .repositoryPath => "Repository path"
  | .collection => "Collection"
  | .class_ => "Class"
  | .base => "Base"

def FileFault.message : FileFault → String
  | .missing => "No such file or directory (os error 2)"
  | .notDirectory => "Not a directory (os error 20)"
  | .isDirectory => "Is a directory (os error 21)"
  | .notText => "stream did not contain valid UTF-8"

def RepositoryFault.message : RepositoryFault → String
  | .noDirectory => "repository directory does not exist"
  | .noDataDirectory => "no data directory found"

def CollectionFault.message : CollectionFault → String
  | .notMapping => "expected a mapping"
  | .headerNotMapping => "collection header must be a mapping"
  | .badLicense raw => s!"license not of the form 'Name <url>': {raw}"
  | .badAuthor raw => s!"author not of the form 'Name <mail>': {raw}"
  | .noClass id => s!"no class in collection {id}"
  | .otherName id => s!"collection id {id} is not identical with file name"
  | .forbiddenId id => s!"forbidden collection id: {id}"
  | .noDocument => "no YAML document found"
  | .manyDocuments count => s!"more than one YAML document found ({count})"

def ClassFault.message : ClassFault → String
  | .notMapping => "expected a mapping"
  | .unknownStatus raw => s!"unknown status {raw}"

def BaseFault.message : BaseFault → String
  | .notList => "base file must be a list"
  | .entryNotMapping => "base entry must be a mapping"
  | .modulesNotList => "modules must be a list"
  | .moduleNotMapping => "module must be a mapping"
  | .unknownType type => s!"unknown base type '{type}'"
  | .badContact field raw => s!"{field} not of the form 'Name <address>': {raw}"
  | .fieldNotList field => s!"{field} must be a list"

def LoadFault.message : LoadFault → String
  | .file fault => "I/O error: " ++ fault.message
  | .yaml => "YAML error: invalid document"
  | .declaration error => error.message
  | .version found => s!"old or unknown blt version: {found}"
  | .malformedRepository fault => "malformed repository: " ++ fault.message
  | .malformedCollection fault => "malformed collection: " ++ fault.message
  | .malformedClass fault => "malformed class: " ++ fault.message
  | .malformedBase fault => "malformed base: " ++ fault.message
  | .nonUniqueBase id => s!"non-unique base for class id: {id}"
  | .unknownReplacedClass name replaced => s!"class {name} replaces unknown class {replaced}"

def Place.text (place : Place) : String := place.kind.label ++ ": " ++ place.name

namespace LoadError

/-- The error with one more place around it. An abort is not placed. -/
def placed (error : LoadError) (kind : PlaceKind) (name : String) : LoadError :=
  match error.fault.aborts with
  | true => error
  | false => { error with trace := error.trace ++ [⟨kind, name⟩] }

/-- The places as one text, innermost first. -/
def traceText (error : LoadError) : String :=
  String.intercalate ", " (error.trace.map Place.text)

/-- The text shown for the error. -/
def message (error : LoadError) : String :=
  if error.trace.isEmpty then error.fault.message
  else error.fault.message ++ ". " ++ error.traceText

/-- The innermost place of a kind. -/
def place? (error : LoadError) (kind : PlaceKind) : Option String :=
  (error.trace.find? (·.kind = kind)).map (·.name)

end LoadError

/-! ## Outcomes of loading -/

namespace Load

/-- The outcome of reading a part of a repository. -/
abbrev Result (α : Type) : Type := Except LoadError α

/-- A fault not yet located. -/
def fail {α : Type} (fault : LoadFault) : Result α := .error ⟨fault, []⟩

/-- The outcome of a declaration as one of loading. -/
def ofDeclaration {α : Type} (result : Declaration.Result α) : Result α :=
  result.mapError fun e => ⟨.declaration e, []⟩

/-- Add a place around what was read. -/
def within {α : Type} (kind : PlaceKind) (name : String) (result : Result α) : Result α :=
  result.mapError (·.placed kind name)

end Load

end PartCatalog
