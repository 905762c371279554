/-
# Repositories -- collections, what is found in them by name, and bases

The classes of a repository stand in the order of its collections. A `ClassIndex`
leads from a name to the first class of that name and from a standard body to all
its classes; it holds positions, so it stays right when a class changes and keeps
its name.
-/
import PartCatalog.BaseCatalog
import PartCatalog.Collection
import PartCatalog.ParameterSet.Union

set_option autoImplicit false

namespace PartCatalog

/-- Where a class stands: the position of its collection, and its position there. -/
structure ClassPosition where
  collection : Nat
  index : Nat
deriving DecidableEq, Repr

/-- The positions of the classes by name and by the label of their body. -/
structure ClassIndex where
  byName : NameMap ClassPosition
  byBody : NameMap (List ClassPosition)

namespace Collection

/-- Change every class. -/
def mapClasses (f : PartClass → PartClass) (c : Collection) : Collection :=
  { c with classes := c.classes.map f }

/-- Every class of some collections, in order. -/
def allClasses (collections : List Collection) : List PartClass :=
  collections.flatMap (·.classes)

/-- The class at a position. -/
def classAt? (collections : List Collection) (position : ClassPosition) : Option PartClass :=
  (collections[position.collection]?).bind (·.classes[position.index]?)

/-- Change the class at a position. -/
def modifyAt (collections : List Collection) (position : ClassPosition)
    (f : PartClass → PartClass) : List Collection :=
  collections.modify position.collection fun c =>
    { c with classes := c.classes.modify position.index f }

/-- Every class with its position, in order. -/
def positioned (collections : List Collection) : List (ClassPosition × PartClass) :=
  collections.zipIdx.flatMap fun (c, i) => c.classes.zipIdx.map fun (k, j) => (⟨i, j⟩, k)

end Collection

namespace PartClass

/-- The class with the body that its name belongs to. It is read without one. -/
def withBody (c : PartClass) : PartClass :=
  { c with standardBody := StandardBody.ofName? c.name }

end PartClass

/-! ## The index -/

namespace ClassIndex

def empty : ClassIndex := ⟨NameMap.empty, NameMap.empty⟩

/-- The positions under a label, none if it is the label of no body. -/
def under (index : ClassIndex) (label : String) : List ClassPosition :=
  (index.byBody.get? label).getD []

/-- The positions of a body's classes. -/
def ofBody (index : ClassIndex) (body : StandardBody) : List ClassPosition :=
  index.under body.label

/-- Enter a position under a body. -/
def enterBody (index : ClassIndex) (position : ClassPosition) (body : StandardBody) :
    ClassIndex :=
  { index with byBody := index.byBody.insert body.label (index.ofBody body ++ [position]) }

/-- Enter a class. An earlier class of its name keeps the name. -/
def enter (index : ClassIndex) (entry : ClassPosition × PartClass) : ClassIndex :=
  let (position, c) := entry
  let named := { index with byName := index.byName.insertNew c.name position }
  match c.standardBody with
  | some body => named.enterBody position body
  | none => named

/-- The index of collections whose classes have their bodies. -/
def ofCollections (collections : List Collection) : ClassIndex :=
  (Collection.positioned collections).foldl enter empty

end ClassIndex

/-! ## Queries -/

/-- A repository: the path it was read from, its collections in ascending order of
their ids, the index of their classes, and the bases if they were read. -/
structure Repository where
  path : String
  collections : List Collection
  index : ClassIndex
  bases : Option BaseCatalog

namespace Repository

/-- The repository of some collections without bases: its classes have their bodies and
stand in the index. -/
def indexed (path : String) (collections : List Collection) : Repository :=
  let embodied := collections.map (Collection.mapClasses PartClass.withBody)
  { path, collections := embodied, index := ClassIndex.ofCollections embodied, bases := none }

/-- Every class, in the order of the collections. -/
def classes (repo : Repository) : List PartClass := Collection.allClasses repo.collections

/-- The first class of a name. -/
def class? (repo : Repository) (name : String) : Option PartClass :=
  (repo.index.byName.get? name).bind (Collection.classAt? repo.collections)

/-- The collection of the first class of a name. -/
def collectionOf? (repo : Repository) (name : String) : Option Collection :=
  (repo.index.byName.get? name).bind fun position => repo.collections[position.collection]?

/-- The classes under a label, none if it is the label of no body. -/
def classesUnder (repo : Repository) (label : String) : List PartClass :=
  (repo.index.under label).filterMap (Collection.classAt? repo.collections)

/-- The classes of a standard body. -/
def standardized (repo : Repository) (body : StandardBody) : List PartClass :=
  repo.classesUnder body.label

/-- The base that draws a class. -/
def baseFor? (repo : Repository) (c : PartClass) : Option Base :=
  repo.bases.bind (·.baseFor? c.id)

/-- The parameters of a class together with those of its base. -/
def fullParameters (repo : Repository) (c : PartClass) : Load.Result ParameterSet :=
  match repo.baseFor? c with
  | some base =>
    Load.within .class_ c.name <| Load.within .base base.filename <|
      Load.ofDeclaration (c.parameters.union base.parameters)
  | none => .ok c.parameters

end Repository

end PartCatalog
