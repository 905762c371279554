/-
# Succession -- which class replaces which

A class may name the standard it replaces. That standard is looked for among the
classes of the body that its name belongs to, and the first of them with the name
learns its successor; of several successors the last stays. All replaced classes
are found before any of them changes.
-/
import PartCatalog.Repository.Basic

set_option autoImplicit false

namespace PartCatalog

namespace Succession

/-- The position of the class that a replaced name refers to. -/
def target? (collections : List Collection) (index : ClassIndex) (replaced : String) :
    Option ClassPosition :=
  (StandardBody.ofName? replaced).bind fun body =>
    (index.ofBody body).find? fun position =>
      (Collection.classAt? collections position).any (·.name = replaced)

/-- The replaced classes, each with the name of its successor, in the order of the
successors. -/
def successors (collections : List Collection) (index : ClassIndex) :
    List PartClass → Load.Result (List (ClassPosition × String))
  | [] => .ok []
  | c :: rest =>
    match c.replaces with
    | none => successors collections index rest
    | some replaced =>
      match target? collections index replaced with
      | none => Load.fail (.unknownReplacedClass c.name replaced)
      | some position => (successors collections index rest).map ((position, c.name) :: ·)

/-- Tell a class its successor. -/
def record (collections : List Collection) (entry : ClassPosition × String) : List Collection :=
  Collection.modifyAt collections entry.1 fun c => { c with replacedBy := some entry.2 }

/-- The collections with every replaced class knowing its successor. -/
def fill (collections : List Collection) (index : ClassIndex) : Load.Result (List Collection) :=
  (successors collections index (Collection.allClasses collections)).map
    (List.foldl record collections)

end Succession

/-- The repository with every replaced class knowing its successor. -/
def Repository.filled (repo : Repository) : Load.Result Repository :=
  (Succession.fill repo.collections repo.index).map fun collections => { repo with collections }

end PartCatalog
