/-
# File trees -- the directories and files that a repository is read from

A place is a path without needless steps: `a/b` lies below the directory that the
tree is seen from, `../a` above it and `/a` below the root of everything. A tree
holds its entries under their places, and every directory on the way to an entry is
an entry too. A path is followed step by step, so a step upwards needs the directory
it leaves. Where places start, there is always a directory.
-/
import PartCatalog.LoadError
import PartCatalog.NameMap

set_option autoImplicit false

namespace PartCatalog

/-- An entry of a tree: a directory, or a file with its text. A file may hold bytes
that are no text. -/
inductive FileEntry where
  | directory
  | text (content : String)
  | bytes
deriving DecidableEq, Repr

/-- The entries of a tree, each under its path from the root. -/
structure FileTree where
  entries : NameMap FileEntry

namespace FileTree

def empty : FileTree := ⟨NameMap.empty⟩

/-! ## Paths -/

/-- The steps of a path as they are written. -/
def steps (path : String) : List String := (path.toList.splitOn '/').map String.ofList

/-- Steps as a path. -/
def ofSteps (steps : List String) : String := String.intercalate "/" steps

/-- Where a path starts, as the steps of a place in reverse. -/
def start (path : String) : List String := if path.toList.head? = some '/' then [""] else []

/-- Whether places start here: every step leads upwards, or there is only the root. -/
def isStart (place : List String) : Bool := place = [""] || place.all (· = "..")

/-- One level up. Nothing is above the root. -/
def up (place : List String) : List String :=
  match place with
  | [""] => [""]
  | name :: outer => if name = ".." then ".." :: place else outer
  | [] => [".."]

/-- One step further from a place in reverse. -/
def go (place : List String) (step : String) : List String :=
  if step = "" ∨ step = "." then place
  else if step = ".." then up place
  else step :: place

/-- The place that a path names if all its steps can be taken. -/
def place (path : String) : List String := ((steps path).foldl go (start path)).reverse

/-- A name below a path. -/
def join (path name : String) : String :=
  if path.isEmpty || path.toList.getLast? = some '/' then path ++ name else path ++ "/" ++ name

/-- A file name as what precedes its last point and what follows it. A point at the
start of a name does not count. -/
def splitExtension (name : String) : String × Option String :=
  let cs := name.toList.reverse
  let extension := (cs.takeWhile (· ≠ '.')).reverse
  match cs.dropWhile (· ≠ '.') with
  | '.' :: c :: stem => (String.ofList (c :: stem).reverse, some (String.ofList extension))
  | _ => (name, none)

/-! ## Building -/

/-- The beginnings of a place that are directories if the place is an entry. -/
def parents : List String → List (List String)
  | [] => []
  | [_] => []
  | s :: rest => [s] :: (parents rest).map (s :: ·)

/-- Add the directories on the way to a place. -/
def addParents (tree : FileTree) (place : List String) : FileTree :=
  let directories := (parents place).filter fun p => !isStart p
  ⟨directories.foldl (fun es p => es.insertNew (ofSteps p) .directory) tree.entries⟩

/-- Add an entry and the directories on the way to it. -/
def add (tree : FileTree) (path : String) (entry : FileEntry) : FileTree :=
  let place := place path
  if isStart place then tree
  else ⟨(tree.addParents place).entries.insert (ofSteps place) entry⟩

/-! ## Looking up -/

/-- The entry at a place. -/
def entryAt? (tree : FileTree) (place : List String) : Option FileEntry :=
  if isStart place then some .directory else tree.entries.get? (ofSteps place)

/-- Go on from a place in reverse by steps as they are written. Every step leaves a
directory. -/
def walk (tree : FileTree) (place : List String) : List String → Except FileFault (List String)
  | [] => .ok place
  | step :: rest =>
    match tree.entryAt? place.reverse with
    | some .directory => tree.walk (go place step) rest
    | some _ => .error .notDirectory
    | none => .error .missing

/-- The place that a path leads to. -/
def locate (tree : FileTree) (path : String) : Except FileFault (List String) :=
  if path.isEmpty then .error .missing
  else (tree.walk (start path) (steps path)).map List.reverse

/-- The entry at a path. -/
def entry (tree : FileTree) (path : String) : Except FileFault FileEntry :=
  match tree.locate path with
  | .error fault => .error fault
  | .ok place =>
    match tree.entryAt? place with
    | some entry => .ok entry
    | none => .error .missing

/-- Whether a path leads to an entry. -/
def exists_ (tree : FileTree) (path : String) : Bool := (tree.entry path).isOk

/-- Whether a path leads to a directory. -/
def isDirectory (tree : FileTree) (path : String) : Bool :=
  match tree.entry path with
  | .ok .directory => true
  | _ => false

/-- The text of a file. -/
def read (tree : FileTree) (path : String) : Except FileFault String :=
  match tree.entry path with
  | .error fault => .error fault
  | .ok .directory => .error .isDirectory
  | .ok .bytes => .error .notText
  | .ok (.text content) => .ok content

/-- What precedes the last step of a place, and that step. -/
def splitLast (place : String) : List String × String :=
  match (steps place).reverse with
  | name :: outer => (outer.reverse, name)
  | [] => ([], place)

/-- The entries of a directory by name, in ascending order. -/
def list (tree : FileTree) (path : String) : Except FileFault (List (String × FileEntry)) :=
  match tree.locate path with
  | .error fault => .error fault
  | .ok place =>
    match tree.entryAt? place with
    | none => .error .missing
    | some .directory => .ok <| tree.entries.toList.filterMap fun (p, entry) =>
        let (outer, name) := splitLast p
        if outer = place then some (name, entry) else none
    | some _ => .error .notDirectory

end FileTree

end PartCatalog
