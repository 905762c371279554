/-
# Document nodes -- the tree a description is written in

A node is a scalar, a sequence, a mapping in document order, or a tagged node. An
integer and a double are different nodes. The views `asMapping?`, `asSequence?`,
`asNumber?` look through tags; a constructor match does not. `field?` finds a
key that is an untagged string, so a tagged key is never found by its name.
-/
import PartCatalog.Binary64.Basic

set_option autoImplicit false

namespace PartCatalog

/-- A node of a document. A tag is kept without its leading exclamation mark. -/
inductive Node where
  | null
  | bool (b : Bool)
  | int (n : Int)
  | float (x : Binary64)
  | str (s : String)
  | seq (items : List Node)
  | map (entries : List (Node × Node))
  | tagged (tag : String) (value : Node)

namespace Node

instance : Inhabited Node := ⟨.null⟩

/-! ## Equality -/

mutual

/-- Whether two nodes are one node, down to the order of entries. -/
def isEq : Node → Node → Bool
  | .null, .null => true
  | .bool a, .bool b => a = b
  | .int m, .int n => m = n
  | .float x, .float y => x = y
  | .str s, .str t => s = t
  | .seq xs, .seq ys => areEq xs ys
  | .map es, .map fs => areEqEntries es fs
  | .tagged t x, .tagged u y => t = u && isEq x y
  | _, _ => false

/-- Whether two sequences have one item after the other in common. -/
def areEq : List Node → List Node → Bool
  | [], [] => true
  | x :: xs, y :: ys => isEq x y && areEq xs ys
  | _, _ => false

/-- Whether two mappings have one entry after the other in common. -/
def areEqEntries : List (Node × Node) → List (Node × Node) → Bool
  | [], [] => true
  | (k, v) :: es, (l, w) :: fs => isEq k l && isEq v w && areEqEntries es fs
  | _, _ => false

end

mutual

theorem isEq_iff : (x y : Node) → isEq x y = true ↔ x = y
  | .null, y => by cases y <;> simp [isEq]
  | .bool a, y => by cases y <;> simp [isEq]
  | .int m, y => by cases y <;> simp [isEq]
  | .float x, y => by cases y <;> simp [isEq]
  | .str s, y => by cases y <;> simp [isEq]
  | .seq xs, y => by cases y <;> simp [isEq, areEq_iff xs]
  | .map es, y => by cases y <;> simp [isEq, areEqEntries_iff es]
  | .tagged t x, y => by cases y <;> simp [isEq, isEq_iff x]

theorem areEq_iff : (xs ys : List Node) → areEq xs ys = true ↔ xs = ys
  | [], ys => by cases ys <;> simp [areEq]
  | x :: xs, ys => by cases ys <;> simp [areEq, isEq_iff x, areEq_iff xs]

theorem areEqEntries_iff : (es fs : List (Node × Node)) → areEqEntries es fs = true ↔ es = fs
  | [], fs => by cases fs <;> simp [areEqEntries]
  | (k, v) :: es, fs => by
      cases fs <;> simp [areEqEntries, isEq_iff k, isEq_iff v, areEqEntries_iff es, Prod.ext_iff]

end

instance : DecidableEq Node := fun x y => decidable_of_iff _ (isEq_iff x y)

/-! ## Views through tags -/

/-- The node below all tags. -/
def untagged : Node → Node
  | .tagged _ value => value.untagged
  | node => node

/-- The entries of a mapping, tagged or not. -/
def asMapping? (node : Node) : Option (List (Node × Node)) :=
  match node.untagged with
  | .map entries => some entries
  | _ => none

/-- The items of a sequence, tagged or not. -/
def asSequence? (node : Node) : Option (List Node) :=
  match node.untagged with
  | .seq items => some items
  | _ => none

/-- The text of a string, tagged or not. -/
def asString? (node : Node) : Option String :=
  match node.untagged with
  | .str s => some s
  | _ => none

/-- The double nearest to a number, tagged or not. -/
def asNumber? (node : Node) : Option Binary64 :=
  match node.untagged with
  | .int n => some (Binary64.ofInt n)
  | .float x => some x
  | _ => none

/-! ## Fields -/

/-- The value under the first key that is the untagged string `name`. -/
def field? (entries : List (Node × Node)) (name : String) : Option Node :=
  match entries with
  | [] => none
  | (.str key, value) :: rest => if key = name then some value else field? rest name
  | _ :: rest => field? rest name

/-! ## Sameness of keys -/

mutual

/-- Whether two nodes are the same key. Not-a-number is the same as itself, the two
zeros are the same, an integer is never the same as a double, and mappings are
compared without regard to the order of their entries. -/
def same : Node → Node → Bool
  | .null, .null => true
  | .bool a, .bool b => a == b
  | .int m, .int n => m == n
  | .float x, .float y => (x.isNaN && y.isNaN) || x.numEq y
  | .str s, .str t => s == t
  | .seq xs, .seq ys => sameItems xs ys
  | .map es, .map fs => es.length == fs.length && sameEntries es fs
  | .tagged t x, .tagged u y => t == u && same x y
  | _, _ => false

/-- Whether two sequences have the same items in order. -/
def sameItems : List Node → List Node → Bool
  | [], [] => true
  | x :: xs, y :: ys => same x y && sameItems xs ys
  | _, _ => false

/-- Whether every entry of the first mapping is one of the second. -/
def sameEntries : List (Node × Node) → List (Node × Node) → Bool
  | [], _ => true
  | (k, v) :: rest, fs => fs.any (fun f => same k f.1 && same v f.2) && sameEntries rest fs

end

/-- Add an entry at the end, or replace the value of the same key in its place. -/
def putEntry (key value : Node) : List (Node × Node) → List (Node × Node)
  | [] => [(key, value)]
  | (k, v) :: rest =>
    if k.same key then (k, value) :: rest else (k, v) :: putEntry key value rest

/-- The tag without its leading exclamation mark, unless it is nothing else. -/
def tagName (tag : String) : String :=
  match tag.toList with
  | '!' :: c :: rest => String.ofList (c :: rest)
  | _ => tag

end Node

end PartCatalog
