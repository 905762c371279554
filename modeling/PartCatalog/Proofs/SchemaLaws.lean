/-
# Laws of schemas -- which mappings pass, and which of their entries a name finds

A mapping passes exactly when the text of every key is a field and no mandatory field is
left over (`check_eq_ok`), in whatever order its entries stand (`check_eq_ok_of_perm`).  A
reader then finds a field by its name, which is another test of the key than the one for
its text: an entry that has passed is found exactly when its key is an untagged string
(`entry_found_iff`).  So an entry may pass and be found by nobody
(`entry_found_refuted`).
-/
import PartCatalog.ParameterSet.Parse
import PartCatalog.Proofs.Outcome
import PartCatalog.Yaml.Document

set_option autoImplicit false

namespace PartCatalog

open Outcome

/-! ## Checking -/

namespace Schema

variable {element : String} {mandatory optional : List String} {entries entries' : List (Node × Node)}

/-- What is left over are the fields that no key takes, each key taking one of its text. -/
theorem checkKeys_eq_ok {remaining keys missing : List String}
    (declared : ∀ field ∈ remaining, field ∈ mandatory) :
    checkKeys element mandatory optional remaining keys = .ok missing ↔
      (∀ key ∈ keys, key ∈ mandatory ∨ key ∈ optional) ∧ missing = remaining.diff keys := by
  induction keys generalizing remaining with
  | nil => simp [checkKeys, eq_comm]
  | cons key keys ih =>
      rw [checkKeys, List.forall_mem_cons, List.diff_cons]
      split
      · next remains =>
        rw [ih fun field member => declared field (List.mem_of_mem_erase member)]
        simp [declared key remains]
      · next taken =>
        rw [List.erase_of_not_mem taken]
        split
        · next known => simp [ih declared, known]
        · next unknown => simp [unknown]

/-- A mapping passes if each key has the text of a field, and takes all mandatory ones. -/
theorem check_eq_ok :
    check element mandatory optional entries = .ok () ↔
      (∀ e ∈ entries, e.1.text ∈ mandatory ∨ e.1.text ∈ optional) ∧
        mandatory.diff (entries.map fun e => e.1.text) = [] := by
  have passes : check element mandatory optional entries = .ok () ↔
      checkKeys element mandatory optional mandatory (entries.map fun e => e.1.text) = .ok [] := by
    unfold check
    split
    · next failed => simp [failed]
    · next all => simp [all]
    · next missing someLeft all =>
      rw [all, Except.ok.injEq]
      exact iff_of_false (fun passed => by cases passed) someLeft
  rw [passes, checkKeys_eq_ok fun _ member => member, List.forall_mem_map, eq_comm (a := [])]

theorem check_eq_ok_of_perm (perm : (entries.map fun e => e.1.text).Perm (entries'.map fun e => e.1.text)) :
    check element mandatory optional entries = .ok () ↔
      check element mandatory optional entries' = .ok () := by
  have sameTexts : ∀ p : String → Prop, (∀ e ∈ entries, p e.1.text) ↔ ∀ e ∈ entries', p e.1.text := by
    intro p
    rw [← List.forall_mem_map (f := fun e : Node × Node => e.1.text) (P := p),
      ← List.forall_mem_map (f := fun e : Node × Node => e.1.text) (P := p)]
    exact forall_congr' fun text => by rw [perm.mem_iff]
  rw [check_eq_ok, check_eq_ok, perm.diff_left, sameTexts fun text => text ∈ mandatory ∨ text ∈ optional]

end Schema

namespace Declaration

variable {element : String} {mandatory optional : List String} {node : Node}
  {entries : List (Node × Node)}

theorem mapping_eq_ok : mapping element node = .ok entries ↔ node.asMapping? = some entries := by
  unfold mapping
  cases node.asMapping? <;> simp

theorem fields_eq_ok :
    fields element mandatory optional node = .ok entries ↔
      node.asMapping? = some entries ∧ Schema.check element mandatory optional entries = .ok () := by
  rw [← @mapping_eq_ok element]
  unfold fields
  cases mapping element node with
  | error e => simp
  | ok found =>
      dsimp only
      split
      · next e refused =>
        refine iff_of_false (fun run => by cases run) ?_
        rintro ⟨same, passed⟩
        cases same
        rw [refused] at passed
        cases passed
      · next passed =>
        rw [Except.ok.injEq]
        exact ⟨fun same => ⟨same, same ▸ passed⟩, And.left⟩

end Declaration

/-! ## Finding -/

namespace Node

variable {entries : List (Node × Node)} {name : String} {e : Node × Node}

/-- Whether a node is this string, untagged. -/
def isString (name : String) : Node → Bool
  | .str s => s = name
  | _ => false

theorem isString_iff {node : Node} : node.isString name = true ↔ node = .str name := by
  cases node <;> simp [isString]

/-- The entry whose value a name finds. -/
def entryNamed? (entries : List (Node × Node)) (name : String) : Option (Node × Node) :=
  entries.find? fun e => e.1.isString name

theorem field?_eq_map_entryNamed? (entries : List (Node × Node)) (name : String) :
    field? entries name = (entryNamed? entries name).map (·.2) := by
  induction entries with
  | nil => rfl
  | cons e entries ih =>
      obtain ⟨key, value⟩ := e
      by_cases found : key.isString name = true
      · obtain rfl := isString_iff.1 found
        simp [field?, entryNamed?, isString]
      · have later : entryNamed? ((key, value) :: entries) name = entryNamed? entries name :=
          List.find?_cons_of_neg found
        rw [later, ← ih]
        cases key with
        | str s => rw [field?, if_neg fun same => found (isString_iff.2 (congrArg Node.str same))]
        | _ => rfl

theorem key_of_entryNamed? (found : entryNamed? entries name = some e) : e.1 = .str name :=
  isString_iff.1 (List.find?_some (p := fun e : Node × Node => e.1.isString name) found)

/-- Where no key is repeated, an untagged string finds its own entry. -/
theorem entryNamed?_of_mem (distinct : Yaml.distinctKeys entries = true) (member : e ∈ entries)
    (isName : e.1 = .str name) : entryNamed? entries name = some e := by
  induction entries with
  | nil => cases member
  | cons first entries ih =>
      simp only [Yaml.distinctKeys, Bool.and_eq_true, Bool.not_eq_true', List.any_eq_false] at distinct
      rcases List.mem_cons.1 member with rfl | later
      · exact List.find?_cons_of_pos (isString_iff.2 isName)
      · have other : ¬ first.1.isString name = true := by
          intro alsoFirst
          refine distinct.1 e later ?_
          rw [isName, isString_iff.1 alsoFirst]
          simp [same]
        have skipped : entryNamed? (first :: entries) name = entryNamed? entries name :=
          List.find?_cons_of_neg other
        rw [skipped, ih distinct.2 later]

end Node

namespace Schema

/-- **An entry that passed is found by a declared name exactly if its key is an untagged
string.**  `entryNamed?` is the entry whose value a reader gets for a name. -/
theorem entry_found_iff {element : String} {mandatory optional : List String}
    {entries : List (Node × Node)} (distinct : Yaml.distinctKeys entries = true)
    (passed : check element mandatory optional entries = .ok ()) :
    (∀ name, Node.field? entries name = (Node.entryNamed? entries name).map (·.2)) ∧
      ∀ e ∈ entries,
        (∃ name, (name ∈ mandatory ∨ name ∈ optional) ∧ Node.entryNamed? entries name = some e) ↔
          ∃ name, e.1 = .str name := by
  refine ⟨Node.field?_eq_map_entryNamed? entries, fun e member => ⟨?_, ?_⟩⟩
  · rintro ⟨name, -, found⟩
    exact ⟨name, Node.key_of_entryNamed? found⟩
  · rintro ⟨name, isName⟩
    have known := (check_eq_ok.1 passed).1 e member
    rw [isName] at known
    exact ⟨name, known, Node.entryNamed?_of_mem distinct member isName⟩

namespace Example

/-- A table with its three fields. -/
def tableEntries : List (Node × Node) :=
  [(.str "index", .str "size"), (.str "columns", .seq []), (.str "data", .map [])]

/-- A list of free parameters under a tagged key. -/
def taggedFree : List (Node × Node) := [(.tagged "later" (.str "free"), .seq [.str "size"])]

end Example

/-- Every entry of a written table is found. -/
theorem entry_found_table :
    check "table" ["index", "columns", "data"] [] Example.tableEntries = .ok () ∧
      ∀ e ∈ Example.tableEntries, ∃ name, (name ∈ ["index", "columns", "data"] ∨ name ∈ []) ∧
        Node.entryNamed? Example.tableEntries name = some e := by
  have passed : check "table" ["index", "columns", "data"] [] Example.tableEntries = .ok () := by decide
  refine ⟨passed, fun e member => ((entry_found_iff (by decide) passed).2 e member).2 ?_⟩
  simp only [Example.tableEntries, List.mem_cons, List.not_mem_nil, or_false] at member
  rcases member with rfl | rfl | rfl <;> exact ⟨_, rfl⟩

/-- A key with a tag has the text of a section and passes.  No name finds its entry, so the
element is read as if it were empty. -/
theorem entry_found_refuted :
    check "parameters" [] ParameterSet.sections Example.taggedFree = .ok () ∧
      (∀ name, Node.entryNamed? Example.taggedFree name = none) ∧
      ParameterSet.ofNode (.map Example.taggedFree) = .ok ParameterSet.empty := by
  exact ⟨by decide, fun name => rfl, rfl⟩

end Schema

end PartCatalog
