/-
# JSON texts -- trees and how they are written

An object keeps its members in the order given. `compact` has no blanks, `pretty`
has one member or item a line, two spaces deeper than what holds it; an empty
object or array stays on its line. Only what JSON demands is escaped, and a number
that is not finite is `null`.
-/
import PartCatalog.Binary64.Layout

set_option autoImplicit false

namespace PartCatalog

/-- A JSON text as a tree. -/
inductive Json where
  | null
  | bool (b : Bool)
  | number (x : Binary64)
  | string (s : String)
  | array (items : List Json)
  | object (members : List (String × Json))

namespace Json

/-- A character in a JSON string. -/
def escapedChar (c : Char) : List Char :=
  if c = '"' then ['\\', '"']
  else if c = '\\' then ['\\', '\\']
  else if c = '\n' then ['\\', 'n']
  else if c = '\r' then ['\\', 'r']
  else if c = '\t' then ['\\', 't']
  else if c.toNat = 8 then ['\\', 'b']
  else if c.toNat = 12 then ['\\', 'f']
  else if c.toNat < 32 then
    let ds := Nat.toDigits 16 c.toNat
    '\\' :: 'u' :: (List.replicate (4 - ds.length) '0' ++ ds)
  else [c]

/-- A string between quotes. -/
def quoted (s : String) : String :=
  String.ofList ('"' :: (s.toList.flatMap escapedChar ++ ['"']))

mutual

/-- The text without blanks. -/
def compact : Json → String
  | .null => "null"
  | .bool b => if b then "true" else "false"
  | .number x => Layout.json.text x
  | .string s => quoted s
  | .array items => "[" ++ String.intercalate "," (compactItems items) ++ "]"
  | .object members => "\x7b" ++ String.intercalate "," (compactMembers members) ++ "\x7d"

def compactItems : List Json → List String
  | [] => []
  | item :: rest => item.compact :: compactItems rest

def compactMembers : List (String × Json) → List String
  | [] => []
  | (name, value) :: rest => (quoted name ++ ":" ++ value.compact) :: compactMembers rest

end

/-- The start of a line at a depth. -/
def newline (depth : Nat) : String := "\n" ++ String.ofList (List.replicate (2 * depth) ' ')

/-- Parts on lines of their own between two brackets. -/
def lines (depth : Nat) (opening closing : String) (parts : List String) : String :=
  if parts.isEmpty then opening ++ closing
  else
    let separator := "," ++ newline (depth + 1)
    opening ++ newline (depth + 1) ++ String.intercalate separator parts ++ newline depth ++ closing

mutual

/-- The text with one member or item a line, at a depth. -/
def prettyAt (depth : Nat) : Json → String
  | .array items => lines depth "[" "]" (prettyItems (depth + 1) items)
  | .object members => lines depth "\x7b" "\x7d" (prettyMembers (depth + 1) members)
  | .null => "null"
  | .bool b => if b then "true" else "false"
  | .number x => Layout.json.text x
  | .string s => quoted s

def prettyItems (depth : Nat) : List Json → List String
  | [] => []
  | item :: rest => item.prettyAt depth :: prettyItems depth rest

def prettyMembers (depth : Nat) : List (String × Json) → List String
  | [] => []
  | (name, value) :: rest =>
    (quoted name ++ ": " ++ value.prettyAt depth) :: prettyMembers depth rest

end

/-- The text with one member or item a line. -/
def pretty (json : Json) : String := json.prettyAt 0

/-! ## Common shapes -/

/-- A list of strings. -/
def strings (items : List String) : Json := .array (items.map .string)

/-- A text that may be missing. -/
def optional (s : Option String) : Json := (s.map Json.string).getD .null

end Json

end PartCatalog
