/-
# The meaning of plain scalars -- null, bools, integers, doubles, strings

An integer is decimal, or hexadecimal, octal or binary after `0x`, `0o`, `0b`;
digits after a leading zero make a string. An integer that needs more than 64 bits
is refused as long as 128 would do, and is read as a double beyond that. A double
must be finite, or one of the spellings of infinity and not-a-number with a point.
-/
import PartCatalog.Binary64.Reader
import PartCatalog.Node.Basic

set_option autoImplicit false

namespace PartCatalog.Yaml

def isNullWord (s : String) : Bool := ["null", "Null", "NULL", "~"].contains s

def boolOfWord? (s : String) : Option Bool :=
  if ["true", "True", "TRUE"].contains s then some true
  else if ["false", "False", "FALSE"].contains s then some false
  else none

/-! ## Integers -/

/-- The value of a digit up to a radix of sixteen. -/
def digitValue? (radix : Nat) (c : Char) : Option Nat :=
  let n? :=
    if '0' ≤ c ∧ c ≤ '9' then some (c.toNat - '0'.toNat)
    else if 'a' ≤ c ∧ c ≤ 'f' then some (c.toNat - 'a'.toNat + 10)
    else if 'A' ≤ c ∧ c ≤ 'F' then some (c.toNat - 'A'.toNat + 10)
    else none
  n?.filter (· < radix)

/-- The number that digits denote, if there is at least one. -/
def natOfDigits? (radix : Nat) (ds : List Char) : Option Nat :=
  if ds.isEmpty then none
  else ds.foldlM (fun n c => (digitValue? radix c).map (radix * n + ·)) 0

/-- Digits in one of the notations. -/
def magnitude? : List Char → Option Nat
  | '0' :: 'x' :: ds => natOfDigits? 16 ds
  | '0' :: 'o' :: ds => natOfDigits? 8 ds
  | '0' :: 'b' :: ds => natOfDigits? 2 ds
  | ds => natOfDigits? 10 ds

/-- Whether a text is digits after a needless zero, its sign left out of account. -/
def hasNeedlessZero (s : String) : Bool :=
  match (Binary64.splitSign s.toList).2 with
  | '0' :: d :: ds => (d :: ds).all Char.isDigit
  | _ => false

/-- The integer that a text denotes. -/
def intOfText? (s : String) : Option Int :=
  if hasNeedlessZero s then none
  else match s.toList with
    | '-' :: ds => (magnitude? ds).map fun n => -(n : Int)
    | '+' :: ds => (magnitude? ds).map fun n => (n : Int)
    | ds => (magnitude? ds).map fun n => (n : Int)

/-- How wide an integer is. -/
inductive IntWidth where
  | fits64
  | fits128
  | wider

def IntWidth.of (n : Int) : IntWidth :=
  if -(Nat.pow 2 63 : Int) ≤ n ∧ n < Nat.pow 2 64 then .fits64
  else if -(Nat.pow 2 127 : Int) ≤ n ∧ n < Nat.pow 2 128 then .fits128
  else .wider

/-! ## Doubles -/

/-- The double that a text denotes. -/
def doubleOfText? (s : String) : Option Binary64 :=
  let unsigned := match s.toList with
    | '+' :: rest => rest
    | cs => cs
  let signedTwice := match s.toList with
    | '+' :: '+' :: _ | '+' :: '-' :: _ => true
    | _ => false
  if signedTwice then none
  else if [".inf", ".Inf", ".INF"].contains (String.ofList unsigned) then some (.infinite false)
  else if ["-.inf", "-.Inf", "-.INF"].contains s then some (.infinite true)
  else if [".nan", ".NaN", ".NAN"].contains s then some .nan
  else (Binary64.ofChars? unsigned).filter Binary64.isFinite

/-! ## Scalars -/

/-- A text as an integer, as a double, or neither. The outer option is none for an
integer that is refused. -/
def numberOfText? (s : String) : Option (Option Node) :=
  let double := if hasNeedlessZero s then none else (doubleOfText? s).map Node.float
  match intOfText? s with
  | none => some double
  | some n =>
    match IntWidth.of n with
    | .fits64 => some (some (.int n))
    | .fits128 => none
    | .wider => some double

/-- The node of a plain scalar without a tag. -/
def plainNode? (s : String) : Option Node :=
  if s.isEmpty || isNullWord s then some .null
  else match boolOfWord? s with
    | some b => some (.bool b)
    | none => (numberOfText? s).map fun number => number.getD (.str s)

/-- The node of a scalar with a tag that is not local. Four tags say how the text is
to be read, all others make it a string. -/
def taggedNode? (tag s : String) : Option Node :=
  if tag = "tag:yaml.org,2002:bool" then (boolOfWord? s).map .bool
  else if tag = "tag:yaml.org,2002:int" then
    match intOfText? s with
    | some n => match IntWidth.of n with
      | .fits64 => some (.int n)
      | _ => none
    | none => none
  else if tag = "tag:yaml.org,2002:float" then (doubleOfText? s).map .float
  else if tag = "tag:yaml.org,2002:null" then if isNullWord s then some .null else none
  else some (.str s)

end PartCatalog.Yaml
