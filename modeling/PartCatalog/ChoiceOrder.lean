/-
# The order of choices -- by trailing number, or alphabetically

Keys such as `M2`, `M2.5`, `M10` are presented by size. A candidate has a size if
it is text without ASCII digits followed by a decimal number up to its very end;
if every candidate has one, the sizes order the list and equal sizes fall back to
code point order, otherwise code point order holds throughout.
-/
import PartCatalog.Binary64.Reader

set_option autoImplicit false

namespace PartCatalog.ChoiceOrder

/-- Whether characters are digits, then perhaps a point and more digits. -/
def isTrailingNumber (cs : List Char) : Bool :=
  match cs.takeWhile Char.isDigit, cs.dropWhile Char.isDigit with
  | [], _ => false
  | _, [] => true
  | _, '.' :: rest => rest.all Char.isDigit
  | _, _ => false

/-- The size of a candidate: the number that follows its digit-free beginning. -/
def size? (candidate : String) : Option Binary64 :=
  let tail := candidate.toList.dropWhile fun c => !c.isDigit
  if isTrailingNumber tail then Binary64.ofChars? tail else none

/-- The place of a candidate by size; one without a size is beyond all others. -/
def sizeRank (candidate : String) : Int :=
  ((size? candidate).getD (.infinite false)).rank

/-- Whether a candidate may stand before another by size, then by code points. -/
def numericalLe (a b : String) : Bool :=
  if sizeRank a < sizeRank b then true
  else if sizeRank b < sizeRank a then false
  else decide (a ≤ b)

/-- A way to order choices. -/
inductive Strategy where
  | numerical
  | alphabetical
deriving DecidableEq, Repr

namespace Strategy

/-- The strategies in the order they are tried. -/
def all : List Strategy := [.numerical, .alphabetical]

def name : Strategy → String
  | .numerical => "numerical"
  | .alphabetical => "alphabetical"

/-- Whether a strategy can order these candidates. -/
def applies : Strategy → List String → Bool
  | .numerical, candidates => candidates.all fun c => (size? c).isSome
  | .alphabetical, _ => true

/-- The order of a strategy. -/
def le : Strategy → String → String → Bool
  | .numerical => numericalLe
  | .alphabetical => fun a b => decide (a ≤ b)

/-- The candidates in the order of the strategy. -/
def sort (strategy : Strategy) (candidates : List String) : List String :=
  candidates.mergeSort strategy.le

end Strategy

/-- The first strategy that can order the candidates. -/
def strategy (candidates : List String) : Strategy :=
  if Strategy.numerical.applies candidates then .numerical else .alphabetical

/-- The candidates as they are presented. -/
def sort (candidates : List String) : List String := (strategy candidates).sort candidates

end PartCatalog.ChoiceOrder
