/-
# Templates -- text with placeholders

A template is text in which `%s`, `%d` and `%g` stand for values and `%%` for a
percent sign; any other use of the percent sign is refused. Adjacent text is one
piece and no piece of text is empty.
-/
import PartCatalog.Declaration

set_option autoImplicit false

namespace PartCatalog

/-- How a placeholder shows a number. -/
inductive Conversion where
  | display
  | integer
  | general
deriving DecidableEq, Repr

/-- A piece of a template. -/
inductive Segment where
  | text (s : String)
  | placeholder (conversion : Conversion)
deriving DecidableEq, Repr

namespace Conversion

/-- The letter of a conversion. -/
def letter : Conversion → Char
  | .display => 's'
  | .integer => 'd'
  | .general => 'g'

/-- The conversion of a letter. -/
def ofLetter? (c : Char) : Option Conversion :=
  if c = 's' then some .display
  else if c = 'd' then some .integer
  else if c = 'g' then some .general
  else none

/-- The text of a value under a conversion. Numbers differ: an integer drops the
fraction and keeps within 64 bits, a displayed number keeps a fraction or an
exponent, a general one is plain. -/
def render : Conversion → Value → String
  | .integer, .number x => Node.intText x.toInt64
  | .display, .number x => Layout.name.text x
  | _, value => value.display

end Conversion

namespace Template

/-- A piece of text from its characters in reverse, if there are any. -/
def flush : List Char → List Segment
  | [] => []
  | c :: cs => [.text (String.ofList (c :: cs).reverse)]

/-- The pieces of the characters, with the text before them in reverse. -/
def scan (before : List Char) : List Char → Except ShapeFault (List Segment)
  | [] => .ok (flush before)
  | c :: rest =>
    if c = '%' then
      match rest with
      | [] => .error (.unsupportedConversion none)
      | d :: after =>
        if d = '%' then scan ('%' :: before) after
        else match Conversion.ofLetter? d with
          | none => .error (.unsupportedConversion (some d))
          | some conversion =>
            (scan [] after).map fun segments =>
              flush before ++ .placeholder conversion :: segments
    else scan (c :: before) rest

/-- The pieces of a template. -/
def parse (template : String) : Except ShapeFault (List Segment) := scan [] template.toList

/-- The number of placeholders. -/
def placeholderCount (segments : List Segment) : Nat :=
  segments.countP fun
    | .placeholder _ => true
    | .text _ => false

end Template

end PartCatalog
