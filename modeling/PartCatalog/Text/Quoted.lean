/-
# Quoted texts -- the diagnostic form of a string

Between double quotes stand the characters themselves; a quote, a backslash and
the common controls are escaped by a letter, other unprintable characters by
their number in braces.
-/
import PartCatalog.Text.Hexadecimal
import PartCatalog.Text.Unprintable

set_option autoImplicit false

namespace PartCatalog.Text

/-- One character in a quoted text. -/
def quotedChar (c : Char) : List Char :=
  if c = '"' then ['\\', '"']
  else if c = '\\' then ['\\', '\\']
  else if c = '\n' then ['\\', 'n']
  else if c = '\r' then ['\\', 'r']
  else if c = '\t' then ['\\', 't']
  else if c.toNat = 0 then ['\\', '0']
  else if isUnprintable c then '\\' :: 'u' :: '\x7b' :: (hexChars c.toNat ++ ['\x7d'])
  else [c]

/-- The text between quotes. -/
def quoted (s : String) : String :=
  String.ofList ('"' :: (s.toList.flatMap quotedChar ++ ['"']))

end PartCatalog.Text
