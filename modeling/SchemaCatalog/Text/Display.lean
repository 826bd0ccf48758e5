import SchemaCatalog.Text.Hex
import SchemaCatalog.Text.Unprintable

/-!
# Strings for display

A string is shown between quotation marks, with escapes for the quotation mark, the
backslash and the characters that have no visible form.
-/

namespace SchemaCatalog.Text

/-- A character inside a displayed string. -/
def displayChar (c : Char) : List Char :=
  if c = '\x00' then ['\\', '0']
  else if c = '\t' then ['\\', 't']
  else if c = '\r' then ['\\', 'r']
  else if c = '\n' then ['\\', 'n']
  else if c = '\\' then ['\\', '\\']
  else if c = '"' then ['\\', '"']
  else if isUnprintable c then
    ['\\', 'u', '\x7b'] ++ (hexNat c.toNat).toList ++ ['\x7d']
  else [c]

/-- A string between quotation marks. -/
def display (s : String) : String :=
  String.ofList ('"' :: (s.toList.flatMap displayChar ++ ['"']))

end SchemaCatalog.Text
