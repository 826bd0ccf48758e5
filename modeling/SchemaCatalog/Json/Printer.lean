import SchemaCatalog.Decimal.Layout
import SchemaCatalog.Json
import SchemaCatalog.Text.Hex

/-!
# The compact text of a JSON document

No blanks are written. In strings the quotation mark, the backslash and the control
characters below the blank are escaped, the latter by their short escapes where they have
one; all other characters stand for themselves.
-/

namespace SchemaCatalog.Json

/-- A character inside a string. -/
def escapeChar (c : Char) : List Char :=
  if c = '"' then ['\\', '"']
  else if c = '\\' then ['\\', '\\']
  else if c = '\x08' then ['\\', 'b']
  else if c = '\x0c' then ['\\', 'f']
  else if c = '\n' then ['\\', 'n']
  else if c = '\r' then ['\\', 'r']
  else if c = '\t' then ['\\', 't']
  else if c.toNat < 32 then
    ['\\', 'u', '0', '0', Text.hexDigit (c.toNat / 16), Text.hexDigit (c.toNat % 16)]
  else [c]

/-- The text of a string, with its quotation marks. -/
def quoted (s : String) : String :=
  String.ofList ('"' :: (s.toList.flatMap escapeChar ++ ['"']))

mutual

/-- The text of a value. -/
def print : Json → String
  | null => "null"
  | bool true => "true"
  | bool false => "false"
  | int i => toString i
  | float x => if x.isFinite then Decimal.Layout.json.write x else "null"
  | str s => quoted s
  | arr items => "[" ++ ",".intercalate (printItems items) ++ "]"
  | obj members => "\x7b" ++ ",".intercalate (printMembers members) ++ "\x7d"

/-- The texts of the items of an array. -/
def printItems : List Json → List String
  | [] => []
  | v :: vs => print v :: printItems vs

/-- The texts of the members of an object. -/
def printMembers : List (String × Json) → List String
  | [] => []
  | (k, v) :: ms => (quoted k ++ ":" ++ print v) :: printMembers ms

end

end SchemaCatalog.Json
