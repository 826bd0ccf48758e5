import SchemaCatalog.Text.Display

/-!
# Literal values

The values of literal types and the members of enumerations.
-/

namespace SchemaCatalog

/-- A literal value. -/
inductive Literal where
  /-- A string. -/
  | str (s : String)
  /-- An integer. -/
  | int (i : Int64)
  /-- A truth value. -/
  | bool (b : Bool)
  deriving DecidableEq, Inhabited

namespace Literal

/-- The label of a value. -/
def label : Literal → String
  | str s => s
  | int i => toString i.toInt
  | bool true => "true"
  | bool false => "false"

/-- The value for display: a string stands between quotation marks. -/
def display : Literal → String
  | str s => Text.display s
  | v => v.label

/-- Whether this is a string. -/
def isString : Literal → Bool
  | str _ => true
  | _ => false

end Literal

end SchemaCatalog
