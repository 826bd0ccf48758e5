import SchemaCatalog.Decimal.Layout
import SchemaCatalog.Text.Quoted

/-!
# SQL constants

The constants of default clauses and check predicates and their SQL text.
-/

namespace SchemaCatalog

/-- A constant of an SQL statement. -/
inductive Constant where
  /-- A truth value. -/
  | bool (b : Bool)
  /-- An integer. -/
  | int (i : Int64)
  /-- A floating point number. -/
  | float (x : Float)
  /-- A string. -/
  | text (s : String)
  deriving BEq, Inhabited

namespace Constant

/-- The name of the kind of a constant. -/
def kind : Constant → String
  | bool _ => "bool"
  | int _ => "int"
  | float _ => "float"
  | text _ => "string"

/-- The SQL text of a floating point number: its shortest digits, or a quoted word for a
number that is not finite. -/
def floatToSql (x : Float) : String :=
  Decimal.Layout.plain.writeAll (Text.quote "NaN") (Text.quote "Infinity") (Text.quote "-Infinity")
    x

/-- The SQL text of a constant. -/
def toSql : Constant → String
  | bool true => "TRUE"
  | bool false => "FALSE"
  | int i => toString i.toInt
  | float x => floatToSql x
  | text s => Text.quote s

end Constant

end SchemaCatalog
