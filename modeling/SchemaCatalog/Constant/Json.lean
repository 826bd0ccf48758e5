import SchemaCatalog.Constant
import SchemaCatalog.Json.Reader

/-!
# Constants as JSON

A constant is written as the JSON value it is. Read back, an integer beyond 64 signed bits is
a floating point number.
-/

namespace SchemaCatalog.Constant

open SchemaCatalog.Json (Reader)

/-- The document of a constant. -/
def toJson : Constant → Json
  | bool b => .bool b
  | int i => .int i.toInt
  | float x => .number x
  | text s => .str s

/-- Reads a constant. -/
def reader : Reader Constant
  | _, .bool b => some (bool b)
  | _, .number n =>
    match n.toInt? with
    | some i =>
      if -Int.pow 2 63 ≤ i ∧ i < Int.pow 2 63 then some (int (Int64.ofInt i))
      else n.toFloat?.map float
    | none => n.toFloat?.map float
  | _, .str s => s.map text
  | _, _ => none

/-- The constant of a JSON text. -/
def parse? (s : String) : Option Constant := reader.read? s

end SchemaCatalog.Constant
