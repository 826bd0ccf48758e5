import SchemaCatalog.Json.Printer
import SchemaCatalog.Native.Literal
import SchemaCatalog.Value.Address
import SchemaCatalog.Value.Calendar

/-!
# Values of fields

A `Value` is what a field of a record holds. `Value.toJson` is its JSON document: byte
strings are written in hexadecimal and lengths of time as seconds.
-/

namespace SchemaCatalog

/-- A value of a field. -/
inductive Value where
  /-- No value. -/
  | null
  /-- A truth value. -/
  | bool (b : Bool)
  /-- An integer. -/
  | int (i : Int64)
  /-- A floating point number. -/
  | float (x : Float)
  /-- A decimal number in digits. -/
  | decimal (digits : String)
  /-- A string. -/
  | text (s : String)
  /-- A byte string. -/
  | bytes (bs : List UInt8)
  /-- A unique identifier. -/
  | uuid (u : Uuid)
  /-- An internet address. -/
  | ip (a : IpAddress)
  /-- A date. -/
  | date (d : Date)
  /-- A time of day. -/
  | time (t : TimeOfDay)
  /-- A date and time. -/
  | timestamp (t : Timestamp)
  /-- A length of time. -/
  | interval (i : Interval)
  /-- A JSON document. -/
  | json (j : Json)
  /-- A member of an enumeration. -/
  | member (l : Literal)
  /-- A list of values. -/
  | list (vs : List Value)
  deriving BEq, Inhabited

/-- The document of a literal value. -/
def Literal.toJson : Literal → Json
  | str s => .str s
  | int i => .int i.toInt
  | bool b => .bool b

namespace Value

/-- Whether there is no value. -/
def isNull : Value → Bool
  | null => true
  | _ => false

/-- The name of the shape of a value. -/
def kind : Value → String
  | null => "null"
  | bool _ => "bool"
  | int _ => "int"
  | float _ => "float"
  | decimal _ => "decimal"
  | text _ => "string"
  | bytes _ => "bytes"
  | uuid _ => "uuid"
  | ip _ => "ip"
  | date _ => "date"
  | time _ => "time"
  | timestamp _ => "timestamp"
  | interval _ => "interval"
  | json _ => "json"
  | member _ => "enum"
  | list _ => "list"

mutual

/-- The document of a value. -/
def toJson : Value → Json
  | null => .null
  | bool b => .bool b
  | int i => .int i.toInt
  | float x => .number x
  | decimal s => .str s
  | text s => .str s
  | bytes bs => .str (Text.hex bs)
  | uuid u => .str u.toText
  | ip a => .str a.toText
  | date d => .str d.toText
  | time t => .str t.toText
  | timestamp t => .str t.toText
  | interval i => .number i.toFloat
  | json j => j
  | member l => l.toJson
  | list vs => .arr (toJsonAll vs)

/-- The documents of a list of values. -/
def toJsonAll : List Value → List Json
  | [] => []
  | v :: vs => toJson v :: toJsonAll vs

end

end Value

end SchemaCatalog
