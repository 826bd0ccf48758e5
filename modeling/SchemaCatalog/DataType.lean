import SchemaCatalog.Name
import SchemaCatalog.Text.Quoted

/-!
# SQL data types

A `DataType` describes the type of a column independently of a dialect; `toSql` is its
written form.
-/

namespace SchemaCatalog

/-- A data type of a column or of a member of a composite type. -/
inductive DataType where
  /-- Truth values. -/
  | boolean
  /-- Signed integers of `width` bytes. -/
  | integer (width : UInt8)
  /-- Single precision floating point. -/
  | real
  /-- Double precision floating point. -/
  | double
  /-- Floating point of a binary precision; `none` leaves it to the dialect. -/
  | float (precision : Option UInt8)
  /-- Fixed-point numbers of `precision` digits, `scale` of them after the point. -/
  | decimal (precision : Option UInt8) (scale : Option UInt8)
  /-- Byte strings of a fixed length. -/
  | fixedBinary (storage : Option UInt32)
  /-- Byte strings up to a length; `none` is unbounded. -/
  | variableBinary (storage : Option UInt32)
  /-- Character strings of a fixed length. -/
  | fixedCharacter (limit : Option UInt32)
  /-- Character strings up to a length; `none` is unbounded. -/
  | variableCharacter (limit : Option UInt32)
  /-- Calendar dates. -/
  | date
  /-- Times of day, with digits of the fraction of a second and perhaps a time zone. -/
  | time (precision : Option UInt8) (withTimeZone : Bool)
  /-- Date and time, with digits of the fraction of a second and perhaps a time zone. -/
  | timestamp (precision : Option UInt8) (withTimeZone : Bool)
  /-- Lengths of time. -/
  | interval
  /-- Universally unique identifiers. -/
  | uuid
  /-- JSON documents. -/
  | json
  /-- Arrays of an element type. -/
  | array (element : DataType)
  /-- One of the listed labels. -/
  | enumeration (values : List String)
  /-- A type known by name: an enumeration or composite type, or a type of the dialect. -/
  | userDefined (name : QualifiedName)
  deriving DecidableEq, Repr, Inhabited

namespace DataType

/-- Character strings without a limit. -/
def text : DataType := variableCharacter none

/-- Character strings up to a limit. -/
def varchar (limit : UInt32) : DataType := variableCharacter (some limit)

/-- Character strings of one length. -/
def fixedChar (limit : UInt32) : DataType := fixedCharacter (some limit)

/-- Byte strings of one length. -/
def binary (storage : UInt32) : DataType := fixedBinary (some storage)

/-- A type of the dialect, in the default namespace. -/
def native (name : String) : DataType := userDefined (QualifiedName.global name)

/-- Whether values are numbers. -/
def isNumeric : DataType → Bool
  | integer _ | real | double | float _ | decimal _ _ => true
  | _ => false

/-- Whether values are character strings. -/
def isCharacter : DataType → Bool
  | fixedCharacter _ | variableCharacter _ => true
  | _ => false

/-- Whether values are byte strings. -/
def isBinary : DataType → Bool
  | fixedBinary _ | variableBinary _ => true
  | _ => false

/-! ### Written form -/

/-- A key word, its precision in parentheses, and its time zone. -/
def temporalToSql (keyword : String) (precision : Option UInt8) (withTimeZone : Bool) : String :=
  keyword
    ++ (match precision with
      | some p => "(" ++ toString p.toNat ++ ")"
      | none => "")
    ++ (if withTimeZone then " with time zone" else "")

/-- A key word with its size in parentheses, or the word for an unbounded size. -/
def sizedToSql (keyword unbounded : String) : Option UInt32 → String
  | some n => keyword ++ "(" ++ toString n.toNat ++ ")"
  | none => unbounded

/-- The name of the integer type of a width. -/
def integerToSql (width : UInt8) : String :=
  match width.toNat with
  | 1 => "tinyint"
  | 2 => "smallint"
  | 4 => "integer"
  | 8 => "bigint"
  | w => "int" ++ toString w

/-- The SQL text of a data type. -/
def toSql : DataType → String
  | boolean => "boolean"
  | integer width => integerToSql width
  | real => "real"
  | double => "double precision"
  | float precision => "float(" ++ toString (precision.getD 53).toNat ++ ")"
  | decimal (some p) (some s) => "decimal(" ++ toString p.toNat ++ ", " ++ toString s.toNat ++ ")"
  | decimal (some p) none => "decimal(" ++ toString p.toNat ++ ")"
  | decimal none _ => "decimal"
  | fixedBinary storage => sizedToSql "binary" "binary" storage
  | variableBinary storage => sizedToSql "varbinary" "blob" storage
  | fixedCharacter limit => sizedToSql "char" "char" limit
  | variableCharacter limit => sizedToSql "varchar" "text" limit
  | date => "date"
  | time precision zone => temporalToSql "time" precision zone
  | timestamp precision zone => temporalToSql "timestamp" precision zone
  | interval => "interval"
  | uuid => "uuid"
  | json => "json"
  | array element => element.toSql ++ " ARRAY"
  | enumeration values => "ENUM (" ++ ", ".intercalate (values.map Text.quote) ++ ")"
  | userDefined name => name.compact

end DataType

end SchemaCatalog
