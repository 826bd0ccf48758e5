import SchemaCatalog.Definition
import SchemaCatalog.Record
import SchemaCatalog.Record.Encoding
import SchemaCatalog.Table

/-!
# Rows of records

An `Extractor` binds the columns of a table to the fields of its entity and makes a row of
values, in the order of the columns, of every record.
-/

namespace SchemaCatalog

/-- Why a row cannot be made. -/
inductive ExtractError where
  /-- A column has no field of its name. -/
  | unknownColumn (entity column : String)
  /-- A column that excludes nulls has no value. -/
  | missingValue (column : String)
  /-- The value of a column has a shape that does not fit. -/
  | mismatch (column : String) (expected : Expectation) (found : String)
  deriving DecidableEq, Repr, Inhabited

namespace ExtractError

/-- The name of the category of an error. -/
def category : ExtractError → String
  | unknownColumn .. => "UnknownColumn"
  | missingValue .. => "MissingValue"
  | mismatch .. => "ValueMismatch"

/-- The text of an error. -/
def message : ExtractError → String
  | unknownColumn entity column =>
    "column `" ++ column ++ "` has no matching field in entity `" ++ entity ++ "`"
  | missingValue column => "missing value for non-nullable column `" ++ column ++ "`"
  | mismatch column expected found =>
    "value for column `" ++ column ++ "` does not match " ++ expected.display ++ ": " ++ found

end ExtractError

/-- A column bound to a field. -/
structure Slot where
  /-- The column. -/
  column : String
  /-- The field. -/
  field : String
  /-- Whether the value may be left out. -/
  acceptsNull : Bool
  /-- How values are stored. -/
  encoding : ValueEncoding
  deriving DecidableEq, Repr, Inhabited

/-- The columns of a table bound to the fields of an entity. -/
structure Extractor where
  /-- The bound columns in order. -/
  slots : List Slot
  deriving DecidableEq, Repr, Inhabited

namespace Slot

/-- Binds a column to the field of its name. -/
def bind (e : Entity) (c : Column) : Except ExtractError Slot :=
  match e.field? c.name with
  | some f =>
    .ok ⟨c.name, f.name, c.nullable || c.identity, ValueEncoding.forColumn c.dataType f.type⟩
  | none => .error (.unknownColumn e.name c.name)

/-- The value of a column in the row of a record. -/
def value (s : Slot) (r : Record) : Except ExtractError Value :=
  let missing : Except ExtractError Value :=
    if s.acceptsNull then .ok .null else .error (.missingValue s.column)
  match r.get? s.field with
  | some v =>
    if v.isNull then missing
    else (v.encode s.encoding).mapError fun expected => .mismatch s.column expected v.kind
  | none => missing

end Slot

namespace Extractor

/-- Binds the columns of a table to the fields of an entity. -/
def create (t : Table) (e : Entity) : Except ExtractError Extractor := do
  let slots ← t.columns.values.mapM (Slot.bind e)
  return ⟨slots⟩

/-- The names of the columns in order. -/
def columns (x : Extractor) : List String := x.slots.map Slot.column

/-- The encoding of a column. -/
def encoding? (x : Extractor) (column : String) : Option ValueEncoding :=
  (x.slots.find? fun s => s.column = column).map Slot.encoding

/-- The row of a record. -/
def extract (x : Extractor) (r : Record) : Except ExtractError (List Value) :=
  x.slots.mapM fun s => s.value r

/-- The rows of several records. -/
def extractAll (x : Extractor) (rs : List Record) : Except ExtractError (List (List Value)) :=
  rs.mapM x.extract

end Extractor

end SchemaCatalog
