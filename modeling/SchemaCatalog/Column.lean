import SchemaCatalog.DataType

/-!
# Columns
-/

namespace SchemaCatalog

/-- A column of a table. -/
structure Column where
  /-- The name, unique within the table. -/
  name : String
  /-- The data type. -/
  dataType : DataType
  /-- Whether the column accepts nulls. -/
  nullable : Bool
  /-- The default expression, as SQL text. -/
  default : Option String
  /-- Whether the database generates the values. -/
  identity : Bool
  /-- Documentation. -/
  description : Option String
  deriving DecidableEq, Repr, Inhabited

namespace Column

/-- A column without default and documentation. -/
def plain (name : String) (dataType : DataType) (nullable : Bool) : Column :=
  ⟨name, dataType, nullable, none, false, none⟩

/-- Makes the values generated; a generated column is neither nullable nor defaulted. -/
def withIdentity (c : Column) : Column :=
  { c with identity := true, nullable := false, default := none }

/-- Sets the default expression, unless the values are generated. -/
def withDefault (c : Column) (expression : String) : Column :=
  if c.identity then c else { c with default := some expression }

/-- Sets the documentation. -/
def withDescription (c : Column) (description : String) : Column :=
  { c with description := some description }

end Column

end SchemaCatalog
