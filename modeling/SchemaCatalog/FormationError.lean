/-!
# Invariants of catalog objects that an input can break
-/

namespace SchemaCatalog

/-- Why a catalog object cannot be formed. -/
inductive FormationError where
  /-- A table or composite type declares a column or member twice. -/
  | duplicateColumn (object column : String)
  /-- A table has no primary key column. -/
  | emptyPrimaryKey (table : String)
  /-- A primary key names a column that the table does not have. -/
  | missingPrimaryKeyColumn (table column : String)
  /-- Two constraints of a table have one name. -/
  | duplicateConstraint (table constraint : String)
  /-- The listed data types have no common type. -/
  | incompatible (types : String)
  deriving DecidableEq, Repr, Inhabited

namespace FormationError

/-- The text of an error. -/
def message : FormationError → String
  | duplicateColumn object column => "duplicate column `" ++ column ++ "` in `" ++ object ++ "`"
  | emptyPrimaryKey table => "table `" ++ table ++ "` has an empty primary key"
  | missingPrimaryKeyColumn table column =>
    "primary key column `" ++ column ++ "` not found in table `" ++ table ++ "`"
  | duplicateConstraint table constraint =>
    "duplicate constraint `" ++ constraint ++ "` in table `" ++ table ++ "`"
  | incompatible types => "no common type for: " ++ types

/-- The name of the category of an error. -/
def category : FormationError → String
  | duplicateColumn .. => "DuplicateColumn"
  | emptyPrimaryKey .. => "EmptyPrimaryKey"
  | missingPrimaryKeyColumn .. => "MissingPrimaryKeyColumn"
  | duplicateConstraint .. => "DuplicateConstraint"
  | incompatible .. => "Incompatible"

end FormationError

end SchemaCatalog
