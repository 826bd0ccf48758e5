import SchemaCatalog.Name

/-!
# Table constraints
-/

namespace SchemaCatalog

/-- What a foreign key points at: columns of a table. -/
structure KeyReference where
  /-- The table. -/
  table : QualifiedName
  /-- The columns, usually the primary key. -/
  columns : List String
  deriving DecidableEq, Repr, Inhabited

/-- A constraint of a table other than its primary key. -/
inductive Constraint where
  /-- The columns are unique together. -/
  | unique (name : String) (columns : List String)
  /-- A predicate holds of every row. -/
  | check (name : String) (predicate : String)
  /-- The columns hold a key of another table. -/
  | foreignKey (name : String) (columns : List String) (reference : KeyReference)
  /-- The columns hold a key of one of several tables. -/
  | discriminated (name : String) (columns : List String) (references : List KeyReference)
  deriving DecidableEq, Repr, Inhabited

namespace Constraint

/-- The name of a constraint. -/
def name : Constraint → String
  | unique name _ => name
  | check name _ => name
  | foreignKey name _ _ => name
  | discriminated name _ _ => name

/-- Whether this is a uniqueness constraint. -/
def isUnique : Constraint → Bool
  | unique .. => true
  | _ => false

/-- Whether this is a check constraint. -/
def isCheck : Constraint → Bool
  | check .. => true
  | _ => false

/-- Whether this is a foreign key to a single table. -/
def isForeignKey : Constraint → Bool
  | foreignKey .. => true
  | _ => false

/-- What a constraint points at. -/
def references : Constraint → List KeyReference
  | foreignKey _ _ reference => [reference]
  | discriminated _ _ references => references
  | _ => []

/-- The tables a constraint points at. -/
def referencedTables (c : Constraint) : List QualifiedName := c.references.map KeyReference.table

/-- The local columns a constraint names. -/
def columns : Constraint → List String
  | unique _ columns => columns
  | check _ _ => []
  | foreignKey _ columns _ => columns
  | discriminated _ columns _ => columns

end Constraint

end SchemaCatalog
