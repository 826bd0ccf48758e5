import SchemaCatalog.Column
import SchemaCatalog.Constraint
import SchemaCatalog.Distinct
import SchemaCatalog.FormationError
import SchemaCatalog.OrderedMap

/-!
# Tables

`Table.form` builds a table from its columns, primary key and constraints and checks, in
this order, that the column names differ, that the primary key is not empty and names
columns of the table, and that the constraint names differ.
-/

namespace SchemaCatalog

/-- A table with a primary key. -/
structure Table where
  /-- The name. -/
  name : QualifiedName
  /-- The columns by name, in order. -/
  columns : OrderedMap Column
  /-- The names of the primary key columns. -/
  primaryKey : List String
  /-- The constraints other than the primary key. -/
  constraints : List Constraint
  /-- Documentation. -/
  description : Option String
  deriving DecidableEq, Inhabited

namespace Table

/-- Columns under their names. -/
def columnsByName (columns : List Column) : OrderedMap Column :=
  OrderedMap.ofList (columns.map fun c => (c.name, c))

/-- Forms a table from its parts. -/
def form (name : QualifiedName) (columns : List Column) (primaryKey : List String)
    (constraints : List Constraint) (description : Option String) :
    Except FormationError Table :=
  match firstRepeated? (columns.map Column.name) with
  | some c => .error (.duplicateColumn name.compact c)
  | none =>
    if primaryKey.isEmpty then
      .error (.emptyPrimaryKey name.compact)
    else
      match primaryKey.find? fun k => !(columns.map Column.name).contains k with
      | some k => .error (.missingPrimaryKeyColumn name.compact k)
      | none =>
        match firstRepeated? (constraints.map Constraint.name) with
        | some c => .error (.duplicateConstraint name.compact c)
        | none => .ok ⟨name, columnsByName columns, primaryKey, constraints, description⟩

/-- A column by its name. -/
def column? (t : Table) (name : String) : Option Column := t.columns.get? name

/-- The columns that are not part of the primary key. -/
def valueColumns (t : Table) : List Column :=
  t.columns.values.filter fun c => !t.primaryKey.contains c.name

/-- A constraint by its name. -/
def constraint? (t : Table) (name : String) : Option Constraint :=
  t.constraints.find? fun c => c.name = name

/-- The constraints that point at a table. -/
def foreignKeys (t : Table) : List Constraint :=
  t.constraints.filter fun c => !c.referencedTables.isEmpty

end Table

end SchemaCatalog
