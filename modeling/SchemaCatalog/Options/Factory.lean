import SchemaCatalog.Catalog

/-!
# How catalog objects are made

A conversion makes its columns, tables, composite types and namespaces through an
`ObjectFactory`, so that an application can adjust them. `ObjectFactory.plain` makes the
objects as they are; `ObjectFactory.described` documents what has no documentation.
-/

namespace SchemaCatalog

/-- What a column is made from. -/
structure ColumnParts where
  /-- The name. -/
  name : String
  /-- The data type. -/
  dataType : DataType
  /-- Whether the column accepts nulls. -/
  nullable : Bool
  /-- The default expression. -/
  default : Option String
  /-- Whether the database generates the values. -/
  identity : Bool
  /-- Documentation. -/
  description : Option String

/-- The column of its parts: generated values exclude nulls and a default. -/
def ColumnParts.column (p : ColumnParts) : Column :=
  let c := Column.plain p.name p.dataType p.nullable
  let c := if p.identity then c.withIdentity else c
  let c := match p.default with
    | some d => c.withDefault d
    | none => c
  match p.description with
  | some d => c.withDescription d
  | none => c

/-- Makes catalog objects. -/
structure ObjectFactory where
  /-- Makes a column. -/
  column : ColumnParts → Column
  /-- Makes a table from name, columns, primary key, constraints and documentation. -/
  table : QualifiedName → List Column → List String → List Constraint → Option String →
    Except FormationError Table
  /-- Makes a composite type from name, members and documentation. -/
  composite : QualifiedName → List CompositeMember → Option String →
    Except FormationError CompositeType
  /-- Makes an empty namespace. -/
  newNamespace : String → Namespace

namespace ObjectFactory

/-- Makes the objects as they are. -/
def plain : ObjectFactory := ⟨ColumnParts.column, Table.form, CompositeType.form, Namespace.empty⟩

instance : Inhabited ObjectFactory := ⟨plain⟩

/-- Documents every object that has no documentation with its kind and name, and marks the
names of namespaces. -/
def described : ObjectFactory where
  column p := plain.column { p with description := some (p.description.getD ("column " ++ p.name)) }
  table name columns key constraints description :=
    plain.table name columns key constraints (some (description.getD ("table " ++ name.compact)))
  composite name members description :=
    plain.composite name members (some (description.getD ("struct " ++ name.compact)))
  newNamespace name := plain.newNamespace ("ns:" ++ name)

end ObjectFactory

end SchemaCatalog
