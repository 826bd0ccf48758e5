import SchemaCatalog.Composite
import SchemaCatalog.Table

/-!
# Namespaces and the catalog
-/

namespace SchemaCatalog

/-- A named group of enumeration types, composite types and tables. -/
structure Namespace where
  /-- The name; the empty name is the default namespace. -/
  name : String
  /-- The enumeration types. -/
  enums : List EnumerationType
  /-- The composite types. -/
  structs : List CompositeType
  /-- The tables. -/
  tables : List Table
  deriving DecidableEq, Inhabited

namespace Namespace

/-- A namespace without objects. -/
def empty (name : String) : Namespace := ⟨name, [], [], []⟩

/-- Whether this is the default namespace. -/
def isDefault (n : Namespace) : Bool := n.name.isEmpty

/-- Whether there are no objects. -/
def isEmpty (n : Namespace) : Bool := n.enums.isEmpty && n.structs.isEmpty && n.tables.isEmpty

/-- A table by its local name. -/
def table? (n : Namespace) (name : String) : Option Table :=
  n.tables.find? fun t => t.name.name = name

/-- A composite type by its local name. -/
def struct? (n : Namespace) (name : String) : Option CompositeType :=
  n.structs.find? fun s => s.name.name = name

/-- An enumeration type by its local name. -/
def enum? (n : Namespace) (name : String) : Option EnumerationType :=
  n.enums.find? fun e => e.name.name = name

end Namespace

/-- The namespaces that one conversion produces. -/
structure Catalog where
  /-- The namespaces in order. -/
  namespaces : List Namespace
  deriving DecidableEq, Inhabited

namespace Catalog

/-- A namespace by its name. -/
def namespace? (c : Catalog) (name : String) : Option Namespace :=
  c.namespaces.find? fun n => n.name = name

/-- All tables in catalog order. -/
def tables (c : Catalog) : List Table := c.namespaces.flatMap Namespace.tables

/-- All composite types in catalog order. -/
def structs (c : Catalog) : List CompositeType := c.namespaces.flatMap Namespace.structs

/-- All enumeration types in catalog order. -/
def enums (c : Catalog) : List EnumerationType := c.namespaces.flatMap Namespace.enums

/-- A table by its whole name. -/
def table? (c : Catalog) (name : QualifiedName) : Option Table :=
  c.tables.find? fun t => t.name = name

/-- The first table with a local name. -/
def tableByName? (c : Catalog) (name : String) : Option Table :=
  c.tables.find? fun t => t.name.name = name

end Catalog

end SchemaCatalog
