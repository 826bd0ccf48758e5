import SchemaCatalog.Constant
import SchemaCatalog.Native.Type

/-!
# Definitions of user types

What a conversion starts from: entities, which have a primary key and become tables,
composite structs, and enumerations, each with its module and its documentation.
-/

namespace SchemaCatalog

/-- The default value of a field. -/
inductive DefaultValue where
  /-- Null, which writes no default clause. -/
  | null
  /-- A truth value. -/
  | bool (b : Bool)
  /-- An integer. -/
  | int (i : Int64)
  /-- A floating point number. -/
  | float (x : Float)
  /-- A string. -/
  | text (s : String)
  deriving BEq, Inhabited

namespace DefaultValue

/-- The constant of the default clause, if there is one. -/
def constant? : DefaultValue → Option Constant
  | null => none
  | bool b => some (.bool b)
  | int i => some (.int i)
  | float x => some (.float x)
  | text s => some (.text s)

end DefaultValue

/-- A field of an entity or struct. -/
structure Field where
  /-- The name. -/
  name : String
  /-- The declared type. -/
  type : NativeType
  /-- Whether the field may be absent. -/
  nullable : Bool := false
  /-- The value when none is given. -/
  default : Option DefaultValue := none
  /-- Whether the database generates the value. -/
  identity : Bool := false
  /-- Whether values differ from row to row. -/
  unique : Bool := false
  /-- Documentation. -/
  description : Option String := none
  deriving BEq, Inhabited

/-- The SQL text of the default of a field. -/
def Field.defaultSql (f : Field) : Option String :=
  (f.default.bind DefaultValue.constant?).map Constant.toSql

/-- A record type with a primary key. -/
structure Entity where
  /-- The name. -/
  name : String
  /-- The defining module. -/
  moduleName : String
  /-- The name of the primary key field. -/
  primaryKey : String
  /-- The fields in order. -/
  fields : List Field
  /-- Documentation. -/
  description : Option String := none
  deriving BEq, Inhabited

namespace Entity

/-- A field by its name. -/
def field? (e : Entity) (name : String) : Option Field := e.fields.find? fun f => f.name = name

/-- The primary key field, if it is declared. -/
def keyField? (e : Entity) : Option Field := e.field? e.primaryKey

end Entity

/-- A record type without a primary key. -/
structure Struct where
  /-- The name. -/
  name : String
  /-- The defining module. -/
  moduleName : String
  /-- The fields in order. -/
  fields : List Field
  /-- Documentation. -/
  description : Option String := none
  deriving BEq, Inhabited

/-- The names that the fields of a struct mention, in order. -/
def Struct.mentions (s : Struct) : List String := s.fields.flatMap fun f => f.type.mentions

/-- An enumeration of labelled values. -/
structure Enumeration where
  /-- The name. -/
  name : String
  /-- The defining module. -/
  moduleName : String
  /-- The members: label and value. -/
  members : List (String × Literal)
  /-- Documentation. -/
  description : Option String := none
  deriving BEq, Inhabited

namespace Enumeration

/-- The values in order. -/
def values (e : Enumeration) : List Literal := e.members.map Prod.snd

/-- The labels of the values in order. -/
def valueLabels (e : Enumeration) : List String := e.values.map Literal.label

/-- The number of different labels. -/
def distinctCount (e : Enumeration) : Nat := e.valueLabels.eraseDups.length

/-- The members of an enumeration whose values are its labels. -/
def membersOfLabels (labels : List String) : List (String × Literal) :=
  labels.map fun l => (l, .str l)

end Enumeration

/-- A user type. -/
inductive Definition where
  /-- A record type with a primary key. -/
  | entity (e : Entity)
  /-- A record type without a primary key. -/
  | struct (s : Struct)
  /-- An enumeration. -/
  | enumeration (e : Enumeration)
  deriving BEq, Inhabited

namespace Definition

/-- The name of a type. -/
def name : Definition → String
  | entity e => e.name
  | struct s => s.name
  | enumeration e => e.name

/-- The module that defines a type. -/
def moduleName : Definition → String
  | entity e => e.moduleName
  | struct s => s.moduleName
  | enumeration e => e.moduleName

/-- The fields of a type; an enumeration has none. -/
def fields : Definition → List Field
  | entity e => e.fields
  | struct s => s.fields
  | enumeration _ => []

/-- The documentation of a type. -/
def description : Definition → Option String
  | entity e => e.description
  | struct s => s.description
  | enumeration e => e.description

/-- The names that the fields of a type mention, in order. -/
def mentions (d : Definition) : List String := d.fields.flatMap fun f => f.type.mentions

/-- The name of the kind of a type. -/
def kind : Definition → String
  | entity _ => "entity"
  | struct _ => "struct"
  | enumeration _ => "enum"

/-- The entity, if this is one. -/
def entity? : Definition → Option Entity
  | entity e => some e
  | _ => none

/-- The struct, if this is one. -/
def struct? : Definition → Option Struct
  | struct s => some s
  | _ => none

/-- The enumeration, if this is one. -/
def enumeration? : Definition → Option Enumeration
  | enumeration e => some e
  | _ => none

end Definition

end SchemaCatalog
