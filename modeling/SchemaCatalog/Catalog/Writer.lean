import SchemaCatalog.Catalog
import SchemaCatalog.Json.Printer

/-!
# The canonical JSON text of a catalog

Members stand in the order in which the types declare them, so that equal catalogs have
equal texts. An alternative without content is written as its name, one with content as an
object with its name as the only member.
-/

namespace SchemaCatalog

/-- A number of 8 bits, or null for none. -/
def Json.optionalByte : Option UInt8 → Json
  | some n => .int n.toNat
  | none => .null

/-- A number of 32 bits, or null for none. -/
def Json.optionalWord : Option UInt32 → Json
  | some n => .int n.toNat
  | none => .null

/-- The document of a name style. -/
def NameStyle.toJson (s : NameStyle) : Json := .str s.toText

/-- The document of a name. -/
def QualifiedName.toJson (n : QualifiedName) : Json :=
  .obj [("namespace", .optional n.namespaceName), ("name", .str n.name), ("style", n.style.toJson)]

/-- The document of a data type. -/
def DataType.toJson : DataType → Json
  | boolean => .str "boolean"
  | integer width => .obj [("integer", .obj [("width", .int width.toNat)])]
  | real => .str "real"
  | double => .str "double"
  | float precision => .obj [("float", .obj [("precision", .optionalByte precision)])]
  | decimal precision scale =>
    .obj [("decimal",
      .obj [("precision", .optionalByte precision), ("scale", .optionalByte scale)])]
  | fixedBinary storage => .obj [("fixed_binary", .obj [("storage", .optionalWord storage)])]
  | variableBinary storage => .obj [("variable_binary", .obj [("storage", .optionalWord storage)])]
  | fixedCharacter limit => .obj [("fixed_character", .obj [("limit", .optionalWord limit)])]
  | variableCharacter limit => .obj [("variable_character", .obj [("limit", .optionalWord limit)])]
  | date => .str "date"
  | time precision zone =>
    .obj [("time", .obj [("precision", .optionalByte precision), ("with_time_zone", .bool zone)])]
  | timestamp precision zone =>
    .obj [("timestamp",
      .obj [("precision", .optionalByte precision), ("with_time_zone", .bool zone)])]
  | interval => .str "interval"
  | uuid => .str "uuid"
  | json => .str "json"
  | array element => .obj [("array", element.toJson)]
  | enumeration values => .obj [("enum", .obj [("values", .arr (values.map .str))])]
  | userDefined name => .obj [("user_defined", name.toJson)]

/-- The document of a column. -/
def Column.toJson (c : Column) : Json :=
  .obj [("name", .str c.name), ("data_type", c.dataType.toJson), ("nullable", .bool c.nullable),
    ("default", .optional c.default), ("identity", .bool c.identity),
    ("description", .optional c.description)]

/-- The document of a foreign key target. -/
def KeyReference.toJson (r : KeyReference) : Json :=
  .obj [("table", r.table.toJson), ("columns", .arr (r.columns.map .str))]

/-- The document of a constraint. -/
def Constraint.toJson : Constraint → Json
  | unique name columns =>
    .obj [("Unique", .obj [("name", .str name), ("columns", .arr (columns.map .str))])]
  | check name predicate =>
    .obj [("Check", .obj [("name", .str name), ("predicate", .str predicate)])]
  | foreignKey name columns reference =>
    .obj [("ForeignKey", .obj [("name", .str name), ("columns", .arr (columns.map .str)),
      ("reference", reference.toJson)])]
  | discriminated name columns references =>
    .obj [("DiscriminatedForeignKey", .obj [("name", .str name),
      ("columns", .arr (columns.map .str)), ("references", .arr (references.map (·.toJson)))])]

/-- The document of a table. -/
def Table.toJson (t : Table) : Json :=
  .obj [("name", t.name.toJson),
    ("columns", .obj (t.columns.entries.map fun e => (e.1, e.2.toJson))),
    ("primary_key", .arr (t.primaryKey.map .str)),
    ("constraints", .arr (t.constraints.map (·.toJson))),
    ("description", .optional t.description)]

/-- The document of a member of a composite type. -/
def CompositeMember.toJson (m : CompositeMember) : Json :=
  .obj [("name", .str m.name), ("data_type", m.dataType.toJson),
    ("description", .optional m.description)]

/-- The document of a composite type. -/
def CompositeType.toJson (t : CompositeType) : Json :=
  .obj [("name", t.name.toJson), ("members", .arr (t.members.map (·.toJson))),
    ("description", .optional t.description)]

/-- The document of an enumeration type. -/
def EnumerationType.toJson (t : EnumerationType) : Json :=
  .obj [("name", t.name.toJson), ("values", .arr (t.values.map .str))]

/-- The document of a namespace. -/
def Namespace.toJson (n : Namespace) : Json :=
  .obj [("name", .str n.name), ("enums", .arr (n.enums.map (·.toJson))),
    ("structs", .arr (n.structs.map (·.toJson))), ("tables", .arr (n.tables.map (·.toJson)))]

/-- The document of a catalog. -/
def Catalog.toJson (c : Catalog) : Json :=
  .obj [("namespaces", .arr (c.namespaces.map (·.toJson)))]

/-- The canonical text of a catalog. -/
def Catalog.render (c : Catalog) : String := c.toJson.print

end SchemaCatalog
