import SchemaCatalog.Catalog
import SchemaCatalog.Json.Reader

/-!
# Reading a catalog from JSON text

The reader accepts the canonical text of every catalog, with blanks, members in any order
and unknown members besides. It does not check that keys and names differ; a column name
that occurs again keeps its first place and takes the last value.
-/

namespace SchemaCatalog

open Json

/-- Reads a name style. -/
def NameStyle.reader : Reader NameStyle := Reader.unitAlternative NameStyle.ofText?

/-- Reads a name. -/
def QualifiedName.reader : Reader QualifiedName :=
  Reader.record ["namespace", "name", "style"] fun m => do
    let namespaceName ← m.optional "namespace" Reader.text
    let name ← m.required "name" Reader.text
    let style ← m.required "style" NameStyle.reader
    return ⟨namespaceName, name, style⟩

namespace DataType

/-- The data types without parameters, by name. -/
def plain? : String → Option DataType
  | "boolean" => some boolean
  | "real" => some real
  | "double" => some double
  | "date" => some date
  | "interval" => some interval
  | "uuid" => some uuid
  | "json" => some json
  | _ => none

/-- Reads one limit and makes a data type of it. -/
def limitReader (name : String) (f : Option UInt32 → DataType) : Reader DataType :=
  Reader.record [name] fun m => (m.optional name Reader.word).map f

/-- Reads a precision and a time zone and makes a data type of them. -/
def temporalReader (f : Option UInt8 → Bool → DataType) : Reader DataType :=
  Reader.record ["precision", "with_time_zone"] fun m => do
    let precision ← m.optional "precision" Reader.byte
    let zone ← m.required "with_time_zone" Reader.bool
    return f precision zone

/-- Reads the parameters of a named data type; the element type of an array is read by the
given reader. -/
def parameterReader (element : Reader DataType) : String → Reader DataType
  | "integer" => Reader.record ["width"] fun m => (m.required "width" Reader.byte).map integer
  | "float" => Reader.record ["precision"] fun m => (m.optional "precision" Reader.byte).map float
  | "decimal" => Reader.record ["precision", "scale"] fun m => do
    let precision ← m.optional "precision" Reader.byte
    let scale ← m.optional "scale" Reader.byte
    return decimal precision scale
  | "fixed_binary" => limitReader "storage" fixedBinary
  | "variable_binary" => limitReader "storage" variableBinary
  | "fixed_character" => limitReader "limit" fixedCharacter
  | "variable_character" => limitReader "limit" variableCharacter
  | "time" => temporalReader time
  | "timestamp" => temporalReader timestamp
  | "array" => fun n v => (element n v).map array
  | "enum" => Reader.record ["values"] fun m =>
    (m.required "values" (Reader.list Reader.text)).map enumeration
  | "user_defined" => fun n v => (QualifiedName.reader n v).map userDefined
  | _ => fun _ _ => none

/-- Reads a data type. -/
def reader : Reader DataType
  | 0, v => Reader.unitAlternative plain? 0 v
  | n + 1, v =>
    match Reader.unitAlternative plain? (n + 1) v with
    | some t => some t
    | none =>
      match v with
      | .obj [(some name, content)] => parameterReader (fun _ => reader n) name n content
      | _ => none

end DataType

/-- Reads a column. -/
def Column.reader : Reader Column :=
  Reader.record ["name", "data_type", "nullable", "default", "identity", "description"] fun m => do
    let name ← m.required "name" Reader.text
    let dataType ← m.required "data_type" DataType.reader
    let nullable ← m.required "nullable" Reader.bool
    let default ← m.optional "default" Reader.text
    let identity ← m.required "identity" Reader.bool
    let description ← m.optional "description" Reader.text
    return ⟨name, dataType, nullable, default, identity, description⟩

/-- Reads a foreign key target. -/
def KeyReference.reader : Reader KeyReference :=
  Reader.record ["table", "columns"] fun m => do
    let table ← m.required "table" QualifiedName.reader
    let columns ← m.required "columns" (Reader.list Reader.text)
    return ⟨table, columns⟩

/-- Reads a constraint. -/
def Constraint.reader : Reader Constraint :=
  Reader.alternative fun
    | "Unique" => Reader.record ["name", "columns"] fun m => do
      let name ← m.required "name" Reader.text
      let columns ← m.required "columns" (Reader.list Reader.text)
      return unique name columns
    | "Check" => Reader.record ["name", "predicate"] fun m => do
      let name ← m.required "name" Reader.text
      let predicate ← m.required "predicate" Reader.text
      return check name predicate
    | "ForeignKey" => Reader.record ["name", "columns", "reference"] fun m => do
      let name ← m.required "name" Reader.text
      let columns ← m.required "columns" (Reader.list Reader.text)
      let reference ← m.required "reference" KeyReference.reader
      return foreignKey name columns reference
    | "DiscriminatedForeignKey" => Reader.record ["name", "columns", "references"] fun m => do
      let name ← m.required "name" Reader.text
      let columns ← m.required "columns" (Reader.list Reader.text)
      let references ← m.required "references" (Reader.list KeyReference.reader)
      return discriminated name columns references
    | _ => fun _ _ => none

/-- Reads a table. -/
def Table.reader : Reader Table :=
  Reader.record ["name", "columns", "primary_key", "constraints", "description"] fun m => do
    let name ← m.required "name" QualifiedName.reader
    let columns ← m.required "columns" (Reader.entries Column.reader)
    let primaryKey ← m.required "primary_key" (Reader.list Reader.text)
    let constraints ← m.required "constraints" (Reader.list Constraint.reader)
    let description ← m.optional "description" Reader.text
    return ⟨name, OrderedMap.ofList columns, primaryKey, constraints, description⟩

/-- Reads a member of a composite type. -/
def CompositeMember.reader : Reader CompositeMember :=
  Reader.record ["name", "data_type", "description"] fun m => do
    let name ← m.required "name" Reader.text
    let dataType ← m.required "data_type" DataType.reader
    let description ← m.optional "description" Reader.text
    return ⟨name, dataType, description⟩

/-- Reads a composite type. -/
def CompositeType.reader : Reader CompositeType :=
  Reader.record ["name", "members", "description"] fun m => do
    let name ← m.required "name" QualifiedName.reader
    let members ← m.required "members" (Reader.list CompositeMember.reader)
    let description ← m.optional "description" Reader.text
    return ⟨name, members, description⟩

/-- Reads an enumeration type. -/
def EnumerationType.reader : Reader EnumerationType :=
  Reader.record ["name", "values"] fun m => do
    let name ← m.required "name" QualifiedName.reader
    let values ← m.required "values" (Reader.list Reader.text)
    return ⟨name, values⟩

/-- Reads a namespace. -/
def Namespace.reader : Reader Namespace :=
  Reader.record ["name", "enums", "structs", "tables"] fun m => do
    let name ← m.required "name" Reader.text
    let enums ← m.required "enums" (Reader.list EnumerationType.reader)
    let structs ← m.required "structs" (Reader.list CompositeType.reader)
    let tables ← m.required "tables" (Reader.list Table.reader)
    return ⟨name, enums, structs, tables⟩

/-- Reads a catalog. -/
def Catalog.reader : Reader Catalog :=
  Reader.record ["namespaces"] fun m =>
    (m.required "namespaces" (Reader.list Namespace.reader)).map Catalog.mk

/-- The catalog of a JSON text. -/
def Catalog.parse? (text : String) : Option Catalog := Catalog.reader.read? text

end SchemaCatalog
