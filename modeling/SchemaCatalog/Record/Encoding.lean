import SchemaCatalog.DataType
import SchemaCatalog.Native.Type
import SchemaCatalog.Value

/-!
# How values are stored in columns

The encoding of a column is chosen from its data type and the native type of its field.
Encoding a value of a shape that does not fit is an error, which names what is expected.
-/

namespace SchemaCatalog

/-- How the values of a column are stored. -/
inductive ValueEncoding where
  /-- As they are. -/
  | passthrough
  /-- Identifiers and addresses as their octets. -/
  | binary
  /-- Truth values as zero and one. -/
  | integer
  /-- Lists and documents as JSON text. -/
  | jsonText
  deriving DecidableEq, Repr, Inhabited

namespace ValueEncoding

/-- The name of an encoding. -/
def toText : ValueEncoding → String
  | passthrough => "passthrough"
  | binary => "binary"
  | integer => "integer"
  | jsonText => "json_text"

/-- Whether the octets of a native type can be stored. -/
def hasOctets : NativeType → Bool
  | .primitive .uuid | .primitive .ipv4 | .primitive .ipv6 => true
  | _ => false

/-- Whether values of a native type are stored as text when the column holds characters. -/
def isDocument : NativeType → Bool
  | .list _ | .primitive .json | .ref _ => true
  | _ => false

/-- Whether a type of a dialect holds JSON documents. -/
def isJsonName (name : String) : Bool := name.toLower = "json" || name.toLower = "jsonb"

/-- The encoding of a column of a data type for a field of a native type. -/
def forColumn (dataType : DataType) (fieldType : NativeType) : ValueEncoding :=
  let t := fieldType.unadorned
  if dataType.isBinary && hasOctets t then binary
  else
    match dataType with
    | .integer _ => if t = .primitive .bool then integer else passthrough
    | .json => jsonText
    | .userDefined name => if isJsonName name.localName then jsonText else passthrough
    | d => if d.isCharacter && isDocument t then jsonText else passthrough

end ValueEncoding

/-- What a column expects of a value. -/
inductive Expectation where
  /-- Octets. -/
  | binaryData
  /-- An integer or truth value. -/
  | integer
  /-- A list, document or text. -/
  | jsonDocument
  deriving DecidableEq, Repr, Inhabited

/-- The name of an expectation. -/
def Expectation.display : Expectation → String
  | binaryData => "binary data"
  | integer => "integer"
  | jsonDocument => "JSON document"

namespace Value

/-- The integer of a truth value. -/
def ofBool (b : Bool) : Value := int (if b then 1 else 0)

/-- A member of an enumeration as stored: its value, whatever the encoding, except that it is
no binary data. -/
def encodeMember : ValueEncoding → Literal → Except Expectation Value
  | .integer, .bool b => .ok (ofBool b)
  | .binary, _ => .error .binaryData
  | _, .str s => .ok (text s)
  | _, .int i => .ok (int i)
  | _, .bool b => .ok (bool b)

/-- A value as stored. -/
def encode (e : ValueEncoding) (v : Value) : Except Expectation Value :=
  match v with
  | member l => encodeMember e l
  | v =>
    match e with
    | .passthrough => .ok v
    | .binary =>
      match v with
      | uuid u => .ok (bytes u.octets.toList)
      | ip a => .ok (bytes a.octets)
      | bytes bs => .ok (bytes bs)
      | _ => .error .binaryData
    | .integer =>
      match v with
      | bool b => .ok (ofBool b)
      | int i => .ok (int i)
      | _ => .error .integer
    | .jsonText =>
      match v with
      | list vs => .ok (text (list vs).toJson.print)
      | json j => .ok (text j.print)
      | text s => .ok (text s)
      | _ => .error .jsonDocument

end Value

end SchemaCatalog
