import SchemaCatalog.Converter.Simple
import SchemaCatalog.DataType.Widening

/-!
# Data types of fields

The type of a field may be any native type. A reference to an entity is mapped as the
entity's key, so that mapping goes from definition to definition along keys: `mapMemberWith`
recurses on the type and leaves keys to a function, and `mapMember` follows keys from entity
to entity, each key type at most once on a path. A key type that refers back to itself is an
error.
-/

namespace SchemaCatalog.Converter

/-- The data type of a JSON document. -/
def jsonType (c : Converter) : DataType := c.mapPrimitive .json

/-- The length of a string as a limit of a character type, at least one. -/
def literalLimit (s : String) : UInt32 := max s.length.toUInt32 1

/-- The data type of a literal type: a fixed character type when all values are strings, else
the common type of the values. -/
def mapLiteral (c : Converter) (t : NativeType) (values : List Literal) :
    Except ConvertError DataType :=
  if values.isEmpty then .error (.unsupported t.display .noLiteralValues)
  else
    let types :=
      if values.all Literal.isString then
        values.map fun v => DataType.fixedChar (literalLimit v.label)
      else
        values.map fun v =>
          match v with
          | .str _ => c.mapPrimitive .string
          | .int _ => c.mapPrimitive .int
          | .bool _ => c.mapPrimitive .bool
    (DataType.common? types).mapError (.incompatibleUnion t.display)

/-- The name of the composite or opaque type of an item of a list. -/
def itemName (c : Converter) (t item : NativeType) : Except ConvertError QualifiedName :=
  match item with
  | .ref name | .forward name => do
    let d ← c.registry.resolve name
    c.qualifiedName d.moduleName d.name
  | .custom moduleName name => c.qualifiedName moduleName name
  | _ => .error (.unsupported t.display (.arrayItem item))

/-- The data type of a list of simple items as an array. -/
def mapSimpleArray (c : Converter) (t item : NativeType) : Except ConvertError DataType :=
  match c.registry.enumeration? item.unadorned with
  | some e =>
    if c.options.enumMode = .relation then .error (.unsupported t.display .listOfEnumeration)
    else if c.isSmall e then (c.mapEnumValues e).map .array
    else (c.mapSimple item).map .array
  | none => (c.mapSimple item).map .array

/-- The data type of a list. -/
def mapList (c : Converter) (t item : NativeType) : Except ConvertError DataType :=
  if c.registry.isSimple item then
    match c.options.arrayMode with
    | .array => c.mapSimpleArray t item
    | .json => .ok c.jsonType
  else if (c.registry.entity? item).isSome then .error (.unsupported t.display .listOfEntity)
  else do
    let n ← c.itemName t item
    match c.options.arrayMode with
    | .array => return .array (.userDefined n)
    | .json => return c.jsonType

/-- The different key types of the entities that the members of a union refer to. -/
def keyTypes (c : Converter) (members : List NativeType) :
    Except ConvertError (List NativeType) := do
  let keys ← (members.filterMap c.registry.entity?).mapM Registry.keyField
  return (keys.map Field.type).eraseDups

/-- The data type of a union of entities, all of which must have one key type. -/
def mapDiscriminated (c : Converter) (ofKey : NativeType → Except ConvertError DataType)
    (t : NativeType) (members : List NativeType) : Except ConvertError DataType := do
  match ← c.keyTypes members with
  | [common] => ofKey common
  | keys => .error (.inconsistentKeys t.display (", ".intercalate (keys.map NativeType.display)))

/-- The data type of a reference: that of the enumeration, of the entity's key, or of the
struct. -/
def mapReference (c : Converter) (ofKey : NativeType → Except ConvertError DataType)
    (name : String) : Except ConvertError DataType := do
  match ← c.registry.resolve name with
  | .enumeration e => c.mapEnum e
  | .entity e => do
    let key ← Registry.keyField e
    ofKey key.type
  | .struct s =>
    match c.options.structMode with
    | .type => do
      let n ← c.qualifiedName s.moduleName s.name
      return .userDefined n
    | .json => return c.jsonType

mutual

/-- The data type of the type of a field, where that of the key of an entity is given by a
function. -/
def mapMemberWith (c : Converter) (ofKey : NativeType → Except ConvertError DataType)
    (t : NativeType) : Except ConvertError DataType :=
  match c.options.substitute? t with
  | some d => .ok d
  | none =>
    match t with
    | .primitive p => .ok (c.mapPrimitive p)
    | .annotated base as =>
      if c.registry.isSimple base then c.mapSimple (.annotated base as)
      else if as.all c.options.skips then c.mapMemberWith ofKey base
      else .error (.unsupported (NativeType.annotated base as).display .annotatedComposite)
    | .ref name => c.mapReference ofKey name
    | .forward name => c.mapReference ofKey name
    | .literal values => c.mapLiteral (.literal values) values
    | .list item => c.mapList (.list item) item
    | .union members =>
      if (c.registry.extensible? (.union members)).isSome then .ok c.enumKeyType
      else if !members.isEmpty && members.all fun m => (c.registry.entity? m).isSome then
        c.mapDiscriminated ofKey (.union members) members
      else do
        let types ← c.mapMembersWith ofKey members
        (DataType.common? types).mapError (.incompatibleUnion (NativeType.union members).display)
    | .custom moduleName name => do
      let n ← c.qualifiedName moduleName name
      return .userDefined n

/-- The data types of the members of a union. -/
def mapMembersWith (c : Converter) (ofKey : NativeType → Except ConvertError DataType)
    (ts : List NativeType) : Except ConvertError (List DataType) :=
  match ts with
  | [] => .ok []
  | t :: ts => do
    let d ← c.mapMemberWith ofKey t
    let ds ← c.mapMembersWith ofKey ts
    return d :: ds

end

/-- The key types of a list other than one of them. -/
def otherKeys (key : NativeType) (keys : List NativeType) : List NativeType :=
  keys.filter fun k => k ≠ key

theorem length_otherKeys_lt {key : NativeType} {keys : List NativeType} (h : key ∈ keys) :
    (otherKeys key keys).length < keys.length :=
  List.length_filter_lt_length_iff_exists.mpr ⟨key, h, by simp⟩

/-- The data type of the type of a field, following keys of the given types only, and each of
these at most once on a path. -/
def mapMemberAlong (c : Converter) (keys : List NativeType) (t : NativeType) :
    Except ConvertError DataType :=
  c.mapMemberWith
    (fun key =>
      if _h : key ∈ keys then c.mapMemberAlong (otherKeys key keys) key
      else .error (.unsupported key.display .cyclicKey))
    t
termination_by keys.length
decreasing_by exact length_otherKeys_lt _h

/-- The data type of the type of a field. -/
def mapMember (c : Converter) (t : NativeType) : Except ConvertError DataType :=
  c.mapMemberAlong c.registry.keyTypes t

end SchemaCatalog.Converter
