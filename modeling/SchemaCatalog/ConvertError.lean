import SchemaCatalog.DataType
import SchemaCatalog.FormationError
import SchemaCatalog.Native.Type

/-!
# Errors of a conversion

Errors are causes; `ConvertError.message` gives their text. An error that arises while a
definition is compiled is wrapped with the name of the definition.
-/

namespace SchemaCatalog

/-- Why settings cannot be used. -/
inductive ConfigurationCause where
  /-- A text names no mode of the given setting. -/
  | unknownMode (setting text : String)
  /-- The keys of lookup tables have a width that no integer type has. -/
  | keyWidth (width : UInt8)
  /-- A dialect does not take a mode of the given kind. -/
  | unsupportedMode (kind dialect mode : String)
  /-- A dialect does not take a form of upserts. -/
  | unsupportedUpsert (dialect form : String)
  /-- A cause that an application states. -/
  | stated (text : String)
  deriving DecidableEq, Repr, Inhabited

namespace ConfigurationCause

/-- The text of a cause. -/
def message : ConfigurationCause → String
  | unknownMode setting text => "unknown " ++ setting ++ ": " ++ text
  | keyWidth width => "enum key width must be 1, 2, 4 or 8 bytes; got " ++ toString width.toNat
  | unsupportedMode kind dialect mode =>
    "unsupported " ++ kind ++ " conversion mode for " ++ dialect ++ ": " ++ mode
  | unsupportedUpsert dialect form => "unsupported upsert syntax for " ++ dialect ++ ": " ++ form
  | stated text => text

end ConfigurationCause

/-- Why a type cannot be converted or sampled. -/
inductive UnsupportedCause where
  /-- The type needs an owner to be mapped. -/
  | notSimple
  /-- Annotations stand on a type that is not simple. -/
  | annotatedComposite
  /-- Annotations stand on a simple type that they cannot refine. -/
  | notRefinable
  /-- An annotation has no meaning for the data type reached so far. -/
  | inapplicable (refinement : Annotation) (target : DataType)
  /-- A literal type lists no value. -/
  | noLiteralValues
  /-- A list of values of an enumeration that is kept in a lookup table. -/
  | listOfEnumeration
  /-- A list of entities. -/
  | listOfEntity
  /-- A list of items that no array holds. -/
  | arrayItem (item : NativeType)
  /-- The values of an enumeration have two types. -/
  | mixedValues (first second : NativeType)
  /-- The primary key field is not among the fields. -/
  | missingKeyField (field : String)
  /-- An enumeration stands where a record type is needed. -/
  | notRecord
  /-- An enumeration needs both an enumeration type and a lookup table of one name. -/
  | enumerationTwice
  /-- A type stands where an entity is needed. -/
  | notEntity
  /-- A record beyond the size of the sample is asked for. -/
  | beyondSample (index size : Nat)
  /-- Keys of the type cannot be drawn. -/
  | keyNotDrawn
  /-- An enumeration has no member to draw. -/
  | noMembers
  /-- A union has no member to draw from. -/
  | emptyUnion
  /-- Values of an opaque type cannot be drawn. -/
  | customNotDrawn
  /-- A value is nested deeper than the sample allows. -/
  | nestedTooDeep
  /-- The type of a key refers back to the key itself. -/
  | cyclicKey
  /-- A cause that an application states. -/
  | stated (text : String)
  deriving DecidableEq, Inhabited

namespace UnsupportedCause

/-- The text of a cause. -/
def message : UnsupportedCause → String
  | notSimple => "not a simple type"
  | annotatedComposite => "annotations apply only to simple types"
  | notRefinable => "unsupported annotated type"
  | inapplicable refinement target =>
    "annotation `" ++ refinement.display ++ "` does not apply to `" ++ target.toSql ++ "`"
  | noLiteralValues => "literal type without values"
  | listOfEnumeration =>
    "use a join table; cannot convert list of enumeration type to SQL array"
  | listOfEntity => "use a join table; cannot convert list of entity type to SQL array"
  | arrayItem item => "unsupported array item type `" ++ item.display ++ "`"
  | mixedValues first second =>
    "inconsistent enumeration value types: " ++ first.display ++ ", " ++ second.display
  | missingKeyField field => "primary key field `" ++ field ++ "` is not declared"
  | notRecord => "expected a struct or entity type"
  | enumerationTwice =>
    "enumeration is used both as a native enum type and as an extensible enumeration"
  | notEntity => "not an entity type; it has no primary key"
  | beyondSample index size =>
    "record index " ++ toString index ++ " exceeds sample size " ++ toString size
  | keyNotDrawn => "unsupported primary key type"
  | noMembers => "enumeration without members"
  | emptyUnion => "union type without members"
  | customNotDrawn => "no random value generator for opaque type"
  | nestedTooDeep => "value nested too deep"
  | cyclicKey => "the type of a primary key refers to the key itself"
  | stated text => text

end UnsupportedCause

/-- Why a catalog cannot be formed. -/
inductive ConvertError where
  /-- The settings cannot be used. -/
  | configuration (cause : ConfigurationCause)
  /-- A type has no conversion. -/
  | unsupported (subject : String) (cause : UnsupportedCause)
  /-- The members of a union of entities have different key types. -/
  | inconsistentKeys (union keyTypes : String)
  /-- The members of a union have no common data type. -/
  | incompatibleUnion (union : String) (source : FormationError)
  /-- Two modules have one target namespace; the empty name is the default namespace. -/
  | duplicateTarget (target : String)
  /-- A module has no target namespace. -/
  | unmappedModule (moduleName : String)
  /-- A name is not registered. -/
  | unknownType (name : String)
  /-- A name is registered with another definition. -/
  | duplicateType (name : String)
  /-- Structs contain each other. -/
  | circular (name : String)
  /-- A catalog object breaks an invariant. -/
  | formation (source : FormationError)
  /-- An error that arose in an entity or struct. -/
  | within (owner : String) (source : ConvertError)
  deriving DecidableEq, Inhabited

namespace ConvertError

/-- The text of an error. -/
def message : ConvertError → String
  | configuration cause => "configuration error: " ++ cause.message
  | unsupported subject cause => "unsupported type `" ++ subject ++ "`: " ++ cause.message
  | inconsistentKeys union keyTypes =>
    "inconsistent primary key types in union `" ++ union ++ "`: " ++ keyTypes
  | incompatibleUnion union _ => "incompatible union member types in `" ++ union ++ "`"
  | duplicateTarget target => "namespace `" ++ target ++ "` is the target of more than one module"
  | unmappedModule moduleName => "module `" ++ moduleName ++ "` has no namespace mapping"
  | unknownType name => "unknown type `" ++ name ++ "`"
  | duplicateType name =>
    "type `" ++ name ++ "` is already registered with a different definition"
  | circular name => "circular dependency among struct types: " ++ name
  | formation source => source.message
  | within owner source => "error processing entity `" ++ owner ++ "`: " ++ source.message

/-- The error below all wrappings. -/
def root : ConvertError → ConvertError
  | within _ source => source.root
  | e => e

/-- The name of the category of an error, which is that of the error below all wrappings. -/
def category : ConvertError → String
  | configuration _ => "Configuration"
  | unsupported _ _ => "UnsupportedType"
  | inconsistentKeys _ _ => "InconsistentKeyTypes"
  | incompatibleUnion _ _ => "IncompatibleUnionTypes"
  | duplicateTarget _ => "DuplicateNamespaceTarget"
  | unmappedModule _ => "UnmappedModule"
  | unknownType _ => "UnknownType"
  | duplicateType _ => "DuplicateType"
  | circular _ => "CircularDependency"
  | formation _ => "Formation"
  | within _ source => source.category

/-- The innermost definition in which an error arose. -/
def owner? : ConvertError → Option String
  | within owner source => source.owner? <|> some owner
  | _ => none

/-- The texts of the errors that an error wraps, outermost first. -/
def causes : ConvertError → List String
  | within _ source => source.message :: source.causes
  | incompatibleUnion _ source => [source.message]
  | _ => []

/-- Wraps the error of a result with the definition in which it arose. -/
def nameOwner {α : Type} (owner : String) (r : Except ConvertError α) : Except ConvertError α :=
  r.mapError (within owner)

end ConvertError

end SchemaCatalog
