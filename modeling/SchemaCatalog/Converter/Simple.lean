import SchemaCatalog.Converter

/-!
# Data types of simple native types

A simple type is mapped without regard to its owner. A substitution of the settings comes
first. Annotations refine the data type of the unadorned type, the innermost first; the data
type that they start from is a provisional one, and types without a provisional data type
take no annotations other than ignored ones.
-/

namespace SchemaCatalog.Converter

/-- The greatest length of the labels in lookup tables. -/
def labelLimit : UInt32 := 64

/-- The native type of labels. -/
def labelType : NativeType := NativeType.boundedString labelLimit

/-- The data type of a narrow integer: a type of the dialect, or a standard one that holds
it. -/
def narrowInteger (o : Options) (extra : String) (width : UInt8) : DataType :=
  if o.extraNumericTypes then .native extra else .integer width

/-- The data type of a primitive that has no substitute. -/
def standardType (o : Options) : Primitive → DataType
  | .bool => .boolean
  | .int => .integer 8
  | .int8 => narrowInteger o "int1" 2
  | .int16 => .integer 2
  | .int32 => .integer 4
  | .int64 => .integer 8
  | .uint8 => narrowInteger o "uint1" 2
  | .uint16 => narrowInteger o "uint2" 2
  | .uint32 => narrowInteger o "uint4" 4
  | .uint64 => narrowInteger o "uint8" 8
  | .float | .float64 => .double
  | .float32 => .real
  | .string => .text
  | .decimal => .decimal none none
  | .dateTime => .timestamp none false
  | .date => .date
  | .time => .time none false
  | .timeDelta => .interval
  | .uuid => .uuid
  | .json => .json
  | .ipv4 => .binary 4
  | .ipv6 => .binary 16

/-- The data type of a primitive. -/
def mapPrimitive (c : Converter) (p : Primitive) : DataType :=
  (c.options.substitute? (.primitive p)).getD (standardType c.options p)

/-! ### Annotations -/

/-- The data type that the annotations of a type without substitute start from. -/
def provisionalType? : NativeType → Option DataType
  | .primitive .string => some .text
  | .primitive .float => some (.float none)
  | .primitive .decimal => some (.decimal none none)
  | .primitive .dateTime => some (.timestamp none false)
  | .primitive .time => some (.time none false)
  | _ => none

/-- Refines a data type by an annotation, if the annotation applies to it. -/
def applyAnnotation? : DataType → Annotation → Option DataType
  | .variableCharacter _, .maxLength n => some (.variableCharacter (some n))
  | .fixedCharacter _, .maxLength n => some (.fixedCharacter (some n))
  | .float _, .precision s _ => some (.float (some s))
  | .decimal _ _, .precision s f => some (.decimal (some s) f)
  | .time _ zone, .timePrecision n => some (.time (some n) zone)
  | .timestamp _ zone, .timePrecision n => some (.timestamp (some n) zone)
  | .time p _, .timeZone => some (.time p true)
  | .timestamp p _, .timeZone => some (.timestamp p true)
  | .variableBinary _, .storage n => some (.variableBinary (some n))
  | .fixedBinary _, .storage n => some (.fixedBinary (some n))
  | _, _ => none

/-- Refines the data type of a type by annotations from the left. -/
def refine (o : Options) (subject : NativeType) (target : Option DataType) :
    List Annotation → Except ConvertError (Option DataType)
  | [] => .ok target
  | a :: as =>
    if o.skips a then refine o subject target as
    else
      match target with
      | none => .error (.unsupported subject.display .notRefinable)
      | some d =>
        match applyAnnotation? d a with
        | some d' => refine o subject (some d') as
        | none => .error (.unsupported subject.display (.inapplicable a d))

/-- The data type of a simple type, where that of an enumeration is given. -/
def mapSimpleWith (c : Converter) (ofEnum : Enumeration → Except ConvertError DataType)
    (t : NativeType) : Except ConvertError DataType :=
  let plain (u : NativeType) : Except ConvertError DataType :=
    match u with
    | .primitive p => .ok (c.mapPrimitive p)
    | u =>
      match c.options.substitute? u with
      | some d => .ok d
      | none =>
        match c.registry.enumeration? u with
        | some e => ofEnum e
        | none => .error (.unsupported u.display .notSimple)
  match c.options.substitute? t with
  | some d => .ok d
  | none =>
    match t with
    | .annotated _ _ => do
      let base := t.unadorned
      let start := c.options.substitute? base <|> provisionalType? base
      match ← refine c.options t start t.annotations with
      | some d => return d
      | none => plain base
    | t => plain t

/-! ### Enumerations -/

/-- The type of the values of an enumeration, all of which must have one type; `found` is the
type of the values so far. -/
def commonValueType (name : String) (found : Option NativeType) :
    List Literal → Except ConvertError (Option NativeType)
  | [] => .ok found
  | v :: vs =>
    match found with
    | some t =>
      if t = v.nativeType then commonValueType name found vs
      else .error (.unsupported name (.mixedValues t v.nativeType))
    | none => commonValueType name (some v.nativeType) vs

/-- The native type of the values of an enumeration: strings have the type of labels. -/
def enumValueType (e : Enumeration) : Except ConvertError NativeType := do
  match ← commonValueType e.name none e.values with
  | none | some (.primitive .string) => return labelType
  | some t => return t

/-- Whether an enumeration has too few values for an enumeration type, so that it is stored
as an extensible one. -/
def isSmall (c : Converter) (e : Enumeration) : Bool :=
  (c.options.enumMode = .type || c.options.enumMode = .inlined) && e.distinctCount < 2

/-- The native type of the keys of lookup tables. -/
def enumKeyPrimitive (o : Options) : Primitive :=
  match o.enumKeyWidth.toNat with
  | 1 => .int8
  | 2 => .int16
  | 8 => .int64
  | _ => .int32

/-- The data type of the keys of lookup tables. -/
def enumKeyType (c : Converter) : DataType := c.mapPrimitive (enumKeyPrimitive c.options)

/-- The data type of the values of an enumeration. -/
def mapEnumValues (c : Converter) (e : Enumeration) : Except ConvertError DataType := do
  let t ← enumValueType e
  c.mapSimpleWith (fun f => .error (.unsupported f.name .notSimple)) t

/-- The data type of an enumeration. -/
def mapEnum (c : Converter) (e : Enumeration) : Except ConvertError DataType :=
  if c.isSmall e then .ok c.enumKeyType
  else
    match c.options.enumMode with
    | .type => do
      let n ← c.qualifiedName e.moduleName e.name
      return .userDefined n
    | .inlined => .ok (.enumeration e.valueLabels)
    | .relation => .ok c.enumKeyType
    | .check => c.mapEnumValues e

/-- The data type of a simple type. -/
def mapSimple (c : Converter) (t : NativeType) : Except ConvertError DataType :=
  c.mapSimpleWith c.mapEnum t

end SchemaCatalog.Converter
