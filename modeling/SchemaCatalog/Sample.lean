import SchemaCatalog.Record
import SchemaCatalog.Registry
import SchemaCatalog.Sample.Draws

/-!
# Random records

A `Sample` draws records of an entity whose fields have values of their types. Integer keys
are a random permutation of the numbers below the size of the sample, so that no two records
have the same key. Values of structs are JSON documents, and a reference to an entity holds a
value of the type of its key. Structs and keys are followed to the depth of the sample, which may be
any number.
-/

namespace SchemaCatalog

/-- What records are drawn from. -/
structure Sample where
  /-- The definitions. -/
  registry : Registry
  /-- The end of the range of dates and times. -/
  latest : Timestamp
  /-- The integer keys of the records in order. -/
  keys : List Nat
  /-- How many keys and structs are followed below each other before the drawing is given up. -/
  depth : Nat

/-- A computation that draws and can fail. -/
abbrev Sampler (α : Type) := StateT Draws (Except ConvertError) α

namespace Sampler

/-- A draw that cannot fail. -/
def lift {α : Type} (x : Draw α) : Sampler α := fun d => .ok (x d)

/-- A failure. -/
def fail {α : Type} (e : ConvertError) : Sampler α := fun _ => .error e

/-- A computation whose failure names the entity. -/
def nameOwner {α : Type} (owner : String) (x : Sampler α) : Sampler α := fun d =>
  ConvertError.nameOwner owner (x d)

/-- The results of a repeated computation. -/
def replicate {α : Type} : Nat → Sampler α → Sampler (List α)
  | 0, _ => return []
  | n + 1, x => do
    let a ← x
    let as ← replicate n x
    return a :: as

end Sampler

namespace Sample

/-- The greatest length of a string without an annotation of its length. -/
def stringLimit : Nat := 1024

/-- The greatest number of items of a list. -/
def itemLimit : Nat := 5

/-- The depth of a sample for which no other one is chosen. -/
def defaultDepth : Nat := 10000

/-- The beginning of the range of dates and times. -/
def earliest : Timestamp := ⟨⟨Date.dayOf 1982 10 23⟩, ⟨9000, 0⟩⟩

/-- The number of integer keys for a number of records. The keys are the signed words from zero on
that are below the number as a signed word, so that a number beyond the signed words has none. -/
def keyCount (count : Nat) : Nat := (Int64.ofNat count).toInt.toNat

/-- A sample of a number of records. -/
def create (registry : Registry) (latest : Timestamp) (count : Nat)
    (depth : Nat := defaultDepth) : Draw Sample := do
  let keys ← Draw.shuffle (List.range (keyCount count))
  return ⟨registry, latest, keys, depth⟩

/-- The number of records. -/
def count (s : Sample) : Nat := s.keys.length

/-! ### Values -/

/-- An integer value. -/
def intValue (n : Nat) : Value := .int (Int64.ofNat n)

/-- An integer from zero to a bound. -/
def intUpTo (greatest : Nat) : Draw Value := do
  let n ← Draw.between 0 greatest
  return intValue n

/-- A value of a primitive type. -/
def primitive (s : Sample) : Primitive → Draw Value
  | .bool => return .bool (← Draw.coin)
  | .int8 => intUpTo 127
  | .int16 => intUpTo 32767
  | .uint8 => intUpTo 255
  | .uint16 => intUpTo 65535
  | .int | .int32 | .int64 | .uint32 | .uint64 => intUpTo 1000000
  | .float | .float32 | .float64 => return .float (← Draw.unitFloat)
  | .decimal => return .decimal (← Draw.cents)
  | .string => return .text (← Draw.alphanumeric 0 stringLimit)
  | .dateTime => return .timestamp (← Draw.timestamp earliest s.latest)
  | .date => return .date (← Draw.date earliest.date s.latest.date)
  | .time => return .time (← Draw.timeOfDay)
  | .timeDelta => return .interval (Interval.ofSeconds (← Draw.below 86400))
  | .uuid => return .uuid (← Draw.uuid)
  | .json => return .json (.obj [("value", .int (← Draw.below 1000))])
  | .ipv4 => return .ip (← Draw.ipv4)
  | .ipv6 => return .ip (← Draw.ipv6)

/-- The last limit on the length of a string among annotations. -/
def lengthLimit? (annotations : List Annotation) : Option UInt32 :=
  annotations.reverse.findSome? fun
    | .maxLength n => some n
    | _ => none

/-- The value of a literal. -/
def literalValue : Literal → Value
  | .str s => .text s
  | .int i => .int i
  | .bool b => .bool b

/-- A member of an enumeration, for a type that stands for it. -/
def enumMember (t : NativeType) (e : Enumeration) : Sampler Value := do
  match ← Sampler.lift (Draw.enumValue? e) with
  | some v => return .member v
  | none => Sampler.fail (.unsupported t.display .noMembers)

/-- The value of a field of a type; a field that may be absent is so in half of all cases. -/
def fieldWith (ofType : NativeType → Sampler Value) (f : Field) : Sampler Value := do
  if f.nullable then
    if ← Sampler.lift Draw.coin then ofType f.type else return .null
  else ofType f.type

/-- The document of a struct. -/
def structDocument (ofType : NativeType → Sampler Value) (s : Struct) : Sampler Value := do
  let members ← s.fields.mapM fun f => do
    let v ← fieldWith ofType f
    return (f.name, v.toJson)
  return .json (Json.object members)

/-- A value of the type that a reference refers to. -/
def referenceWith (s : Sample) (ofType : NativeType → Sampler Value) (t : NativeType)
    (name : String) : Sampler Value :=
  match s.registry.get? name with
  | none => Sampler.fail (.unknownType name)
  | some (.enumeration e) => enumMember t e
  | some (.entity e) =>
    match Registry.keyField e with
    | .ok key => ofType key.type
    | .error err => Sampler.fail err
  | some (.struct d) => structDocument ofType d

mutual

/-- A value of a type, where those of the types of keys and of fields of structs are drawn by
a function. -/
def valueWith (s : Sample) (ofType : NativeType → Sampler Value) : NativeType → Sampler Value
  | .primitive p => Sampler.lift (s.primitive p)
  | .annotated base as =>
    match lengthLimit? as with
    | some n =>
      if base.unadorned = .primitive .string then
        Sampler.lift do
          let text ← Draw.alphanumeric 0 n.toNat
          return .text text
      else s.valueWith ofType base
    | none => s.valueWith ofType base
  | .ref name => s.referenceWith ofType (.ref name) name
  | .forward name => s.referenceWith ofType (.forward name) name
  | .literal values => do
    match ← Sampler.lift (Draw.choose? values) with
    | some v => return literalValue v
    | none => Sampler.fail (.unsupported (NativeType.literal values).display .noLiteralValues)
  | .list item =>
    match s.registry.enumeration? item.unadorned with
    | some e => Sampler.lift do
      let vs ← Draw.enumSubset e itemLimit
      return .list (vs.map .member)
    | none => do
      let n ← Sampler.lift (Draw.between 0 itemLimit)
      let vs ← Sampler.replicate n (s.valueWith ofType item)
      return .list vs
  | .union members =>
    match s.registry.extensible? (.union members) with
    | some e => enumMember (.union members) e
    | none =>
      if members.isEmpty then
        Sampler.fail (.unsupported (NativeType.union members).display .emptyUnion)
      else do
        let i ← Sampler.lift (Draw.below members.length)
        s.memberWith ofType i members
  | .custom moduleName name =>
    Sampler.fail (.unsupported (NativeType.custom moduleName name).display .customNotDrawn)

/-- A value of the member of a union at a position. -/
def memberWith (s : Sample) (ofType : NativeType → Sampler Value) (i : Nat) :
    List NativeType → Sampler Value
  | [] => Sampler.fail (.unsupported (NativeType.union []).display .emptyUnion)
  | t :: ts =>
    match i with
    | 0 => s.valueWith ofType t
    | i + 1 => s.memberWith ofType i ts

end

/-- A value of a type, following keys and structs to a depth. -/
def valueBounded (s : Sample) : Nat → NativeType → Sampler Value
  | 0, t => Sampler.fail (.unsupported t.display .nestedTooDeep)
  | n + 1, t => s.valueWith (s.valueBounded n) t

/-- A value of a type. -/
def value (s : Sample) (t : NativeType) : Sampler Value := s.valueBounded s.depth t

/-! ### Records -/

/-- The key of the record at a position. -/
def key (s : Sample) (f : Field) (index : Nat) : Sampler Value :=
  match f.type.unadorned with
  | .primitive .uuid => Sampler.lift do
    let u ← Draw.uuid
    return .uuid u
  | .primitive .int | .primitive .int32 | .primitive .int64 | .primitive .uint32
  | .primitive .uint64 =>
    match s.keys[index]? with
    | some k => return intValue k
    | none => Sampler.fail (.unsupported f.type.display (.beyondSample index s.count))
  | t => Sampler.fail (.unsupported t.display .keyNotDrawn)

/-- The value of a field of the record at a position. -/
def fieldValue (s : Sample) (e : Entity) (index : Nat) (f : Field) : Sampler Value :=
  Sampler.nameOwner e.name
    (if f.name = e.primaryKey then s.key f index else fieldWith s.value f)

/-- Draws the values of fields into a record. -/
def fill (s : Sample) (e : Entity) (index : Nat) (r : Record) : List Field → Sampler Record
  | [] => return r
  | f :: fs => do
    let v ← s.fieldValue e index f
    s.fill e index (r.set f.name v) fs

/-- The record at a position. -/
def record (s : Sample) (e : Entity) (index : Nat) : Sampler Record :=
  s.fill e index Record.empty e.fields

/-- All records. -/
def records (s : Sample) (e : Entity) : Sampler (List Record) :=
  (List.range s.count).mapM (s.record e)

/-- Records of a registered entity. -/
def recordsOf (registry : Registry) (latest : Timestamp) (name : String) (count : Nat)
    (depth : Nat := defaultDepth) : Sampler (List Record) :=
  match registry.get? name with
  | none => Sampler.fail (.unknownType name)
  | some (.entity e) => do
    let s ← Sampler.lift (create registry latest count depth)
    s.records e
  | some d => Sampler.fail (.unsupported d.name .notEntity)

end Sample

end SchemaCatalog
