import SchemaCatalog.Native.Annotation
import SchemaCatalog.Native.Literal

/-!
# Native types

A `NativeType` is the declared type of a field. The vocabulary is closed: primitives,
annotated types, references to registered types by name, literal types, lists, unions, and
opaque types that are known by name only.
-/

namespace SchemaCatalog

/-- The built-in types. -/
inductive Primitive where
  | bool | int | int8 | int16 | int32 | int64 | uint8 | uint16 | uint32 | uint64
  | float | float32 | float64 | string | decimal | dateTime | date | time | timeDelta
  | uuid | json | ipv4 | ipv6
  deriving DecidableEq, Repr, Inhabited

namespace Primitive

/-- All built-in types. -/
def all : List Primitive :=
  [bool, int, int8, int16, int32, int64, uint8, uint16, uint32, uint64, float, float32, float64,
    string, decimal, dateTime, date, time, timeDelta, uuid, json, ipv4, ipv6]

/-- The name of a built-in type. -/
def display : Primitive → String
  | bool => "bool"
  | int => "int"
  | int8 => "i8"
  | int16 => "i16"
  | int32 => "i32"
  | int64 => "i64"
  | uint8 => "u8"
  | uint16 => "u16"
  | uint32 => "u32"
  | uint64 => "u64"
  | float => "float"
  | float32 => "f32"
  | float64 => "f64"
  | string => "str"
  | decimal => "decimal"
  | dateTime => "datetime"
  | date => "date"
  | time => "time"
  | timeDelta => "timedelta"
  | uuid => "uuid"
  | json => "json"
  | ipv4 => "ipv4"
  | ipv6 => "ipv6"

/-- The built-in type of a name. -/
def ofName? (name : String) : Option Primitive := all.find? fun p => p.display = name

end Primitive

/-- The declared type of a field. -/
inductive NativeType where
  /-- A built-in type. -/
  | primitive (p : Primitive)
  /-- A type refined by annotations, applied in order. -/
  | annotated (base : NativeType) (annotations : List Annotation)
  /-- A reference to a registered type. -/
  | ref (name : String)
  /-- A reference to a type that is registered later. -/
  | forward (name : String)
  /-- One of the listed values. -/
  | literal (values : List Literal)
  /-- Lists of items. -/
  | list (item : NativeType)
  /-- Values of any of the members. -/
  | union (members : List NativeType)
  /-- A type without definition, known by module and name. -/
  | custom (moduleName name : String)
  deriving Inhabited

namespace NativeType

/-! ### Equality -/

mutual

/-- Whether two types are the same. -/
def same : NativeType → NativeType → Bool
  | primitive p, primitive q => p = q
  | annotated s as, annotated t bs => same s t && as = bs
  | ref m, ref n => m = n
  | forward m, forward n => m = n
  | literal us, literal vs => us = vs
  | list s, list t => same s t
  | union ss, union ts => sameAll ss ts
  | custom l m, custom k n => l = k && m = n
  | _, _ => false

/-- Whether two lists of types are the same. -/
def sameAll : List NativeType → List NativeType → Bool
  | [], [] => true
  | s :: ss, t :: ts => same s t && sameAll ss ts
  | _, _ => false

end

mutual

theorem same_iff : ∀ s t : NativeType, same s t = true ↔ s = t
  | primitive _, t => by cases t <;> simp [same]
  | annotated s _, t => by cases t <;> simp [same, same_iff s]
  | ref _, t => by cases t <;> simp [same]
  | forward _, t => by cases t <;> simp [same]
  | literal _, t => by cases t <;> simp [same]
  | list s, t => by cases t <;> simp [same, same_iff s]
  | union ss, t => by cases t <;> simp [same, sameAll_iff ss]
  | custom _ _, t => by cases t <;> simp [same]

theorem sameAll_iff : ∀ ss ts : List NativeType, sameAll ss ts = true ↔ ss = ts
  | [], ts => by cases ts <;> simp [sameAll]
  | s :: ss, ts => by cases ts <;> simp [sameAll, same_iff s, sameAll_iff ss]

end

instance : DecidableEq NativeType := fun s t => decidable_of_iff _ (same_iff s t)

/-! ### Parts -/

/-- Strings of at most the given length. -/
def boundedString (n : UInt32) : NativeType := annotated (primitive .string) [.maxLength n]

/-- The type without its annotations. -/
def unadorned : NativeType → NativeType
  | annotated base _ => base.unadorned
  | t => t

/-- The annotations of a type, innermost first. -/
def annotations : NativeType → List Annotation
  | annotated base as => base.annotations ++ as
  | _ => []

/-- Whether this is a built-in type. -/
def isPrimitive : NativeType → Bool
  | primitive _ => true
  | _ => false

/-- The name of the type a reference refers to. -/
def referencedName? : NativeType → Option String
  | ref name | forward name => some name
  | _ => none

mutual

/-- The names of the types that a type mentions, from left to right. -/
def mentions : NativeType → List String
  | ref name | forward name => [name]
  | annotated base _ => mentions base
  | list item => mentions item
  | union members => mentionsAll members
  | primitive _ | literal _ | custom _ _ => []

/-- The names that the members of a list mention. -/
def mentionsAll : List NativeType → List String
  | [] => []
  | t :: ts => mentions t ++ mentionsAll ts

end

/-! ### Display -/

/-- The annotations of one layer, each after a comma. -/
def displayAnnotations (as : List Annotation) : String :=
  String.join (as.map fun a => ", " ++ a.display)

mutual

/-- A type for display. -/
def display : NativeType → String
  | primitive p => p.display
  | annotated base as => "annotated<" ++ display base ++ displayAnnotations as ++ ">"
  | ref name => name
  | forward name => "'" ++ name ++ "'"
  | literal values => "literal<" ++ ", ".intercalate (values.map Literal.display) ++ ">"
  | list item => "list<" ++ display item ++ ">"
  | union members => "union<" ++ ", ".intercalate (displayAll members) ++ ">"
  | custom moduleName name => moduleName ++ "." ++ name

/-- The types of a list for display. -/
def displayAll : List NativeType → List String
  | [] => []
  | t :: ts => display t :: displayAll ts

end

end NativeType

/-- The native type of a literal value. -/
def Literal.nativeType : Literal → NativeType
  | str _ => .primitive .string
  | int _ => .primitive .int
  | bool _ => .primitive .bool

end SchemaCatalog
