/-!
# Annotations

An annotation refines the native type it is attached to. Annotations of a kind can be
switched off as a whole, so kinds are values of their own.
-/

namespace SchemaCatalog

/-- The kind of an annotation. -/
inductive AnnotationKind where
  /-- A limit on the length of a string. -/
  | maxLength
  /-- A number of digits. -/
  | precision
  /-- A number of digits of a fraction of a second. -/
  | timePrecision
  /-- A size in bytes. -/
  | storage
  /-- The presence of a time zone. -/
  | timeZone
  /-- A kind that an application defines. -/
  | other (name : String)
  deriving DecidableEq, Repr, Inhabited

namespace AnnotationKind

/-- The place of a kind in the order of kinds. -/
def rank : AnnotationKind → Nat
  | maxLength => 0
  | precision => 1
  | timePrecision => 2
  | storage => 3
  | timeZone => 4
  | other _ => 5

/-- The built-in kinds by name. -/
def builtin : List (String × AnnotationKind) :=
  [("max_length", maxLength), ("precision", precision), ("time_precision", timePrecision),
    ("storage", storage), ("time_zone", timeZone)]

/-- The name of a kind that an application defines. -/
def otherName : AnnotationKind → String
  | other name => name
  | _ => ""

/-- Whether a kind stands before another or is equal to it: the built-in kinds come first, the
others follow by name. -/
def isBefore (a b : AnnotationKind) : Bool :=
  ((compare a.rank b.rank).then (compare a.otherName b.otherName)).isLE

end AnnotationKind

/-- A refinement of a native type. -/
inductive Annotation where
  /-- The greatest length of a string. -/
  | maxLength (n : UInt32)
  /-- Significant digits, and digits after the point. -/
  | precision (significant : UInt8) (fractional : Option UInt8)
  /-- Digits of the fraction of a second. -/
  | timePrecision (n : UInt8)
  /-- The size in bytes. -/
  | storage (n : UInt32)
  /-- A time zone is kept. -/
  | timeZone
  /-- A remark of an application, without meaning here. -/
  | other (kind value : String)
  deriving DecidableEq, Repr, Inhabited

namespace Annotation

/-- The kind of an annotation. -/
def kind : Annotation → AnnotationKind
  | maxLength _ => .maxLength
  | precision _ _ => .precision
  | timePrecision _ => .timePrecision
  | storage _ => .storage
  | timeZone => .timeZone
  | other kind _ => .other kind

/-- An annotation for display. -/
def display : Annotation → String
  | maxLength n => "max_length=" ++ toString n.toNat
  | precision s (some f) => "precision=" ++ toString s.toNat ++ "," ++ toString f.toNat
  | precision s none => "precision=" ++ toString s.toNat
  | timePrecision n => "time_precision=" ++ toString n.toNat
  | storage n => "storage=" ++ toString n.toNat
  | timeZone => "time_zone"
  | other kind value => kind ++ "=" ++ value

end Annotation

end SchemaCatalog
