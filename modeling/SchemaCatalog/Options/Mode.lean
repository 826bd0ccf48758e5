import SchemaCatalog.ConvertError

/-!
# How enumerations, structs and lists are represented

Modes are read from their names without regard to the case of ASCII letters.
-/

namespace SchemaCatalog

/-- The representation of enumerations. -/
inductive EnumMode where
  /-- An enumeration type that is referred to by name. -/
  | type
  /-- An enumeration that is written out where it is used. -/
  | inlined
  /-- A lookup table with a foreign key. -/
  | relation
  /-- The type of the values with a check constraint. -/
  | check
  deriving DecidableEq, Repr, Inhabited

namespace EnumMode

/-- The name of a mode. -/
def toText : EnumMode → String
  | type => "type"
  | inlined => "inline"
  | relation => "relation"
  | check => "check"

/-- The mode of a name in lower case. -/
def ofText? : String → Option EnumMode
  | "type" => some type
  | "inline" => some inlined
  | "relation" => some relation
  | "check" => some check
  | _ => none

/-- Reads a mode. -/
def parse (s : String) : Except ConvertError EnumMode :=
  match ofText? s.toLower with
  | some m => .ok m
  | none => .error (.configuration (.unknownMode "EnumMode" s.toLower))

end EnumMode

/-- The representation of structs inside other types. -/
inductive StructMode where
  /-- A composite type that is referred to by name. -/
  | type
  /-- A JSON document. -/
  | json
  deriving DecidableEq, Repr, Inhabited

namespace StructMode

/-- The name of a mode. -/
def toText : StructMode → String
  | type => "type"
  | json => "json"

/-- The mode of a name in lower case. -/
def ofText? : String → Option StructMode
  | "type" => some type
  | "json" => some json
  | _ => none

/-- Reads a mode. -/
def parse (s : String) : Except ConvertError StructMode :=
  match ofText? s.toLower with
  | some m => .ok m
  | none => .error (.configuration (.unknownMode "StructMode" s.toLower))

end StructMode

/-- The representation of lists of simple values. -/
inductive ArrayMode where
  /-- An array type. -/
  | array
  /-- A JSON document. -/
  | json
  deriving DecidableEq, Repr, Inhabited

namespace ArrayMode

/-- The name of a mode. -/
def toText : ArrayMode → String
  | array => "array"
  | json => "json"

/-- The mode of a name in lower case. -/
def ofText? : String → Option ArrayMode
  | "array" => some array
  | "json" => some json
  | _ => none

/-- Reads a mode. -/
def parse (s : String) : Except ConvertError ArrayMode :=
  match ofText? s.toLower with
  | some m => .ok m
  | none => .error (.configuration (.unknownMode "ArrayMode" s.toLower))

end ArrayMode

end SchemaCatalog
