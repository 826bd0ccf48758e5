import SchemaCatalog.Options

/-!
# Dialects

A dialect takes only some modes and forms of upserts, has defaults for those that are not
asked for, and puts data types of its own in the place of others.
-/

namespace SchemaCatalog

/-- A target database. -/
inductive Dialect where
  /-- PostgreSQL. -/
  | postgresql
  /-- MySQL. -/
  | mysql
  /-- Delta Lake. -/
  | delta
  deriving DecidableEq, Repr, Inhabited

/-- How an upsert refers to the row that is inserted. -/
inductive UpsertForm where
  /-- By a function of the column. -/
  | valuesFunction
  /-- By an alias of the row. -/
  | excludedAlias
  deriving DecidableEq, Repr, Inhabited

/-- The name of a form of upserts in error texts. -/
def UpsertForm.display : UpsertForm → String
  | valuesFunction => "ValuesFunction"
  | excludedAlias => "ExcludedAlias"

/-- The name of a form of upserts in settings. -/
def UpsertForm.toText : UpsertForm → String
  | valuesFunction => "values_function"
  | excludedAlias => "excluded_alias"

/-- The form of upserts of a name. -/
def UpsertForm.ofText? : String → Option UpsertForm
  | "values_function" => some valuesFunction
  | "excluded_alias" => some excludedAlias
  | _ => none

/-- What a caller asks of a dialect; a mode that is not asked for is left to it. -/
structure DialectRequest where
  /-- The representation of enumerations. -/
  enumMode : Option EnumMode := none
  /-- The representation of structs. -/
  structMode : Option StructMode := none
  /-- The representation of lists. -/
  arrayMode : Option ArrayMode := none
  /-- The entries of the namespace mapping. -/
  namespaces : List (String × Option String) := []
  /-- Whether foreign keys between entity tables are written. -/
  foreignConstraints : Bool := true
  /-- The kinds of annotations that are ignored. -/
  skipAnnotations : List AnnotationKind := []
  /-- The form of upserts. -/
  upsert : Option UpsertForm := none
  deriving Inhabited

/-- The settings of a renderer. -/
structure DialectSettings where
  /-- The dialect. -/
  dialect : Dialect
  /-- The settings of the conversion. -/
  options : Options
  /-- The form of upserts. -/
  upsert : UpsertForm

namespace Dialect

/-- The name of a dialect. -/
def toText : Dialect → String
  | postgresql => "postgresql"
  | mysql => "mysql"
  | delta => "delta"

/-- The dialect of a name. -/
def ofText? : String → Option Dialect
  | "postgresql" => some postgresql
  | "mysql" => some mysql
  | "delta" => some delta
  | _ => none

/-! ### What a dialect takes -/

/-- Whether a dialect takes a representation of enumerations. -/
def takesEnumMode : Dialect → EnumMode → Bool
  | postgresql, m => m ≠ .inlined
  | mysql, m => m ≠ .type
  | delta, m => m = .check

/-- Whether a dialect takes a representation of structs. -/
def takesStructMode : Dialect → StructMode → Bool
  | postgresql, _ => true
  | mysql, m | delta, m => m ≠ .type

/-- Whether a dialect takes a representation of lists. -/
def takesArrayMode : Dialect → ArrayMode → Bool
  | mysql, m => m ≠ .array
  | _, _ => true

/-- Whether a dialect takes a form of upserts. -/
def takesUpsert : Dialect → UpsertForm → Bool
  | postgresql, f => f = .excludedAlias
  | _, _ => true

/-- Checks a mode that was asked for. -/
def checkMode {μ : Type} (d : Dialect) (kind : String) (takes : μ → Bool) (toText : μ → String) :
    Option μ → Except ConvertError Unit
  | some m =>
    if takes m then .ok ()
    else .error (.configuration (.unsupportedMode kind d.toText (toText m)))
  | none => .ok ()

/-- Checks the modes that were asked for: enumerations, structs, lists. -/
def checkModes (d : Dialect) (r : DialectRequest) : Except ConvertError Unit := do
  d.checkMode "enum" d.takesEnumMode EnumMode.toText r.enumMode
  d.checkMode "struct" d.takesStructMode StructMode.toText r.structMode
  d.checkMode "array" d.takesArrayMode ArrayMode.toText r.arrayMode

/-! ### Defaults -/

/-- The representation of enumerations that is not asked for. -/
def defaultEnumMode : Dialect → EnumMode
  | postgresql => .type
  | mysql => .inlined
  | delta => .check

/-- The representation of structs that is not asked for. -/
def defaultStructMode : Dialect → StructMode
  | postgresql => .type
  | mysql | delta => .json

/-- The representation of lists that is not asked for. -/
def defaultArrayMode : Dialect → ArrayMode
  | postgresql | delta => .array
  | mysql => .json

/-- The form of upserts that is not asked for. -/
def defaultUpsert : Dialect → UpsertForm
  | postgresql => .excludedAlias
  | mysql | delta => .valuesFunction

/-- The greatest length of the strings of MySQL. -/
def mysqlTextLimit : UInt32 := 16777215

/-- The data types that a dialect puts in the place of those of native types. -/
def substitutions : Dialect → List (NativeType × DataType)
  | postgresql =>
    [(.primitive .json, .native "jsonb"), (.primitive .ipv4, .native "inet"),
      (.primitive .ipv6, .native "inet")]
  | mysql =>
    [(.primitive .bool, .integer 1), (.primitive .uuid, .binary 16),
      (.primitive .string, .varchar mysqlTextLimit), (.primitive .ipv4, .binary 4),
      (.primitive .ipv6, .binary 16)]
  | delta =>
    [(.primitive .uuid, .binary 16), (.primitive .json, .text), (.primitive .ipv4, .binary 4),
      (.primitive .ipv6, .binary 16)]

/-- Whether foreign keys are written for a request: never in Delta Lake. -/
def writesForeignKeys : Dialect → Bool → Bool
  | delta, _ => false
  | _, asked => asked

/-! ### Settings -/

/-- The settings of a conversion for a request. -/
def options (d : Dialect) (r : DialectRequest) : Except ConvertError Options := do
  d.checkModes r
  let namespaces ← NamespaceMapping.ofList r.namespaces
  let o : Options :=
    { enumMode := r.enumMode.getD d.defaultEnumMode
      structMode := r.structMode.getD d.defaultStructMode
      arrayMode := r.arrayMode.getD d.defaultArrayMode
      qualifiedNames := d ≠ .mysql
      namespaces := namespaces
      foreignConstraints := d.writesForeignKeys r.foreignConstraints
      substitutions := d.substitutions }
  let o := r.skipAnnotations.foldl Options.skipping o
  o.validate
  return o

/-- The form of upserts for a request. -/
def upsertForm (d : Dialect) : Option UpsertForm → Except ConvertError UpsertForm
  | none => .ok d.defaultUpsert
  | some f =>
    if d.takesUpsert f then .ok f
    else .error (.configuration (.unsupportedUpsert d.toText f.display))

/-- The settings of a renderer for a request. -/
def settings (d : Dialect) (r : DialectRequest) : Except ConvertError DialectSettings := do
  let o ← d.options r
  let upsert ← d.upsertForm r.upsert
  return ⟨d, o, upsert⟩

end Dialect

end SchemaCatalog
