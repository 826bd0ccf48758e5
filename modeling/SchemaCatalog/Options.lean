import SchemaCatalog.Options.Factory
import SchemaCatalog.Options.Mode
import SchemaCatalog.Options.Namespaces

/-!
# Settings of a conversion
-/

namespace SchemaCatalog

/-- The settings of a conversion. -/
structure Options where
  /-- The representation of enumerations. -/
  enumMode : EnumMode := .type
  /-- The representation of structs inside other types. -/
  structMode : StructMode := .type
  /-- The representation of lists of simple values. -/
  arrayMode : ArrayMode := .array
  /-- Whether narrow integers become types of the dialect. -/
  extraNumericTypes : Bool := false
  /-- Whether names are qualified, and not prefixed. -/
  qualifiedNames : Bool := true
  /-- The target namespaces of modules. -/
  namespaces : NamespaceMapping := .empty
  /-- Whether foreign keys between entity tables are written. -/
  foreignConstraints : Bool := true
  /-- The data types that take the place of those of native types; the first entry of a
  native type counts. -/
  substitutions : List (NativeType × DataType) := []
  /-- The kinds of annotations that are ignored. -/
  skipAnnotations : List AnnotationKind := []
  /-- Makes the catalog objects. -/
  factory : ObjectFactory := .plain
  /-- The width in bytes of the keys of lookup tables. -/
  enumKeyWidth : UInt8 := 4
  deriving Inhabited

namespace Options

/-- Puts a data type in the place of that of a native type. -/
def substituting (o : Options) (t : NativeType) (d : DataType) : Options :=
  { o with substitutions := (t, d) :: o.substitutions.filter fun s => s.1 ≠ t }

/-- The data type that takes the place of that of a native type, if there is one. -/
def substitute? (o : Options) (t : NativeType) : Option DataType := o.substitutions.lookup t

/-- Ignores a kind of annotations. -/
def skipping (o : Options) (k : AnnotationKind) : Options :=
  if k ∈ o.skipAnnotations then o
  else { o with skipAnnotations := o.skipAnnotations ++ [k] }

/-- Whether an annotation is ignored. -/
def skips (o : Options) (a : Annotation) : Bool := o.skipAnnotations.contains a.kind

/-- Checks the settings that can be wrong by themselves. -/
def validate (o : Options) : Except ConvertError Unit :=
  if o.enumKeyWidth = 1 ∨ o.enumKeyWidth = 2 ∨ o.enumKeyWidth = 4 ∨ o.enumKeyWidth = 8 then .ok ()
  else .error (.configuration (.keyWidth o.enumKeyWidth))

end Options

end SchemaCatalog
