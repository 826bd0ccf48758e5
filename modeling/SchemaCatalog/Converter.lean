import SchemaCatalog.Options
import SchemaCatalog.Registry

/-!
# Converters

A `Converter` is a registry together with valid settings. All conversions are functions of
it and of the type or definition that is converted.
-/

namespace SchemaCatalog

/-- The definitions and settings of a conversion. -/
structure Converter where
  /-- The definitions. -/
  registry : Registry
  /-- The settings. -/
  options : Options
  deriving Inhabited

namespace Converter

/-- A converter, whose settings must be valid. -/
def create (registry : Registry) (options : Options) : Except ConvertError Converter := do
  options.validate
  return ⟨registry, options⟩

/-- The style of all names. -/
def nameStyle (c : Converter) : NameStyle :=
  if c.options.qualifiedNames then .qualified else .prefixed

/-- The name of an object that a module defines. -/
def qualifiedName (c : Converter) (moduleName name : String) :
    Except ConvertError QualifiedName := do
  let target ← c.options.namespaces.target moduleName
  return ⟨target, name, c.nameStyle⟩

/-- The identifier that names derived from an object start with. -/
def stem (c : Converter) (moduleName name : String) : Except ConvertError String := do
  let n ← c.qualifiedName moduleName name
  return n.stem

/-- The name of the namespace in which the objects of a module are placed; the empty name is
the default namespace. -/
def namespaceOf (c : Converter) (moduleName : String) : Except ConvertError String := do
  let target ← c.options.namespaces.target moduleName
  return target.getD ""

end Converter

end SchemaCatalog
