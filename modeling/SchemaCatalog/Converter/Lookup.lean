import SchemaCatalog.Converter.Simple

/-!
# Lookup tables of enumerations

The values of an enumeration are kept in a table with a generated key and a unique label.
-/

namespace SchemaCatalog.Converter

/-- The key column of a lookup table. -/
def lookupKey : String := "id"

/-- The label column of a lookup table. -/
def lookupLabel : String := "value"

/-- What a foreign key to the lookup table of an enumeration points at. -/
def lookupReference (c : Converter) (e : Enumeration) : Except ConvertError KeyReference := do
  let n ← c.qualifiedName e.moduleName e.name
  return ⟨n, [lookupKey]⟩

/-- The lookup table of an enumeration. -/
def lookupTable (c : Converter) (e : Enumeration) : Except ConvertError Table := do
  let labels ← c.mapSimple labelType
  let columns :=
    [c.options.factory.column ⟨lookupKey, c.enumKeyType, false, none, true, none⟩,
      c.options.factory.column ⟨lookupLabel, labels, false, none, false, none⟩]
  let n ← c.qualifiedName e.moduleName e.name
  (c.options.factory.table n columns [lookupKey] [.unique ("uq_" ++ e.name) [lookupLabel]]
    e.description).mapError .formation

end SchemaCatalog.Converter
