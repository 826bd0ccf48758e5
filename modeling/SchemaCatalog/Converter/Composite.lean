import SchemaCatalog.Converter.Member

/-!
# Composite types of structs and entities
-/

namespace SchemaCatalog.Converter

/-- The member of a field. -/
def compositeMember (c : Converter) (f : Field) : Except ConvertError CompositeMember := do
  let dataType ← c.mapMember f.type
  return ⟨f.name, dataType, f.description⟩

/-- The composite type of a struct or entity. An error in a member names the definition. -/
def composite (c : Converter) (d : Definition) : Except ConvertError CompositeType :=
  match d with
  | .enumeration e => .error (.unsupported e.name .notRecord)
  | d => do
    let members ← ConvertError.nameOwner d.name (d.fields.mapM c.compositeMember)
    let n ← c.qualifiedName d.moduleName d.name
    (c.options.factory.composite n members d.description).mapError .formation

/-- The composite type of a registered definition. -/
def compositeOf (c : Converter) (name : String) : Except ConvertError CompositeType := do
  let d ← c.registry.resolve name
  c.composite d

end SchemaCatalog.Converter
