import SchemaCatalog.Converter.Table

/-!
# Join tables

A relationship field becomes a table with a key of its own and two foreign keys, one to the
owner of the field and one to the related entity or lookup table.
-/

namespace SchemaCatalog.Converter

/-- The key column of a join table. -/
def joinKey : String := "uuid"

/-- The name and data type of the key of the far side of a relationship. -/
def relatedKey (c : Converter) : RelatedItem → Except ConvertError (String × DataType)
  | .entity e => do
    let key ← Registry.keyField e
    let dataType ← c.mapMember key.type
    return (key.name, dataType)
  | .enumeration _ => .ok (lookupKey, c.enumKeyType)

/-- A column of a join table. -/
def joinColumn (c : Converter) (name : String) (dataType : DataType) : Column :=
  c.options.factory.column ⟨name, dataType, false, none, false, none⟩

/-- The join table of a field of an entity. -/
def joinTable (c : Converter) (owner : Entity) (fieldName : String) (item : RelatedItem) :
    Except ConvertError Table := do
  let key ← Registry.keyField owner
  let (itemKey, itemType) ← c.relatedKey item
  let ownerStem ← c.stem owner.moduleName owner.name
  let itemStem ← c.stem item.moduleName item.name
  let left := ownerStem ++ "_" ++ fieldName
  let right := itemStem ++ "_" ++ itemKey
  let uuidType ← c.mapMember (.primitive .uuid)
  let keyType ← c.mapMember key.type
  let columns :=
    [c.joinColumn joinKey uuidType, c.joinColumn left keyType, c.joinColumn right itemType]
  let ownerName ← c.qualifiedName owner.moduleName owner.name
  let itemName ← c.qualifiedName item.moduleName item.name
  let constraints : List Constraint :=
    [.foreignKey ("jk_" ++ left) [left] ⟨ownerName, [key.name]⟩,
      .foreignKey ("jk_" ++ right) [right] ⟨itemName, [itemKey]⟩]
  let n ← c.qualifiedName owner.moduleName (left ++ "_" ++ item.name)
  (c.options.factory.table n columns [joinKey] constraints none).mapError .formation

end SchemaCatalog.Converter
