import SchemaCatalog.Proofs.Converter.Spelling

/-!
# Tables under another spelling

Spelling forward references as references gives every field the role that it had, with the
entities in it respelled (`role_respelled`). So an entity has the same constraints as before, and,
where its fields have the same data types, the same table; the same holds of composite types and
of join tables. Errors may differ, since they show types as they are spelled.
-/

namespace SchemaCatalog

/-- A related item with its fields respelled. -/
def RelatedItem.respelled : RelatedItem → RelatedItem
  | entity e => entity e.respelled
  | enumeration e => enumeration e

/-- A role with the entities in it respelled. -/
def FieldRole.respelled : FieldRole → FieldRole
  | relationship item => relationship item.respelled
  | entity target => entity target.respelled
  | discriminated targets => discriminated (targets.map Entity.respelled)
  | enumeration e => enumeration e
  | extensible e => extensible e
  | value => value

namespace RelatedItem

variable (item : RelatedItem)

@[simp]
theorem name_respelled : item.respelled.name = item.name := by cases item <;> rfl

@[simp]
theorem moduleName_respelled : item.respelled.moduleName = item.moduleName := by cases item <;> rfl

end RelatedItem

namespace Converter

variable (c : Converter)

/-! ### Roles -/

/-- What a list relates an entity to is the same definition, respelled. -/
theorem relatedItem?_respelled (t : NativeType) :
    c.respelled.relatedItem? t.respelled = (c.relatedItem? t).map RelatedItem.respelled := by
  cases t with
  | list item =>
    simp only [relatedItem?, NativeType.respelled, NativeType.unadorned_respelled,
      registry_respelled, options_respelled, Registry.referenced?_respelled]
    cases c.registry.referenced? item.unadorned with
    | none => rfl
    | some d =>
      cases d with
      | entity e => rfl
      | struct s => rfl
      | enumeration e =>
        change (if c.options.enumMode = .relation then some (RelatedItem.enumeration e) else none) =
          (if c.options.enumMode = .relation then some (RelatedItem.enumeration e) else none).map
            RelatedItem.respelled
        split <;> rfl
  | _ => rfl

/-- Whether a field is a relationship does not depend on the spelling. -/
theorem isRelationship_respelled (t : NativeType) :
    c.respelled.isRelationship t.respelled = c.isRelationship t := by
  rw [isRelationship, isRelationship, NativeType.unadorned_respelled, relatedItem?_respelled,
    Option.isSome_map]

theorem unionEntities?_respelled (t : NativeType) :
    c.respelled.unionEntities? t.respelled =
      (c.unionEntities? t).map (List.map Entity.respelled) := by
  cases t with
  | union members =>
    cases members with
    | nil => rfl
    | cons m ms =>
      rw [NativeType.respelled, NativeType.respelledAll_eq_map]
      change ((m :: ms).map NativeType.respelled).mapM c.registry.respelled.entity? =
        ((m :: ms).mapM c.registry.entity?).map (List.map Entity.respelled)
      rw [List.mapM_map]
      exact (mapM_congr fun m' _ => c.registry.entity?_respelled m').trans map_mapM.symm
  | _ => rfl

/-- **A field has the role that it has respelled.** -/
theorem role_respelled (t : NativeType) :
    c.respelled.role t.respelled = (c.role t).respelled := by
  simp only [role, NativeType.unadorned_respelled, relatedItem?_respelled, registry_respelled,
    Registry.referenced?_respelled, Registry.extensible?_respelled, unionEntities?_respelled]
  cases c.relatedItem? t.unadorned with
  | some item => rfl
  | none =>
    dsimp only [Option.map_none]
    cases c.registry.referenced? t.unadorned with
    | none =>
      dsimp only [Option.map_none]
      cases c.registry.extensible? t.unadorned <;> cases c.unionEntities? t.unadorned <;> rfl
    | some d =>
      cases d with
      | entity e => rfl
      | struct s =>
        dsimp only [Option.map_some, Definition.respelled]
        cases c.registry.extensible? t.unadorned <;> cases c.unionEntities? t.unadorned <;> rfl
      | enumeration e =>
        dsimp only [Option.map_some, Definition.respelled]
        rw [isSmall_respelled]
        split <;> rfl

/-! ### Constraints -/

section Constraints

variable (stem : String) (f : Field) (e : Entity)

/-- A reference to the key of an entity names its table and its key, which have one spelling. -/
theorem keyReference_respelled : c.respelled.keyReference e.respelled = c.keyReference e := by
  unfold keyReference
  rw [keyField_respelled]
  cases Registry.keyField e <;> rfl

theorem entityConstraint?_respelled :
    c.respelled.entityConstraint? stem f.respelled = c.entityConstraint? stem f := by
  have hreference : c.respelled.keyReference ∘ Entity.respelled = c.keyReference :=
    funext c.keyReference_respelled
  unfold entityConstraint?
  rw [Field.type_respelled, role_respelled]
  cases c.role f.type with
  | entity target =>
    dsimp only [FieldRole.respelled]
    rw [keyReference_respelled]
    rfl
  | discriminated targets =>
    dsimp only [FieldRole.respelled]
    rw [List.mapM_map, hreference]
    rfl
  | _ => rfl

/-- The constraints of an entity do not depend on the spelling. -/
theorem constraints_respelled : c.respelled.constraints e.respelled = c.constraints e := by
  have huniques : ∀ stem, uniqueConstraints stem e.respelled = uniqueConstraints stem e := by
    intro stem
    rw [uniqueConstraints, uniqueConstraints, Entity.respelled, List.filter_map, List.map_map]
    rfl
  have hkeys : ∀ stem,
      c.respelled.entityConstraints stem e.respelled = c.entityConstraints stem e := by
    intro stem
    have hcomp : c.respelled.entityConstraint? stem ∘ Field.respelled = c.entityConstraint? stem :=
      funext (c.entityConstraint?_respelled stem)
    unfold entityConstraints
    rw [Entity.respelled, List.mapM_map, hcomp]
  unfold constraints
  simp only [huniques, hkeys]
  rfl

theorem lookedUp?_respelled : c.respelled.lookedUp? f.respelled = c.lookedUp? f := by
  unfold lookedUp?
  rw [Field.type_respelled, role_respelled]
  cases c.role f.type <;> rfl

theorem lookupConstraints_respelled :
    c.respelled.lookupConstraints stem e.respelled = c.lookupConstraints stem e := by
  have hcomp : c.respelled.lookupConstraint? stem ∘ Field.respelled = c.lookupConstraint? stem := by
    funext f
    rw [Function.comp_apply, lookupConstraint?, lookupConstraint?, lookedUp?_respelled]
    rfl
  unfold lookupConstraints
  rw [Entity.respelled, List.mapM_map, hcomp]

theorem checkConstraints_respelled :
    c.respelled.checkConstraints stem e.respelled = c.checkConstraints stem e := by
  have hcomp : c.respelled.checkConstraint? stem ∘ Field.respelled = c.checkConstraint? stem := by
    funext f
    rw [Function.comp_apply, checkConstraint?, checkConstraint?, Field.type_respelled,
      role_respelled]
    cases c.role f.type <;> rfl
  unfold checkConstraints
  rw [Entity.respelled, List.filterMap_map, hcomp]
  rfl

end Constraints

/-! ### Tables and composite types -/

section Objects

variable {c} {names : List String} (hs : c.options.SubstitutesPrimitives)
  (hw : SpelledWithin c.registry names)
include hs hw

/-- A column is the same in either spelling, errors aside, where keys are spelled alike. -/
theorem toOption_column_respelled {f : Field} (hf : f.type.mentions ⊆ names)
    (hk : c.registry.SpellsKeysAlike f.type) :
    (c.respelled.column f.respelled).toOption = (c.column f).toOption := by
  unfold column
  rw [toOption_bind, toOption_bind, Field.type_respelled, toOption_mapMember_respelled hs hw hf hk]
  rfl

variable {e : Entity} (he : ∀ f ∈ e.fields, f.type.mentions ⊆ names)
  (hk : ∀ f ∈ e.fields, c.registry.SpellsKeysAlike f.type)
include he hk

theorem toOption_columns_respelled :
    (c.respelled.columns e.respelled).toOption = (c.columns e).toOption := by
  have hfilter :
      (e.fields.map Field.respelled).filter (fun f => !c.respelled.isRelationship f.type) =
        (e.fields.filter fun f => !c.isRelationship f.type).map Field.respelled := by
    rw [List.filter_map]
    simp only [Function.comp_def, Field.type_respelled, isRelationship_respelled]
  unfold columns
  rw [Entity.respelled, hfilter, List.mapM_map, toOption_mapM, toOption_mapM]
  refine mapM_congr fun f hf => ?_
  have hf := (List.mem_filter.mp hf).1
  exact toOption_column_respelled hs hw (he f hf) (hk f hf)

/-- **An entity has the table that it has respelled.** -/
theorem toOption_table_respelled :
    (c.respelled.table e.respelled).toOption = (c.table e).toOption := by
  unfold table ConvertError.nameOwner tableParts
  rw [toOption_mapError, toOption_mapError, toOption_bind, toOption_bind,
    toOption_columns_respelled hs hw he hk]
  refine Option.bind_congr fun columns _ => ?_
  simp only [constraints_respelled, lookupConstraints_respelled, checkConstraints_respelled]
  rfl

omit he hk

/-- **A struct or entity has the composite type that it has respelled.** -/
theorem toOption_composite_respelled {d : Definition} (hd : ∀ f ∈ d.fields, f.type.mentions ⊆ names)
    (hk : ∀ f ∈ d.fields, c.registry.SpellsKeysAlike f.type) :
    (c.respelled.composite d.respelled).toOption = (c.composite d).toOption := by
  have hmembers : ((d.fields.map Field.respelled).mapM c.respelled.compositeMember).toOption =
      (d.fields.mapM c.compositeMember).toOption := by
    rw [List.mapM_map, toOption_mapM, toOption_mapM]
    refine mapM_congr fun f hf => ?_
    rw [Function.comp_apply, compositeMember, compositeMember, toOption_bind, toOption_bind,
      Field.type_respelled, toOption_mapMember_respelled hs hw (hd f hf) (hk f hf)]
    rfl
  cases d with
  | enumeration e => rfl
  | _ =>
    unfold composite ConvertError.nameOwner
    dsimp only [Definition.respelled]
    rw [toOption_bind, toOption_bind, toOption_mapError, toOption_mapError]
    exact congrArg (Option.bind · _) hmembers

/-- A key of an entity of the names has the data type that it has respelled. -/
theorem toOption_mapKey_respelled {key : Field}
    (h : Registry.KeyTypeAmong c.registry names e key) :
    (c.respelled.mapMember key.type.respelled).toOption = (c.mapMember key.type).toOption :=
  toOption_mapMember_respelled hs hw (h.mentions_subset hw.closed) (hw.keys e key h)

/-- The key of an item in a join table is mapped alike, errors aside. -/
theorem toOption_relatedKey_respelled {item : RelatedItem} (hitem : item.name ∈ names)
    (hget : c.registry.get? item.name = some item.definition) :
    (c.respelled.relatedKey item.respelled).toOption = (c.relatedKey item).toOption := by
  cases item with
  | enumeration e => rfl
  | entity e =>
    unfold relatedKey RelatedItem.respelled
    simp only [toOption_bind, keyField_respelled, toOption_map, Option.bind_map]
    refine Option.bind_congr fun key hkey => ?_
    have hamong : Registry.KeyTypeAmong c.registry names e key :=
      ⟨hitem, hget, toOption_eq_some_iff.mp hkey⟩
    exact congrArg (Option.bind · _) (toOption_mapKey_respelled hs hw hamong)

/-- **A relationship has the join table that it has respelled.** -/
theorem toOption_joinTable_respelled (he : e.name ∈ names)
    (hget : c.registry.get? e.name = some (.entity e)) {item : RelatedItem}
    (hitem : item.name ∈ names) (hget_item : c.registry.get? item.name = some item.definition)
    (fieldName : String) :
    (c.respelled.joinTable e.respelled fieldName item.respelled).toOption =
      (c.joinTable e fieldName item).toOption := by
  have huuid : c.respelled.mapMember (.primitive .uuid) = c.mapMember (.primitive .uuid) :=
    mapMember_congr (Registry.agree_nil _ _) (List.nil_subset _)
  unfold joinTable
  simp only [toOption_bind, keyField_respelled, toOption_map, Option.bind_map]
  refine Option.bind_congr fun key hkey => ?_
  have hamong : Registry.KeyTypeAmong c.registry names e key :=
    ⟨he, hget, toOption_eq_some_iff.mp hkey⟩
  rw [toOption_relatedKey_respelled hs hw hitem hget_item]
  refine Option.bind_congr fun related _ => ?_
  simp only [huuid, Field.type_respelled, toOption_mapKey_respelled hs hw hamong,
    RelatedItem.name_respelled, RelatedItem.moduleName_respelled]
  rfl

end Objects

end Converter

end SchemaCatalog
