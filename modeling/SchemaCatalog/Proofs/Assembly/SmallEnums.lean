import SchemaCatalog.Proofs.Assembly.Arises
import SchemaCatalog.Proofs.Assembly.EnumTypes

/-!
# Enumerations with too few labels

Where enumerations are types or inlined, one without two different labels is neither: where a field
of an entity refers to it, the column has the type of keys and a foreign key to its lookup table,
which is in the catalog. The role of a field, its data type, that of a list and the enumeration
types of a catalog are each decided by a function of its own; `keepsSmallOut_of_assemble` says that
they agree, so that there are no labels in a catalog, at any depth, of which no two differ.
-/

namespace SchemaCatalog

/-- Labels **differ** when two of them do. -/
def LabelsDiffer (labels : List String) : Prop := ∃ a ∈ labels, ∃ b ∈ labels, a ≠ b

theorem Enumeration.two_le_distinctCount_iff {e : Enumeration} :
    2 ≤ e.distinctCount ↔ LabelsDiffer e.valueLabels :=
  two_le_length_eraseDups_iff

namespace Converter

variable {c : Converter} {roots : List String} {types : List Definition} {p : PlacedObjects}
  {owner : Entity} {e : Enumeration} {f : Field} {t : Table} {k : Catalog}

/-- Where enumerations are types or inlined, the small ones are those whose labels do not differ. -/
theorem isSmall_iff (hmode : c.options.enumMode = .type ∨ c.options.enumMode = .inlined) :
    c.isSmall e = true ↔ ¬ LabelsDiffer e.valueLabels := by
  rw [← Enumeration.two_le_distinctCount_iff, not_le, isSmall]
  rcases hmode with hmode | hmode <;> simp [hmode]

theorem labelsDiffer_of_isSmall_eq_false
    (hmode : c.options.enumMode = .type ∨ c.options.enumMode = .inlined)
    (h : c.isSmall e = false) : LabelsDiffer e.valueLabels := by
  by_contra hdiffer
  rw [(isSmall_iff hmode).mpr hdiffer] at h
  cases h

/-- A field that refers to a small enumeration is a key of its lookup table. -/
theorem role_of_isSmall (he : c.registry.enumeration? f.type.unadorned = some e)
    (hsmall : c.isSmall e = true) : c.role f.type = .extensible e := by
  have hnone : c.relatedItem? f.type.unadorned = none := by
    rw [Option.eq_none_iff_forall_ne_some]
    intro item hitem
    obtain ⟨i, hi, -⟩ := relatedItem?_eq_some_iff.mp hitem
    rw [hi] at he
    cases he
  simp [role, hnone, Registry.enumeration?_eq_some_iff.mp he, hsmall]

/-! ### Foreign keys to lookup tables -/

/-- The table of an entity has the foreign keys of the entity to lookup tables. -/
theorem lookupConstraints_subset_of_table (hf : c.options.factory.Faithful)
    (h : c.table owner = .ok t) :
    ∃ stem keys, c.lookupConstraints stem owner = .ok keys ∧ keys ⊆ t.constraints := by
  unfold table ConvertError.nameOwner at h
  rw [mapError_eq_ok_iff] at h
  obtain ⟨columns, -, h⟩ := bind_eq_ok_iff.mp h
  obtain ⟨constraints, -, h⟩ := bind_eq_ok_iff.mp h
  obtain ⟨stem, -, h⟩ := bind_eq_ok_iff.mp h
  obtain ⟨keys, hkeys, h⟩ := bind_eq_ok_iff.mp h
  obtain ⟨n, -, h⟩ := bind_eq_ok_iff.mp h
  refine ⟨stem, keys, hkeys, fun k hk => ?_⟩
  rw [(hf.formedFrom (mapError_eq_ok_iff.mp h)).constraints_eq]
  exact List.mem_append_left _ (List.mem_append_right _ hk)

/-- A field whose enumeration is looked up has a foreign key to the lookup table. -/
theorem exists_foreignKey_of_lookedUp? (hf : c.options.factory.Faithful)
    (h : c.table owner = .ok t) (hfield : f ∈ owner.fields) (he : c.lookedUp? f = some e) :
    ∃ name r, c.lookupReference e = .ok r ∧ .foreignKey name [f.name] r ∈ t.constraints := by
  obtain ⟨stem, keys, hkeys, hsub⟩ := lookupConstraints_subset_of_table hf h
  obtain ⟨steps, hsteps, hkeys⟩ := bind_eq_ok_iff.mp hkeys
  cases pure_eq_ok_iff.mp hkeys
  obtain ⟨step, -, hstep⟩ := exists_of_mem_left (mapM_eq_ok_iff.mp hsteps) hfield
  have hmade := hstep
  rw [lookupConstraint?, he] at hmade
  obtain ⟨r, hr, hmade⟩ := bind_eq_ok_iff.mp hmade
  cases pure_eq_ok_iff.mp hmade
  exact ⟨_, r, hr, hsub ((mem_filterMap_id_of_mapM hsteps).mpr ⟨f, hfield, hstep⟩)⟩

/-! ### Small enumerations in a catalog -/

/-- A field of an entity **looks up** an enumeration in a catalog: its column has the type of keys,
and a foreign key to the lookup table of the enumeration, which is in the catalog. -/
structure LooksUp (c : Converter) (k : Catalog) (owner : Entity) (f : Field) (e : Enumeration)
    (t : Table) : Prop where
  /-- The table of the entity is in the catalog. -/
  table : t ∈ k.tables ∧ c.table owner = .ok t
  /-- The field has a column, of the type of keys. -/
  column : ∃ col, t.column? f.name = some col ∧ col.dataType = c.enumKeyType
  /-- The column gives the primary key of the lookup table. -/
  foreignKey : ∃ name r target, .foreignKey name [f.name] r ∈ t.constraints ∧
    k.table? r.table = some target ∧ target.primaryKey = r.columns ∧ c.lookupTable e = .ok target

/-- A catalog **keeps small enumerations out** when all its labels differ and every field that
refers to an enumeration without different labels looks it up. -/
structure KeepsSmallOut (c : Converter) (roots : List String) (k : Catalog) : Prop where
  /-- The labels of enumeration types differ. -/
  enums : ∀ u ∈ k.enums, LabelsDiffer u.values
  /-- The labels in data types differ, at any depth. -/
  typeParts : ∀ labels, .enumeration labels ∈ k.typeParts → LabelsDiffer labels
  /-- Enumerations without different labels are looked up. -/
  fields : ∀ owner, c.registry.ReachesDefinition roots (.entity owner) → ∀ f ∈ owner.fields,
    ∀ e, c.registry.enumeration? f.type.unadorned = some e → ¬ LabelsDiffer e.valueLabels →
      ∃ t, c.LooksUp k owner f e t

/-- The labels of enumeration types differ. -/
theorem labelsDiffer_of_mem_enums (hr : c.reachable roots = .ok types)
    (hp : c.objects types = .ok p) {u : EnumerationType} (hu : u ∈ (c.group p).enums) :
    LabelsDiffer u.values := by
  obtain ⟨o, ho, rfl⟩ := mem_enums_group.mp hu
  obtain ⟨e, he, hplaced⟩ := exists_of_mem_right (forall₂_enums hp) ho
  obtain ⟨-, -, hcount, -⟩ :=
    (mem_nativeEnums_iff fun d hd => ((mem_reachable_iff hr).mp hd).1).mp he
  rw [(enumType_eq_ok hplaced.object).2]
  exact Enumeration.two_le_distinctCount_iff.mp hcount

/-- A field that refers to a small enumeration looks it up. -/
theorem looksUp_of_isSmall (hf : c.options.factory.Faithful)
    (hs : c.options.SubstitutesPrimitives) (hr : c.reachable roots = .ok types)
    (hp : c.objects types = .ok p) (howner : c.registry.ReachesDefinition roots (.entity owner))
    (hfield : f ∈ owner.fields) (he : c.registry.enumeration? f.type.unadorned = some e)
    (hsmall : c.isSmall e = true) : ∃ t, c.LooksUp (c.group p) owner f e t := by
  have howner := (mem_reachable_iff hr).mpr howner
  have hrole := role_of_isSmall he hsmall
  have hlooked : c.lookedUp? f = some e := by simp [lookedUp?, hrole]
  have hitem : .enumeration e ∈ c.keyItems f := by simp [keyItems, hrole]
  have horigin : .entity owner ∈ c.tableItems (types.filterMap Definition.entity?) :=
    mem_tableItems_entity_iff.mpr (mem_entities_iff.mpr howner)
  obtain ⟨t, ht, hfound⟩ := table?_of_mem_tableItems hf hr hp horigin
  obtain ⟨-, columns, hcolumns, hformed, -⟩ := exists_parts_of_table hf ht
  obtain ⟨col, hcol, hmade⟩ :=
    exists_column_of_mem_fields hcolumns hfield (isRelationship_of_mem_keyItems hitem)
  obtain ⟨hname, htype⟩ := column_eq_ok hf hmade
  obtain ⟨name, r, href, hkey⟩ := exists_foreignKey_of_lookedUp? hf ht hfield hlooked
  have href : c.itemReference (.enumeration e) = .ok r := href
  obtain ⟨target, htarget, hlookup⟩ :=
    table?_of_mem_tableItems hf hr hp (mem_tableItems hr howner hfield (Or.inl hitem))
  obtain ⟨htable, hprimary⟩ := primaryKey_of_itemTable hf href htarget
  refine ⟨t, ⟨List.mem_of_find?_eq_some hfound, ht⟩,
    ⟨col, hname ▸ hformed.column?_eq hcol, ?_⟩,
    name, r, target, hkey, htable ▸ hlookup, hprimary, htarget⟩
  -- the column has the type of the enumeration, which is that of keys
  rw [mapMember, mapMemberAlong_eq] at htype
  have henum := mapEnum_of_mapMemberWith hs he htype
  rw [mapEnum_eq_enumKeyType (Or.inl hsmall)] at henum
  exact (Except.ok.inj henum).symm

/-- **Small enumerations** are kept out of every catalog, where enumerations are types or inlined
and no substitute has labels. -/
theorem keepsSmallOut_of_assemble (hf : c.options.factory.Faithful)
    (hk : c.options.factory.KeepsComposites)
    (hmode : c.options.enumMode = .type ∨ c.options.enumMode = .inlined)
    (hs : c.options.SubstitutesPrimitives)
    (hlabels : ∀ s ∈ c.options.substitutions, ∀ labels, .enumeration labels ∉ s.2.parts)
    (h : c.assemble roots = .ok k) : c.KeepsSmallOut roots k where
  enums u hu := by
    obtain ⟨types, p, hr, hp, rfl⟩ := assemble_eq_ok_iff.mp h
    exact labelsDiffer_of_mem_enums hr hp hu
  typeParts labels hd := by
    cases arises_of_mem_typeParts hf hk h hd with
    | plain hplain => cases hplain
    | substitute hsub hd => exact absurd hd (hlabels _ hsub labels)
    | labels _ hsmall => exact labelsDiffer_of_isSmall_eq_false hmode hsmall
  fields owner howner f hfield e he hsame := by
    obtain ⟨types, p, hr, hp, rfl⟩ := assemble_eq_ok_iff.mp h
    exact looksUp_of_isSmall hf hs hr hp howner hfield he ((isSmall_iff hmode).mpr hsame)

/-! ### A wardrobe -/

namespace Wardrobe

/-- Sizes. -/
def size : Enumeration := ⟨"Size", "app", [("small", .str "S"), ("large", .str "L")], none⟩

/-- Brands, which are all one. -/
def brand : Enumeration := ⟨"Brand", "app", [("own", .str "own"), ("other", .str "own")], none⟩

/-- The brand of a shirt. -/
def brandField : Field := { name := "brand", type := .forward "Brand" }

/-- Shirts come in sizes. -/
def shirt : Entity where
  name := "Shirt"
  moduleName := "app"
  primaryKey := "id"
  fields :=
    [{ name := "id", type := .primitive .int64 }, { name := "sizes", type := .list (.ref "Size") },
      brandField, { name := "brands", type := .list (.ref "Brand") }]

end Wardrobe

/-- A wardrobe, where enumerations are inlined. -/
def wardrobe : Converter where
  registry :=
    { types := [.enumeration Wardrobe.size, .enumeration Wardrobe.brand, .entity Wardrobe.shirt]
      nodup_names := by decide }
  options := { enumMode := .inlined }

theorem reachable_wardrobe : wardrobe.reachable ["Shirt"] =
    .ok (["Brand", "Shirt", "Size"].filterMap wardrobe.registry.get?) := by
  have hnames : wardrobe.registry.closure ["Shirt"] = .ok ["Shirt", "Size", "Brand"] := by cbv
  exact reachable_eq_ok hnames (by decide) (by decide)

/-- Sizes differ, so that a list of them is an array of labels; brands do not, and are looked up. -/
theorem keepsSmallOut_wardrobe : ∃ k, wardrobe.assemble ["Shirt"] = .ok k ∧
    k.typeParts.filter (fun d => !d.isPlain) =
      [.array (.enumeration ["S", "L"]), .enumeration ["S", "L"],
        .array (.varchar labelLimit)] ∧
    (∃ t, wardrobe.LooksUp k Wardrobe.shirt Wardrobe.brandField Wardrobe.brand t) ∧
    wardrobe.KeepsSmallOut ["Shirt"] k := by
  have htypes : (wardrobe.assemble ["Shirt"]).toOption.map
      (fun k => k.typeParts.filter fun d => !d.isPlain) =
        some [.array (.enumeration ["S", "L"]), .enumeration ["S", "L"],
          .array (.varchar labelLimit)] := by
    rw [assemble, reachable_wardrobe]
    decide +kernel
  obtain ⟨k, hk, htypes⟩ := exists_eq_ok_of_toOption htypes
  have hnone : ∀ s, s ∉ wardrobe.options.substitutions := fun _ => List.not_mem_nil
  have hkept := keepsSmallOut_of_assemble ObjectFactory.faithful_plain
    ObjectFactory.keepsComposites_plain (Or.inr rfl) (fun s hs => absurd hs (hnone s))
    (fun s hs => absurd hs (hnone s)) hk
  have hreached := (mem_reachable_iff reachable_wardrobe).mp
    (List.mem_filterMap.mpr ⟨"Shirt", by decide, rfl⟩)
  have hsame : ¬ LabelsDiffer Wardrobe.brand.valueLabels := by
    unfold LabelsDiffer
    decide
  exact ⟨k, hk, htypes,
    hkept.fields Wardrobe.shirt hreached Wardrobe.brandField (by simp [Wardrobe.shirt])
      Wardrobe.brand rfl hsame, hkept⟩

end Converter

end SchemaCatalog
