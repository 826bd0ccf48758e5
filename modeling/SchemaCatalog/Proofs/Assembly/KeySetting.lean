import SchemaCatalog.Proofs.Assembly.Objects
import SchemaCatalog.Proofs.Assembly.Uses
import SchemaCatalog.Proofs.Converter.KeySetting

/-!
# Catalogs with and without foreign keys between entities

The setting for foreign keys between entity tables changes nothing else in a catalog: the catalog
without them is the one with them, the foreign keys to entities deleted from each entity table, and
one is assembled exactly when the other is (`toOption_assemble_withoutKeys`). For the converse of
deleting, a foreign key needs an entity with a key to point at: what a field points at is reached,
and has a table already, of which the key is a column.
-/

namespace SchemaCatalog

/-- A catalog with its tables changed, in place. -/
def Catalog.mapTables (g : Table → Table) (k : Catalog) : Catalog :=
  ⟨k.namespaces.map fun ns => { ns with tables := ns.tables.map g }⟩

namespace PlacedObjects

/-- Placed objects with their tables changed, in place. -/
def mapTables (g : Table → Table) (p : PlacedObjects) : PlacedObjects :=
  { p with tables := p.tables.map (Prod.map id g) }

variable (g : Table → Table)

theorem places_map (objects : List (String × Table)) :
    places (objects.map (Prod.map id g)) = places objects := by
  simp [places, Function.comp_def]

theorem inPlace_map (name : String) (objects : List (String × Table)) :
    inPlace name (objects.map (Prod.map id g)) = (inPlace name objects).map g := by
  simp [inPlace, List.filter_map, Function.comp_def]

theorem byPlace_map (objects : List (String × Table)) :
    byPlace (objects.map (Prod.map id g)) = (byPlace objects).map g := by
  simp only [byPlace, places_map, inPlace_map, List.map_flatMap]

end PlacedObjects

/-- Changing placed tables changes the tables of the catalog. -/
theorem Converter.group_mapTables (c : Converter) (g : Table → Table) (p : PlacedObjects) :
    c.group (p.mapTables g) = (c.group p).mapTables g := by
  unfold Converter.group
  split
  · simp [PlacedObjects.qualifiedCatalog, PlacedObjects.mapTables, Catalog.mapTables,
      PlacedObjects.places_map, PlacedObjects.inPlace_map]
  · simp [PlacedObjects.prefixedCatalog, PlacedObjects.mapTables, Catalog.mapTables,
      PlacedObjects.byPlace_map]

namespace Converter

/-- The registered entity that a table is the table of, if there is one. -/
def tableEntity? (c : Converter) (t : Table) : Option Entity :=
  (c.registry.types.filterMap Definition.entity?).find? fun e => (c.table e).toOption = some t

/-- A table without foreign keys to entities if it is the table of an entity, and as it is
otherwise. -/
def deleteEntityKeys (c : Converter) (t : Table) : Table :=
  match c.tableEntity? t with
  | some e => c.withoutEntityKeys e t
  | none => t

variable {c : Converter} {written : Bool} {roots : List String} {types : List Definition}
  {p : PlacedObjects} {e : Entity} {t : Table}

/-! ### Whose table a table is -/

/-- The entity of a table is the registered one whose table it is. -/
theorem tableEntity?_eq_some (h : c.tableEntity? t = some e) :
    c.registry.get? e.name = some (.entity e) ∧ c.table e = .ok t := by
  have htable := List.find?_some h
  refine ⟨?_, toOption_eq_some_iff.mp (of_decide_eq_true htable)⟩
  exact Registry.get?_eq_some_iff.mpr ⟨mem_entities_iff.mp (List.mem_of_find?_eq_some h), rfl⟩

theorem name_of_table (hf : c.options.factory.Faithful) (h : c.table e = .ok t) :
    t.name.name = e.name := by
  obtain ⟨target, -, hname⟩ := qualifiedName_eq_ok_iff.mp (table_eq_ok hf h).1
  rw [hname]

/-- **Deleting the keys of the table of an entity** finds this entity, and deletes those of its
constraints that are keys of it. -/
theorem deleteEntityKeys_table (hf : c.options.factory.Faithful)
    (hget : c.registry.get? e.name = some (.entity e)) (h : c.table e = .ok t) :
    c.deleteEntityKeys t = c.withoutEntityKeys e t := by
  have hmem : e ∈ c.registry.types.filterMap Definition.entity? :=
    mem_entities_iff.mpr (Registry.get?_eq_some_iff.mp hget).1
  have hsome : (c.tableEntity? t).isSome = true :=
    List.find?_isSome.mpr ⟨e, hmem, decide_eq_true (toOption_eq_some_iff.mpr h)⟩
  obtain ⟨e', he'⟩ := Option.isSome_iff_exists.mp hsome
  -- the table bears the name of its entity, and a name stands for one definition
  obtain ⟨hget', h'⟩ := tableEntity?_eq_some he'
  rw [← name_of_table hf h', name_of_table hf h, hget] at hget'
  cases hget'
  rw [deleteEntityKeys, he']

/-- Nothing is deleted from a lookup table, which is that of no entity. -/
theorem deleteEntityKeys_lookupTable (hf : c.options.factory.Faithful) {n : Enumeration}
    (hget : c.registry.get? n.name = some (.enumeration n)) (h : c.lookupTable n = .ok t) :
    c.deleteEntityKeys t = t := by
  unfold deleteEntityKeys
  split
  · rename_i e he
    obtain ⟨hget', h'⟩ := tableEntity?_eq_some he
    obtain ⟨target, -, hname⟩ := qualifiedName_eq_ok_iff.mp (lookupTable_eq_ok hf h).1
    rw [← name_of_table hf h', hname, hget] at hget'
    cases hget'
  · rfl

/-- The table of an entity has no constraint that is named as those of join tables are. -/
theorem name_ne_of_table (hplain : c.options.factory = .plain)
    (h : (c.writingKeys written).table e = .ok t) {k : Constraint} (hk : k ∈ t.constraints)
    (rest : String) : k.name ≠ "jk_" ++ rest := by
  obtain ⟨p, keys, hkeys, hform⟩ := (table_writingKeys_iff hplain).mp h
  obtain ⟨-, -, -, -, rfl⟩ := Table.form_eq_ok_iff.mp hform
  rcases List.mem_append.mp hk with hk | hcheck
  · rcases List.mem_append.mp hk with hk | hlookup
    · rcases List.mem_append.mp hk with hunique | hkey
      · obtain ⟨f, hmarked⟩ := marked_of_uniqueConstraints hunique
        exact hmarked.name_ne rfl (by decide)
      · obtain ⟨f, hmarked | hmarked⟩ := marked_of_writtenKeys hkeys hkey
        · exact hmarked.name_ne rfl (by decide)
        · exact hmarked.name_ne rfl (by decide)
    · obtain ⟨f, hmarked⟩ := marked_of_lookupConstraints p.lookups_eq hlookup
      exact hmarked.name_ne rfl (by decide)
  · obtain ⟨f, hmarked⟩ := marked_of_checkConstraints hcheck
    exact hmarked.name_ne rfl (by decide)

/-- Nothing is deleted from a join table, which is that of no entity. -/
theorem deleteEntityKeys_joinTable (hplain : c.options.factory = .plain) {name : String}
    {item : RelatedItem} (h : c.joinTable e name item = .ok t) :
    (c.writingKeys written).deleteEntityKeys t = t := by
  have hf : c.options.factory.Faithful := hplain ▸ ObjectFactory.faithful_plain
  unfold deleteEntityKeys
  split
  · rename_i e' he'
    obtain ⟨-, own, left, right, leftType, rightType, key, itemKey, ownerName, itemName, -, -, -, -,
      -, hformed⟩ := exists_parts_of_joinTable hf h
    obtain ⟨-, h'⟩ := tableEntity?_eq_some he'
    have hmem : .foreignKey ("jk_" ++ left) [left] ⟨ownerName, [key]⟩ ∈ t.constraints :=
      hformed.constraints_eq ▸ List.mem_cons_self
    exact absurd rfl (name_ne_of_table hplain h' hmem left)
  · rfl

/-! ### Objects that do not depend on the setting -/

section Independence

variable (c written)

/-- Which enumerations become types does not depend on foreign keys. -/
theorem nativeEnums_writingKeys : (c.writingKeys written).nativeEnums = c.nativeEnums :=
  nativeEnums_of_registry rfl rfl

theorem enumTypes_writingKeys : (c.writingKeys written).enumTypes = c.enumTypes := by
  funext types
  unfold enumTypes
  rw [nativeEnums_writingKeys]
  rfl

theorem compositeTypes_writingKeys : (c.writingKeys written).compositeTypes = c.compositeTypes := by
  funext types
  unfold compositeTypes
  rw [composite_writingKeys]
  rfl

theorem lookupTables_writingKeys : (c.writingKeys written).lookupTables = c.lookupTables := by
  funext native entities
  unfold lookupTables
  rw [lookupTable_writingKeys]
  rfl

theorem joinTables_writingKeys : (c.writingKeys written).joinTables = c.joinTables := by
  funext entities
  unfold joinTables fieldJoin?
  rw [joinTable_writingKeys]
  rfl

end Independence

/-- Only the tables of entities depend on the setting. -/
theorem objects_writingKeys_iff :
    (c.writingKeys written).objects types = .ok p ↔
      c.enumTypes types = .ok p.enums ∧ c.compositeTypes types = .ok p.structs ∧
        ∃ tables lookups joins,
          (c.writingKeys written).entityTables (types.filterMap Definition.entity?) = .ok tables ∧
          c.lookupTables (c.nativeEnums types) (types.filterMap Definition.entity?) = .ok lookups ∧
          c.joinTables (types.filterMap Definition.entity?) = .ok joins ∧
          tables ++ lookups ++ joins = p.tables := by
  rw [objects_eq_ok_iff, enumTypes_writingKeys, compositeTypes_writingKeys,
    lookupTables_writingKeys, nativeEnums_writingKeys, joinTables_writingKeys]

/-! ### Deleting foreign keys from placed tables -/

/-- A list of placed tables that a change keeps is kept by it. -/
theorem map_eq_self_of_placed {g : Table → Table} {tables : List (String × Table)}
    (h : ∀ o ∈ tables, g o.2 = o.2) : tables.map (Prod.map id g) = tables := by
  calc tables.map (Prod.map id g) = tables.map id :=
        List.map_congr_left fun o ho => Prod.ext rfl (h o ho)
    _ = tables := List.map_id tables

/-- **The tables of entities without foreign keys** are those with them, but for the keys. -/
theorem entityTables_withoutKeys (hplain : c.options.factory = .plain) {entities : List Entity}
    (hget : ∀ e ∈ entities, c.registry.get? e.name = some (.entity e))
    {tables : List (String × Table)}
    (h : (c.writingKeys true).entityTables entities = .ok tables) :
    (c.writingKeys false).entityTables entities =
      .ok (tables.map (Prod.map id (c.writingKeys true).deleteEntityKeys)) := by
  have hf : (c.writingKeys true).options.factory.Faithful :=
    hplain ▸ ObjectFactory.faithful_plain
  refine mapM_eq_ok_iff.mpr (List.forall₂_map_right_iff.mpr ?_)
  have hplaced := mapM_eq_ok_iff.mp h
  clear h
  induction hplaced with
  | nil => exact .nil
  | @cons e o entities tables ho _ ih =>
    refine .cons ?_ (ih fun e' he' => hget e' (List.mem_cons_of_mem _ he'))
    obtain ⟨hplace, htable⟩ := placedFrom_iff.mp ho
    refine placedFrom_iff.mpr ⟨hplace, ?_⟩
    rw [Prod.map_snd, deleteEntityKeys_table hf (hget e List.mem_cons_self) htable]
    exact table_withoutKeys hplain htable

/-- **Leaving foreign keys to entities out** deletes them from the tables among the objects. -/
theorem objects_withoutKeys (hplain : c.options.factory = .plain)
    (hr : c.reachable roots = .ok types) (h : (c.writingKeys true).objects types = .ok p) :
    (c.writingKeys false).objects types =
      .ok (p.mapTables (c.writingKeys true).deleteEntityKeys) := by
  have hf : c.options.factory.Faithful := hplain ▸ ObjectFactory.faithful_plain
  obtain ⟨henums, hstructs, tables, lookups, joins, htables, hlookups, hjoins, hall⟩ :=
    objects_writingKeys_iff.mp h
  have hget : ∀ e ∈ types.filterMap Definition.entity?,
      c.registry.get? e.name = some (.entity e) :=
    fun e he => ((mem_reachable_iff hr).mp (mem_entities_iff.mp he)).1
  -- neither lookup tables nor join tables are tables of entities
  have hlookups_kept : ∀ o ∈ lookups, (c.writingKeys true).deleteEntityKeys o.2 = o.2 := by
    intro o ho
    obtain ⟨origin, horigin, hplaced⟩ := exists_of_mem_right (forall₂_lookupTables hlookups) ho
    obtain ⟨n, hn, rfl⟩ := List.mem_map.mp horigin
    obtain ⟨owner, -, f, -, hlookup⟩ := mem_lookupEnums_iff.mp hn
    have htable : c.lookupTable n = .ok o.2 := hplaced.object
    refine deleteEntityKeys_lookupTable (c := c.writingKeys true) hf (n := n) ?_ ?_
    · exact get?_of_lookup (mem_keyItems_or_relationship_iff.mp hlookup)
    · rw [lookupTable_writingKeys, htable]
  have hjoins_kept : ∀ o ∈ joins, (c.writingKeys true).deleteEntityKeys o.2 = o.2 := by
    intro o ho
    obtain ⟨origin, horigin, hplaced⟩ := exists_of_mem_right (forall₂_joinTables hjoins) ho
    obtain ⟨r, -, rfl⟩ := List.mem_map.mp horigin
    exact deleteEntityKeys_joinTable hplain hplaced.object
  refine objects_writingKeys_iff.mpr ⟨henums, hstructs, _, lookups, joins,
    entityTables_withoutKeys hplain hget htables, hlookups, hjoins, ?_⟩
  rw [PlacedObjects.mapTables, ← hall, List.map_append, List.map_append,
    map_eq_self_of_placed hlookups_kept, map_eq_self_of_placed hjoins_kept]

/-- An entity with a table can be pointed at. -/
theorem exists_keyReference (hf : c.options.factory.Faithful)
    (h : (c.writingKeys written).table e = .ok t) : ∃ r, c.keyReference e = .ok r := by
  obtain ⟨hname, columns, hcolumns, hformed, -⟩ := table_eq_ok (c := c.writingKeys written) hf h
  -- the primary key is a column, so that a field bears its name
  obtain ⟨col, hcol, hkey⟩ := List.mem_map.mp (hformed.key_mem _ List.mem_cons_self)
  rw [columns_writingKeys] at hcolumns
  obtain ⟨f, hfield, -, hcolumn⟩ := (mem_columns_iff hcolumns).mp hcol
  have hname' : f.name = e.primaryKey := (column_eq_ok hf hcolumn).1.symm.trans hkey
  have hsome : e.keyField?.isSome = true :=
    List.find?_isSome.mpr ⟨f, hfield, by simp [hname']⟩
  obtain ⟨key, hkey⟩ := Option.isSome_iff_exists.mp hsome
  exact ⟨_, bind_eq_ok_iff.mpr ⟨key, Registry.keyField_eq_ok_iff.mpr hkey,
    bind_eq_ok_iff.mpr ⟨t.name, hname, rfl⟩⟩⟩

/-- **Writing foreign keys to entities** does not fail where the objects can be made without
them. -/
theorem exists_objects_writingKeys (hplain : c.options.factory = .plain)
    (hr : c.reachable roots = .ok types) (h : (c.writingKeys false).objects types = .ok p) :
    ∃ p', (c.writingKeys true).objects types = .ok p' := by
  have hf : c.options.factory.Faithful := hplain ▸ ObjectFactory.faithful_plain
  obtain ⟨henums, hstructs, tables, lookups, joins, htables, hlookups, hjoins, -⟩ :=
    objects_writingKeys_iff.mp h
  have hmade : ∀ e ∈ types.filterMap Definition.entity?,
      ∃ o, c.PlacedFrom e.moduleName ((c.writingKeys false).table e) o := by
    intro e he
    obtain ⟨o, -, ho⟩ := exists_of_mem_left (mapM_eq_ok_iff.mp htables) he
    obtain ⟨hplace, htable⟩ := placedFrom_iff.mp ho
    exact ⟨o, hplace, htable⟩
  obtain ⟨tables', htables'⟩ : ∃ tables',
      (c.writingKeys true).entityTables (types.filterMap Definition.entity?) = .ok tables' := by
    refine exists_mapM_eq_ok fun e he => ?_
    obtain ⟨o, hplace, htable⟩ := hmade e he
    obtain ⟨t', ht'⟩ := exists_table_writingKeys hplain htable fun f hf' target htarget => by
      have htarget : .entity target ∈ c.tableItems (types.filterMap Definition.entity?) :=
        mem_tableItems hr (mem_entities_iff.mp he) hf' (Or.inl htarget)
      obtain ⟨o', -, htable'⟩ := hmade target (mem_tableItems_entity_iff.mp htarget)
      exact exists_keyReference hf htable'
    exact ⟨(o.1, t'), placedFrom_iff.mpr ⟨hplace, ht'⟩⟩
  exact ⟨⟨p.enums, p.structs, tables' ++ lookups ++ joins⟩, objects_writingKeys_iff.mpr
    ⟨henums, hstructs, tables', lookups, joins, htables', hlookups, hjoins, rfl⟩⟩

/-- **The setting deletes foreign keys between entity tables and does nothing else**: with and
without them a catalog is assembled from the same roots, and the one is the other with these
constraints deleted from the tables of entities. -/
theorem toOption_assemble_withoutKeys (hplain : c.options.factory = .plain)
    (roots : List String) :
    ((c.writingKeys false).assemble roots).toOption =
      ((c.writingKeys true).assemble roots).toOption.map
        (Catalog.mapTables (c.writingKeys true).deleteEntityKeys) := by
  have hgroup : ∀ written, (c.writingKeys written).group = c.group := fun _ => rfl
  have hreachable : ∀ written, (c.writingKeys written).reachable = c.reachable := fun _ => rfl
  have hdeleted : ∀ {k}, (c.writingKeys true).assemble roots = .ok k →
      (c.writingKeys false).assemble roots =
        .ok (k.mapTables (c.writingKeys true).deleteEntityKeys) := by
    intro k hk
    obtain ⟨types, p, hr, hp, rfl⟩ := assemble_eq_ok_iff.mp hk
    rw [hreachable] at hr
    refine assemble_eq_ok_iff.mpr ⟨types, _, hr, objects_withoutKeys hplain hr hp, ?_⟩
    rw [hgroup, hgroup, group_mapTables]
  ext k
  rw [Option.map_eq_some_iff]
  simp only [toOption_eq_some_iff]
  constructor
  · intro hk
    obtain ⟨types, p, hr, hp, -⟩ := assemble_eq_ok_iff.mp hk
    obtain ⟨p', hp'⟩ := exists_objects_writingKeys hplain hr hp
    have hk' : (c.writingKeys true).assemble roots = .ok _ :=
      assemble_eq_ok_iff.mpr ⟨types, p', hr, hp', rfl⟩
    refine ⟨_, hk', ?_⟩
    rw [hdeleted hk'] at hk
    exact Except.ok.inj hk
  · rintro ⟨k', hk', rfl⟩
    exact hdeleted hk'

/-- The catalog of the blog without foreign keys to entities is the one with them, these deleted:
of its six references three remain, one to a lookup table and two in a join table. -/
theorem toOption_assemble_blog_withoutKeys :
    blog.options.factory = .plain ∧
      ((blog.writingKeys false).assemble ["Post"]).toOption =
        ((blog.writingKeys true).assemble ["Post"]).toOption.map
          (Catalog.mapTables (blog.writingKeys true).deleteEntityKeys) ∧
      ((blog.writingKeys false).assemble ["Post"]).toOption.map (fun k =>
        ((k.tables.flatMap Table.constraints).flatMap Constraint.references).length) = some 3 := by
  refine ⟨rfl, toOption_assemble_withoutKeys rfl ["Post"], ?_⟩
  have hreachable : (blog.writingKeys false).reachable ["Post"] = blog.reachable ["Post"] := rfl
  rw [assemble, hreachable, reachable_blog]
  decide +kernel

end Converter

end SchemaCatalog
