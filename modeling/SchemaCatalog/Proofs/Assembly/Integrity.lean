import SchemaCatalog.Proofs.Assembly.Objects
import SchemaCatalog.Proofs.Converter.KeyType

/-!
# Referential integrity

Foreign keys come from four sources: entity references, unions of entities, enumerations with
lookup tables, and the two sides of a join table. `exists_item_of_reference` treats them alike:
what a constraint points at is an item with a table of its own, and the constraint has a single
column, which is a column of its table. As the table of an item is found in the catalog under
its name, all foreign keys of a catalog resolve (`resolves_of_assemble`), and where the field
names of entities differ they also agree in type with the keys they give
(`agreesInType_of_assemble`).
-/

namespace SchemaCatalog

/-- A reference of a constraint **resolves** in a catalog: the local columns are columns of the
table of the constraint, and the reference gives the primary key of a table of the catalog. -/
structure Catalog.Resolves (k : Catalog) (t : Table) (con : Constraint) (r : KeyReference) :
    Prop where
  /-- The local columns are columns of the table. -/
  columns : ∀ name ∈ con.columns, name ∈ t.columns.keys
  /-- The reference gives the primary key of a table of the catalog. -/
  target : ∃ target, k.table? r.table = some target ∧ target.primaryKey = r.columns

/-- A reference of a constraint **agrees in type** in a catalog: each local column has the data
type of the column of the referenced table that it gives. -/
def Catalog.AgreesInType (k : Catalog) (t : Table) (con : Constraint) (r : KeyReference) : Prop :=
  ∃ target, k.table? r.table = some target ∧
    List.Forall₂ (fun name key => ∃ col keyCol, t.column? name = some col ∧
      target.column? key = some keyCol ∧ col.dataType = keyCol.dataType) con.columns r.columns

/-- The fields of each entity **differ in name**. -/
def Registry.DistinctFields (r : Registry) : Prop :=
  ∀ e, .entity e ∈ r.types → (e.fields.map Field.name).Nodup

namespace Converter

variable {c : Converter} {roots : List String} {types : List Definition} {p : PlacedObjects}

/-- A column of some data type **holds keys** of an item: it is the column of a field that
points to the item, or it has been given the key type of the item. -/
def HoldsKeysOf (c : Converter) (item : RelatedItem) (d : DataType) : Prop :=
  (∃ f, item ∈ c.keyItems f ∧ c.mapMember f.type = .ok d) ∨ ∃ key, c.relatedKey item = .ok (key, d)

/-- A constraint of a table **keys an item**: its only column is a column of the table, and it
holds keys of the item. -/
def Keys (c : Converter) (t : Table) (con : Constraint) (item : RelatedItem) : Prop :=
  ∃ name col, con.columns = [name] ∧ t.column? name = some col ∧ c.HoldsKeysOf item col.dataType

theorem keys_of_holdsKeys (hf : c.options.factory.Faithful) {e : Entity} {t : Table}
    (ht : c.table e = .ok t) {f : Field} (hfield : f ∈ e.fields) {con : Constraint}
    (h : c.HoldsKeys f con) {item : RelatedItem} (hitem : item ∈ c.keyItems f) :
    c.Keys t con item := by
  obtain ⟨-, columns, hcolumns, hformed, -⟩ := table_eq_ok hf ht
  obtain ⟨col, hcol, hmade⟩ := exists_column_of_mem_fields hcolumns hfield h.isColumn
  obtain ⟨hname, htype⟩ := column_eq_ok hf hmade
  have hfound := hformed.column?_eq hcol
  rw [hname] at hfound
  exact ⟨f.name, col, h.columns_eq, hfound, Or.inl ⟨f, hitem, htype⟩⟩

/-- **What foreign keys point at**: a reference of a placed table is the reference of an item
with a table of its own, and the constraint keys that item. -/
theorem exists_item_of_reference (hf : c.options.factory.Faithful)
    (hr : c.reachable roots = .ok types) (hp : c.objects types = .ok p) {o : String × Table}
    (ho : o ∈ p.tables) {con : Constraint} (hcon : con ∈ o.2.constraints) {r : KeyReference}
    (href : r ∈ con.references) :
    ∃ item ∈ c.tableItems (types.filterMap Definition.entity?),
      c.itemReference item = .ok r ∧ c.Keys o.2 con item := by
  obtain ⟨origin, horigin, hplaced⟩ := exists_of_mem_right (forall₂_tables hp) ho
  have hmade := hplaced.object
  have hnone : con.isUnique = true ∨ con.isCheck = true → False := by
    cases con <;> simp_all [Constraint.isUnique, Constraint.isCheck, Constraint.references]
  -- tables of items key what their fields hold, join tables key their two sides
  rcases List.mem_append.mp horigin with hitem | hjoin
  · obtain ⟨i, hi, rfl⟩ := List.mem_map.mp hitem
    cases i with
    | entity e =>
      obtain ⟨-, -, -, -, hconstraints⟩ := table_eq_ok hf hmade
      rcases hconstraints con hcon with hunique | hcheck | ⟨f, hfield, hholds⟩
      · exact (hnone (Or.inl hunique)).elim
      · exact (hnone (Or.inr hcheck)).elim
      · obtain ⟨item, hkey, hitem⟩ := hholds.references r href
        have he := mem_entities_iff.mp (mem_tableItems_entity_iff.mp hi)
        exact ⟨item, mem_tableItems hr he hfield (Or.inl hkey), hitem,
          keys_of_holdsKeys hf hmade hfield hholds hkey⟩
    | enumeration e =>
      obtain ⟨-, -, -, hconstraints⟩ := lookupTable_eq_ok hf hmade
      exact (hnone (Or.inl (hconstraints con hcon))).elim
  · obtain ⟨rel, hrel, rfl⟩ := List.mem_map.mp hjoin
    obtain ⟨howner, hfield, hrole⟩ := mem_relationships_iff.mp hrel
    have keys_of_keysItem : ∀ {item}, c.KeysItem o.2 con item →
        c.itemReference item = .ok r ∧ c.Keys o.2 con item := by
      intro item h
      obtain ⟨name, col, key, hcolumns, hcol, hkey⟩ := h.column
      obtain ⟨r', hr', hreference⟩ := h.references
      rw [hr', List.mem_singleton] at href
      exact ⟨href ▸ hreference, name, col, hcolumns, hcol, Or.inr ⟨key, hkey⟩⟩
    rcases (joinTable_eq_ok hf hmade).2 con hcon with hkeys | hkeys
    · exact ⟨_, mem_tableItems_entity_iff.mpr howner, keys_of_keysItem hkeys⟩
    · exact ⟨_, mem_tableItems hr (mem_entities_iff.mp howner) hfield (Or.inr hrole),
        keys_of_keysItem hkeys⟩

/-- **Referential integrity**: in an assembled catalog every foreign key, whatever it comes from,
has its columns in its table and gives the primary key of a table of the catalog. -/
theorem resolves_of_assemble (hf : c.options.factory.Faithful) {k : Catalog}
    (h : c.assemble roots = .ok k) :
    ∀ t ∈ k.tables, ∀ con ∈ t.constraints, ∀ r ∈ con.references, k.Resolves t con r := by
  obtain ⟨types, p, hr, hp, rfl⟩ := assemble_eq_ok_iff.mp h
  intro t ht con hcon r href
  obtain ⟨o, ho, rfl⟩ := mem_tables_group.mp ht
  obtain ⟨item, hitem, hreference, name, col, hcolumns, hcol, -⟩ :=
    exists_item_of_reference hf hr hp ho hcon href
  obtain ⟨target, htarget, hfound⟩ := table?_of_mem_tableItems hf hr hp hitem
  obtain ⟨hname, hkey⟩ := primaryKey_of_itemTable hf hreference htarget
  refine ⟨fun n hn => ?_, target, hname ▸ hfound, hkey⟩
  rw [hcolumns, List.mem_singleton] at hn
  exact hn ▸ OrderedMap.mem_keys_of_get? hcol

theorem resolves_blog : ∃ k, blog.assemble ["Post"] = .ok k ∧
    ((k.tables.flatMap Table.constraints).flatMap Constraint.references).length = 6 ∧
    ∀ t ∈ k.tables, ∀ con ∈ t.constraints, ∀ r ∈ con.references, k.Resolves t con r := by
  obtain ⟨k, hk, hlength⟩ := assemble_blog
  exact ⟨k, hk, hlength, resolves_of_assemble ObjectFactory.faithful_plain hk⟩

/-! ### Types -/

/-- A constraint that keys an item has a column of the type of keys of the item. -/
theorem relatedKey_of_holdsKeysOf (h : c.options.SubstitutesPrimitives) {item : RelatedItem}
    {d : DataType} (hd : c.HoldsKeysOf item d) : ∃ key, c.relatedKey item = .ok (key, d) := by
  rcases hd with ⟨f, hitem, hd⟩ | hkey
  · exact relatedKey_of_mem_keyItems h hitem hd
  · exact hkey

/-- **Foreign keys agree in type** with what they give: the local column, typed by its field,
and the referenced column, typed by the definition it belongs to, have one data type. -/
theorem agreesInType_of_assemble (hf : c.options.factory.Faithful)
    (hs : c.options.SubstitutesPrimitives) (hd : c.registry.DistinctFields) {k : Catalog}
    (h : c.assemble roots = .ok k) :
    ∀ t ∈ k.tables, ∀ con ∈ t.constraints, ∀ r ∈ con.references, k.AgreesInType t con r := by
  obtain ⟨types, p, hr, hp, rfl⟩ := assemble_eq_ok_iff.mp h
  intro t ht con hcon r href
  obtain ⟨o, ho, rfl⟩ := mem_tables_group.mp ht
  obtain ⟨item, hitem, hreference, name, col, hcolumns, hcol, hholds⟩ :=
    exists_item_of_reference hf hr hp ho hcon href
  obtain ⟨target, htarget, hfound⟩ := table?_of_mem_tableItems hf hr hp hitem
  obtain ⟨hname, -⟩ := primaryKey_of_itemTable hf hreference htarget
  obtain ⟨key, hkey⟩ := relatedKey_of_holdsKeysOf hs hholds
  have hfields : ∀ e, item = .entity e → (e.fields.map Field.name).Nodup := by
    rintro e rfl
    have he := mem_entities_iff.mp (mem_tableItems_entity_iff.mp hitem)
    exact hd e (Registry.get?_eq_some_iff.mp ((mem_reachable_iff hr).mp he).1).1
  obtain ⟨keyCol, hkeyCol, htype⟩ := exists_keyColumn_of_itemTable hf hfields htarget hkey
  -- the reference gives the one key column that the item is related by
  have hr_eq : r = ⟨target.name, [key]⟩ := by
    have hr' := itemReference_of_relatedKey hkey (qualifiedName_of_itemTable hf htarget)
    rw [hreference] at hr'
    cases hr'
    rfl
  refine ⟨target, hname ▸ hfound, ?_⟩
  rw [hcolumns, hr_eq]
  exact .cons ⟨col, keyCol, hcol, hkeyCol, htype.symm⟩ .nil

theorem agreesInType_blog : ∃ k, blog.assemble ["Post"] = .ok k ∧
    blog.options.SubstitutesPrimitives ∧ blog.registry.DistinctFields ∧
    ((k.tables.flatMap Table.constraints).flatMap Constraint.references).length = 6 ∧
    ∀ t ∈ k.tables, ∀ con ∈ t.constraints, ∀ r ∈ con.references, k.AgreesInType t con r := by
  have hs : blog.options.SubstitutesPrimitives := nofun
  have hd : blog.registry.DistinctFields := by
    intro e he
    simp only [blog, List.mem_cons, List.not_mem_nil, Definition.entity.injEq, reduceCtorEq,
      false_or, or_false] at he
    rcases he with rfl | rfl <;> decide
  obtain ⟨k, hk, hlength⟩ := assemble_blog
  exact ⟨k, hk, hs, hd, hlength, agreesInType_of_assemble ObjectFactory.faithful_plain hs hd hk⟩

end Converter

end SchemaCatalog
