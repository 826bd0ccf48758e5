import SchemaCatalog.Converter.Join
import SchemaCatalog.Proofs.Converter.Role
import SchemaCatalog.Proofs.Table

/-!
# The tables of items

The far side of a role has a table: an entity its own, an enumeration its lookup table
(`itemTable`). `itemReference` is what a key of an item points at, and
`primaryKey_of_itemTable` says that it points at the table of the item and at the primary key
of that table. In the table of an entity every foreign key is a single column that holds keys
of items (`holdsKeys_of_table`), and so it is in a join table (`joinTable_eq_ok`).
-/

namespace SchemaCatalog.Converter

variable {c : Converter} {e : Entity} {f : Field} {t : Table} {k : Constraint}

/-- The table of an item. -/
def itemTable (c : Converter) : RelatedItem → Except ConvertError Table
  | .entity e => c.table e
  | .enumeration e => c.lookupTable e

/-- What a key of an item points at. -/
def itemReference (c : Converter) : RelatedItem → Except ConvertError KeyReference
  | .entity e => c.keyReference e
  | .enumeration e => c.lookupReference e

/-- The namespace of a qualified name is that of its module, and its name and style are fixed. -/
theorem qualifiedName_eq_ok_iff {moduleName name : String} {n : QualifiedName} :
    c.qualifiedName moduleName name = .ok n ↔
      ∃ target, c.options.namespaces.target moduleName = .ok target ∧
        n = ⟨target, name, c.nameStyle⟩ := by
  rw [qualifiedName, bind_eq_ok_iff]
  simp only [pure_eq_ok_iff, eq_comm (b := n)]

/-- Every object of a module that has a target has a name. -/
theorem exists_qualifiedName {moduleName : String}
    (h : ∃ target, c.options.namespaces.target moduleName = .ok target) (name : String) :
    ∃ n, c.qualifiedName moduleName name = .ok n := by
  obtain ⟨target, htarget⟩ := h
  exact ⟨_, qualifiedName_eq_ok_iff.mpr ⟨target, htarget, rfl⟩⟩

theorem stem_of_qualifiedName {moduleName name : String} {n : QualifiedName}
    (h : c.qualifiedName moduleName name = .ok n) : c.stem moduleName name = .ok n.stem :=
  bind_eq_ok_iff.mpr ⟨n, h, rfl⟩

/-! ### Columns -/

/-- A column of a faithful factory has the name of its field and the data type of its type. -/
theorem column_eq_ok (hf : c.options.factory.Faithful) {col : Column} (h : c.column f = .ok col) :
    col.name = f.name ∧ c.mapMember f.type = .ok col.dataType := by
  obtain ⟨d, hd, h⟩ := bind_eq_ok_iff.mp h
  cases pure_eq_ok_iff.mp h
  exact ⟨hf.column_name _, by rw [hf.column_dataType, hd]⟩

/-- The columns of an entity are those of its fields other than relationships. -/
theorem mem_columns_iff {columns : List Column} (h : c.columns e = .ok columns) {col : Column} :
    col ∈ columns ↔
      ∃ f ∈ e.fields, c.isRelationship f.type = false ∧ c.column f = .ok col := by
  rw [mem_iff_of_mapM h]
  simp [and_assoc]

/-- A field that is no relationship has a column. -/
theorem exists_column_of_mem_fields {columns : List Column} (h : c.columns e = .ok columns)
    (hfield : f ∈ e.fields) (hplain : c.isRelationship f.type = false) :
    ∃ col ∈ columns, c.column f = .ok col :=
  exists_of_mem_left (mapM_eq_ok_iff.mp h)
    (List.mem_filter.mpr ⟨hfield, by rw [hplain, Bool.not_false]⟩)

/-! ### Foreign keys of an entity -/

/-- A constraint **holds keys** of a field: its column is that of the field, and it points at
items whose keys the column holds. -/
structure HoldsKeys (c : Converter) (f : Field) (k : Constraint) : Prop where
  /-- The local column is that of the field. -/
  columns_eq : k.columns = [f.name]
  /-- The field has a column. -/
  isColumn : c.isRelationship f.type = false
  /-- All that the constraint points at are items whose keys the column holds. -/
  references : ∀ r ∈ k.references, ∃ item ∈ c.keyItems f, c.itemReference item = .ok r

/-- A foreign key of a field to entities holds the keys of what the field refers to. -/
theorem holdsKeys_of_entityConstraint? {stem : String}
    (h : c.entityConstraint? stem f = .ok (some k)) : c.HoldsKeys f k := by
  unfold entityConstraint? at h
  split at h
  · rename_i target hrole
    obtain ⟨r, hr, h⟩ := bind_eq_ok_iff.mp h
    cases pure_eq_ok_iff.mp h
    have hitem : .entity target ∈ c.keyItems f := by simp [keyItems, hrole]
    refine ⟨rfl, isRelationship_of_mem_keyItems hitem, fun r' hr' => ?_⟩
    exact ⟨_, hitem, List.mem_singleton.mp hr' ▸ hr⟩
  · rename_i targets hrole
    obtain ⟨rs, hrs, h⟩ := bind_eq_ok_iff.mp h
    cases pure_eq_ok_iff.mp h
    refine ⟨rfl, ?_, fun r hr => ?_⟩
    · rw [Bool.eq_false_iff, ne_eq, isRelationship_iff]
      simp [hrole]
    · obtain ⟨target, htarget, hr⟩ := (mem_iff_of_mapM hrs).mp hr
      exact ⟨.entity target, by simpa [keyItems, hrole] using htarget, hr⟩
  · cases h

/-- A field that points at a lookup table holds keys of the enumeration. -/
theorem mem_keyItems_of_lookedUp? {e : Enumeration} (h : c.lookedUp? f = some e) :
    .enumeration e ∈ c.keyItems f := by
  unfold lookedUp? at h
  unfold keyItems
  split at h <;> simp_all

theorem holdsKeys_of_lookupConstraint? {stem : String}
    (h : c.lookupConstraint? stem f = .ok (some k)) : c.HoldsKeys f k := by
  unfold lookupConstraint? at h
  split at h
  · rename_i e hlooked
    obtain ⟨r, hr, h⟩ := bind_eq_ok_iff.mp h
    cases pure_eq_ok_iff.mp h
    have hitem := mem_keyItems_of_lookedUp? hlooked
    refine ⟨rfl, isRelationship_of_mem_keyItems hitem, fun r' hr' => ?_⟩
    exact ⟨_, hitem, List.mem_singleton.mp hr' ▸ hr⟩
  · cases h

/-- The optional results of a step for the fields of an entity. -/
theorem mem_filterMap_id_of_mapM {α β : Type} {step : α → Except ConvertError (Option β)}
    {as : List α} {bs : List (Option β)} (h : as.mapM step = .ok bs) {b : β} :
    b ∈ bs.filterMap id ↔ ∃ a ∈ as, step a = .ok (some b) := by
  rw [← mem_iff_of_mapM h]
  simp

/-- The constraints of an entity that settings can leave out in part: those of its unique
fields, and others that hold keys. -/
theorem constraints_eq_ok {constraints : List Constraint}
    (h : c.constraints e = .ok constraints) :
    ∃ stem, uniqueConstraints stem e ⊆ constraints ∧
      ∀ k ∈ constraints, k ∈ uniqueConstraints stem e ∨ ∃ f ∈ e.fields, c.HoldsKeys f k := by
  obtain ⟨stem, -, h⟩ := bind_eq_ok_iff.mp h
  refine ⟨stem, ?_⟩
  dsimp only at h
  split at h
  · obtain ⟨keys, hkeys, h⟩ := bind_eq_ok_iff.mp h
    cases pure_eq_ok_iff.mp h
    refine ⟨List.subset_append_left _ _, fun k hk => ?_⟩
    rcases List.mem_append.mp hk with hk | hk
    · exact Or.inl hk
    · obtain ⟨cs, hcs, h⟩ := bind_eq_ok_iff.mp hkeys
      cases pure_eq_ok_iff.mp h
      obtain ⟨f, hf, hstep⟩ := (mem_filterMap_id_of_mapM hcs).mp hk
      exact Or.inr ⟨f, hf, holdsKeys_of_entityConstraint? hstep⟩
  · cases pure_eq_ok_iff.mp h
    exact ⟨List.Subset.refl _, fun k hk => Or.inl hk⟩

/-- A uniqueness constraint is that of a field that is marked as unique. -/
theorem mem_uniqueConstraints_iff {stem : String} :
    k ∈ uniqueConstraints stem e ↔
      ∃ f ∈ e.fields, f.unique = true ∧ .unique ("uq_" ++ stem ++ "_" ++ f.name) [f.name] = k := by
  rw [uniqueConstraints, List.mem_map]
  simp only [List.mem_filter, and_assoc]

theorem holdsKeys_of_lookupConstraints {stem : String} {constraints : List Constraint}
    (h : c.lookupConstraints stem e = .ok constraints) (hk : k ∈ constraints) :
    ∃ f ∈ e.fields, c.HoldsKeys f k := by
  obtain ⟨cs, hcs, h⟩ := bind_eq_ok_iff.mp h
  cases pure_eq_ok_iff.mp h
  obtain ⟨f, hf, hstep⟩ := (mem_filterMap_id_of_mapM hcs).mp hk
  exact ⟨f, hf, holdsKeys_of_lookupConstraint? hstep⟩

theorem isCheck_of_checkConstraints {stem : String} (hk : k ∈ c.checkConstraints stem e) :
    k.isCheck = true := by
  unfold checkConstraints at hk
  split at hk
  · obtain ⟨f, -, h⟩ := List.mem_filterMap.mp hk
    unfold checkConstraint? at h
    split at h <;> cases h
    rfl
  · cases hk

/-! ### Tables -/

/-- **The table of an entity** is formed from its columns under its key, with the constraints
of its unique fields, those that hold keys, and checks. -/
theorem exists_parts_of_table (hf : c.options.factory.Faithful) (h : c.table e = .ok t) :
    c.qualifiedName e.moduleName e.name = .ok t.name ∧
      ∃ columns, c.columns e = .ok columns ∧
        t.FormedFrom t.name columns [e.primaryKey] t.constraints ∧
        ∃ stem, uniqueConstraints stem e ⊆ t.constraints ∧
          ∀ k ∈ t.constraints, k ∈ uniqueConstraints stem e ∨ k.isCheck = true ∨
            ∃ f ∈ e.fields, c.HoldsKeys f k := by
  unfold table ConvertError.nameOwner at h
  rw [mapError_eq_ok_iff] at h
  obtain ⟨columns, hcolumns, h⟩ := bind_eq_ok_iff.mp h
  obtain ⟨constraints, hconstraints, h⟩ := bind_eq_ok_iff.mp h
  obtain ⟨_, -, h⟩ := bind_eq_ok_iff.mp h
  obtain ⟨lookups, hlookups, h⟩ := bind_eq_ok_iff.mp h
  obtain ⟨n, hn, h⟩ := bind_eq_ok_iff.mp h
  have hformed := hf.formedFrom (mapError_eq_ok_iff.mp h)
  obtain rfl := hformed.name_eq
  have hconstraints_eq := hformed.constraints_eq
  obtain ⟨stem, hunique, hmem⟩ := constraints_eq_ok hconstraints
  refine ⟨hn, columns, hcolumns, hconstraints_eq ▸ hformed, stem, fun k hk => ?_, fun k hk => ?_⟩
  · rw [hconstraints_eq]
    exact List.mem_append_left _ (List.mem_append_left _ (hunique hk))
  · rw [hconstraints_eq] at hk
    rcases List.mem_append.mp hk with hk | hk
    · rcases List.mem_append.mp hk with hk | hk
      · exact (hmem k hk).imp_right Or.inr
      · exact Or.inr (Or.inr (holdsKeys_of_lookupConstraints hlookups hk))
    · exact Or.inr (Or.inl (isCheck_of_checkConstraints hk))

/-- The table of an entity is formed from its columns under its key, and each of its
constraints is a uniqueness constraint, a check, or holds keys of a field. -/
theorem table_eq_ok (hf : c.options.factory.Faithful) (h : c.table e = .ok t) :
    c.qualifiedName e.moduleName e.name = .ok t.name ∧
      ∃ columns, c.columns e = .ok columns ∧
        t.FormedFrom t.name columns [e.primaryKey] t.constraints ∧
        ∀ k ∈ t.constraints,
          k.isUnique = true ∨ k.isCheck = true ∨ ∃ f ∈ e.fields, c.HoldsKeys f k := by
  obtain ⟨hn, columns, hcolumns, hformed, stem, -, hmem⟩ := exists_parts_of_table hf h
  refine ⟨hn, columns, hcolumns, hformed, fun k hk => (hmem k hk).imp_left fun hunique => ?_⟩
  obtain ⟨f, -, -, rfl⟩ := mem_uniqueConstraints_iff.mp hunique
  rfl

/-- A lookup table has a key column of the type of enumeration keys, and no foreign key. -/
theorem lookupTable_eq_ok (hf : c.options.factory.Faithful) {e : Enumeration}
    (h : c.lookupTable e = .ok t) :
    c.qualifiedName e.moduleName e.name = .ok t.name ∧ t.primaryKey = [lookupKey] ∧
      (∃ col, t.column? lookupKey = some col ∧ col.dataType = c.enumKeyType) ∧
      ∀ k ∈ t.constraints, k.isUnique = true := by
  obtain ⟨labels, -, h⟩ := bind_eq_ok_iff.mp h
  obtain ⟨n, hn, h⟩ := bind_eq_ok_iff.mp h
  have hformed := hf.formedFrom (mapError_eq_ok_iff.mp h)
  refine ⟨hformed.name_eq ▸ hn, hformed.primaryKey_eq,
    hf.exists_column? hformed List.mem_cons_self, fun k hk => ?_⟩
  rw [hformed.constraints_eq] at hk
  cases List.mem_singleton.mp hk
  rfl

/-- A constraint of a table **keys an item**: its column holds keys of the item, and it points
at the item and at nothing else. -/
structure KeysItem (c : Converter) (t : Table) (k : Constraint) (item : RelatedItem) : Prop where
  /-- The local column is a column of the table and has the type of keys of the item. -/
  column : ∃ name col key, k.columns = [name] ∧ t.column? name = some col ∧
    c.relatedKey item = .ok (key, col.dataType)
  /-- The constraint points at the item. -/
  references : ∃ r, k.references = [r] ∧ c.itemReference item = .ok r

/-- What a join table refers to is the table of the item, by the key of the item. -/
theorem itemReference_of_relatedKey {item : RelatedItem} {key : String} {d : DataType}
    {n : QualifiedName} (hkey : c.relatedKey item = .ok (key, d))
    (hn : c.qualifiedName item.moduleName item.name = .ok n) :
    c.itemReference item = .ok ⟨n, [key]⟩ := by
  cases item with
  | entity e =>
    obtain ⟨f, hf, hkey⟩ := bind_eq_ok_iff.mp hkey
    obtain ⟨d', -, hkey⟩ := bind_eq_ok_iff.mp hkey
    cases pure_eq_ok_iff.mp hkey
    exact bind_eq_ok_iff.mpr ⟨f, hf, bind_eq_ok_iff.mpr ⟨n, hn, rfl⟩⟩
  | enumeration e =>
    cases hkey
    exact bind_eq_ok_iff.mpr ⟨n, hn, rfl⟩

/-- The name of the join table of a field of an entity. -/
def joinName (c : Converter) (owner : Entity) (fieldName : String) (item : RelatedItem) :
    Except ConvertError QualifiedName := do
  let stem ← c.stem owner.moduleName owner.name
  c.qualifiedName owner.moduleName (stem ++ "_" ++ fieldName ++ "_" ++ item.name)

/-- **A join table** is formed from a key of its own and a column for each side, with a foreign
key to each side. -/
theorem exists_parts_of_joinTable (hf : c.options.factory.Faithful) {name : String}
    {item : RelatedItem} (h : c.joinTable e name item = .ok t) :
    c.joinName e name item = .ok t.name ∧
      ∃ own left right leftType rightType key itemKey ownerName itemName,
        c.mapMember (.primitive .uuid) = .ok own ∧
        c.relatedKey (.entity e) = .ok (key, leftType) ∧
        c.relatedKey item = .ok (itemKey, rightType) ∧
        c.qualifiedName e.moduleName e.name = .ok ownerName ∧
        c.qualifiedName item.moduleName item.name = .ok itemName ∧
        t.FormedFrom t.name
          [c.joinColumn joinKey own, c.joinColumn left leftType, c.joinColumn right rightType]
          [joinKey]
          [.foreignKey ("jk_" ++ left) [left] ⟨ownerName, [key]⟩,
            .foreignKey ("jk_" ++ right) [right] ⟨itemName, [itemKey]⟩] := by
  obtain ⟨key, hkey, h⟩ := bind_eq_ok_iff.mp h
  obtain ⟨⟨itemKey, rightType⟩, hitem, h⟩ := bind_eq_ok_iff.mp h
  obtain ⟨ownerStem, hstem, h⟩ := bind_eq_ok_iff.mp h
  obtain ⟨itemStem, -, h⟩ := bind_eq_ok_iff.mp h
  obtain ⟨own, hown, h⟩ := bind_eq_ok_iff.mp h
  obtain ⟨leftType, hleft, h⟩ := bind_eq_ok_iff.mp h
  obtain ⟨ownerName, hownerName, h⟩ := bind_eq_ok_iff.mp h
  obtain ⟨itemName, hitemName, h⟩ := bind_eq_ok_iff.mp h
  obtain ⟨n, hn, h⟩ := bind_eq_ok_iff.mp h
  have hformed := hf.formedFrom (mapError_eq_ok_iff.mp h)
  obtain rfl := hformed.name_eq
  have howner : c.relatedKey (.entity e) = .ok (key.name, leftType) :=
    bind_eq_ok_iff.mpr ⟨key, hkey, bind_eq_ok_iff.mpr ⟨leftType, hleft, rfl⟩⟩
  exact ⟨bind_eq_ok_iff.mpr ⟨ownerStem, hstem, hn⟩, own, _, _, leftType, rightType, key.name,
    itemKey, ownerName, itemName, hown, howner, hitem, hownerName, hitemName, hformed⟩

/-- A join table stands with the owner of the relationship, and each of its constraints keys
the owner or the far side. -/
theorem joinTable_eq_ok (hf : c.options.factory.Faithful) {name : String} {item : RelatedItem}
    (h : c.joinTable e name item = .ok t) :
    (∃ joined, c.qualifiedName e.moduleName joined = .ok t.name) ∧
      ∀ k ∈ t.constraints, c.KeysItem t k (.entity e) ∨ c.KeysItem t k item := by
  obtain ⟨hname, own, left, right, leftType, rightType, key, itemKey, ownerName, itemName, -,
    howner, hitem, hownerName, hitemName, hformed⟩ := exists_parts_of_joinTable hf h
  obtain ⟨stem, -, hname⟩ := bind_eq_ok_iff.mp hname
  obtain ⟨leftColumn, hleft, hleftType⟩ :=
    hf.exists_column? hformed (List.mem_cons_of_mem _ List.mem_cons_self)
  obtain ⟨rightColumn, hright, hrightType⟩ := hf.exists_column? hformed
    (List.mem_cons_of_mem _ (List.mem_cons_of_mem _ List.mem_cons_self))
  refine ⟨⟨_, hname⟩, fun k hk => ?_⟩
  rw [hformed.constraints_eq] at hk
  rcases List.mem_cons.mp hk with rfl | hk
  · refine Or.inl ⟨⟨_, leftColumn, key, rfl, hleft, ?_⟩, _, rfl, ?_⟩
    · rw [hleftType]
      exact howner
    · exact itemReference_of_relatedKey howner hownerName
  · cases List.mem_singleton.mp hk
    refine Or.inr ⟨⟨_, rightColumn, itemKey, rfl, hright, ?_⟩, _, rfl, ?_⟩
    · rw [hrightType]
      exact hitem
    · exact itemReference_of_relatedKey hitem hitemName

theorem qualifiedName_of_itemTable (hf : c.options.factory.Faithful) {item : RelatedItem}
    (ht : c.itemTable item = .ok t) : c.qualifiedName item.moduleName item.name = .ok t.name := by
  cases item with
  | entity e => exact (table_eq_ok hf ht).1
  | enumeration e => exact (lookupTable_eq_ok hf ht).1

/-- A key of an item points at the table of the item, and at the primary key of that table. -/
theorem primaryKey_of_itemTable (hf : c.options.factory.Faithful) {item : RelatedItem}
    {r : KeyReference} (hr : c.itemReference item = .ok r) (ht : c.itemTable item = .ok t) :
    t.name = r.table ∧ t.primaryKey = r.columns := by
  cases item with
  | entity e =>
    obtain ⟨key, hkey, hr⟩ := bind_eq_ok_iff.mp hr
    obtain ⟨n, hn, hr⟩ := bind_eq_ok_iff.mp hr
    cases pure_eq_ok_iff.mp hr
    obtain ⟨hname, columns, -, hformed, -⟩ := table_eq_ok hf ht
    rw [hn] at hname
    cases hname
    exact ⟨rfl, by rw [hformed.primaryKey_eq, (Registry.mem_of_keyField hkey).2]⟩
  | enumeration e =>
    obtain ⟨n, hn, hr⟩ := bind_eq_ok_iff.mp hr
    cases pure_eq_ok_iff.mp hr
    obtain ⟨hname, hkey, -⟩ := lookupTable_eq_ok hf ht
    rw [hn] at hname
    cases hname
    exact ⟨rfl, hkey⟩

end SchemaCatalog.Converter
