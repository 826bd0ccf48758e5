import SchemaCatalog.Proofs.Converter.Member
import SchemaCatalog.Proofs.Converter.Table

/-!
# The shape of join tables

The columns of a join table are its own key and, for each side, a column whose name is derived from
the name of the side (`QualifiedName.derived`). A derived name has a separator, which the name of
the key has not (`joinKey_ne_derived`), but the two derived names may be one, as the separator may
stand in the names of entities and fields as well. This is the only way in which a join table can
fail once both sides have a name and a key (`joinTable_eq_ite`); otherwise it has one shape
(`joinTable_eq_error_iff`).
-/

namespace SchemaCatalog

/-- A name that is derived from that of an object: its stem and a suffix, with a separator in
between. -/
def QualifiedName.derived (n : QualifiedName) (suffix : String) : String := n.stem ++ "_" ++ suffix

/-- The name of the key column of an item. -/
def RelatedItem.keyName : RelatedItem → String
  | entity e => e.primaryKey
  | enumeration _ => Converter.lookupKey

namespace Converter

variable {c : Converter} {e : Entity} {item : RelatedItem}

/-- **The key of a join table has a name of its own**, whatever the names of the two sides are. -/
theorem joinKey_ne_derived (n : QualifiedName) (suffix : String) : joinKey ≠ n.derived suffix := by
  intro h
  have hmem : '_' ∈ joinKey.toList := by
    rw [h, QualifiedName.derived]
    simp
  revert hmem
  decide

/-! ### The two sides -/

/-- The key of an item has the name of its key column. -/
theorem keyName_of_relatedKey {key : String} {d : DataType}
    (h : c.relatedKey item = .ok (key, d)) : key = item.keyName := by
  cases item with
  | entity e =>
    obtain ⟨f, hf, h⟩ := bind_eq_ok_iff.mp h
    obtain ⟨d', -, h⟩ := bind_eq_ok_iff.mp h
    cases pure_eq_ok_iff.mp h
    exact (Registry.mem_of_keyField hf).2
  | enumeration e =>
    cases h
    rfl

/-- A column of a join table is plain, and accepts no nulls. -/
theorem joinColumn_plain (hplain : c.options.factory = .plain) (name : String) (d : DataType) :
    c.joinColumn name d = .plain name d false := by
  rw [joinColumn, hplain]
  rfl

/-! ### Forming a join table -/

section Sides

variable {n m : QualifiedName} {ownerKey itemKey : String} {ownerType itemType : DataType}
  (hn : c.qualifiedName e.moduleName e.name = .ok n)
  (hm : c.qualifiedName item.moduleName item.name = .ok m)
  (howner : c.relatedKey (.entity e) = .ok (ownerKey, ownerType))
  (hitem : c.relatedKey item = .ok (itemKey, itemType))
include hn hm howner hitem

/-- What a join table is formed from. -/
theorem exists_joinTable_eq (fieldName : String) : ∃ name, c.joinName e fieldName item = .ok name ∧
    c.joinTable e fieldName item =
      (c.options.factory.table name
        [c.joinColumn joinKey (c.mapPrimitive .uuid), c.joinColumn (n.derived fieldName) ownerType,
          c.joinColumn (m.derived itemKey) itemType]
        [joinKey]
        [.foreignKey ("jk_" ++ n.derived fieldName) [n.derived fieldName] ⟨n, [ownerKey]⟩,
          .foreignKey ("jk_" ++ m.derived itemKey) [m.derived itemKey] ⟨m, [itemKey]⟩]
        none).mapError .formation := by
  obtain ⟨key, hkey, howner⟩ := bind_eq_ok_iff.mp howner
  obtain ⟨d, hd, howner⟩ := bind_eq_ok_iff.mp howner
  cases pure_eq_ok_iff.mp howner
  -- the join table is one of the module of the owner, which has a target as the owner has a name
  obtain ⟨target, htarget, -⟩ := qualifiedName_eq_ok_iff.mp hn
  obtain ⟨name, hname⟩ := exists_qualifiedName ⟨target, htarget⟩
    (n.derived fieldName ++ "_" ++ item.name)
  have hstem := stem_of_qualifiedName hn
  refine ⟨name, bind_eq_ok_iff.mpr ⟨n.stem, hstem, hname⟩, ?_⟩
  unfold QualifiedName.derived at hname
  simp only [joinTable, hkey, hitem, hstem, stem_of_qualifiedName hm, mapMember_primitive, hd, hn,
    hm, hname, bind, Except.bind]
  rfl

/-- **A join table** is refused exactly when the columns of the two sides have one name. -/
theorem joinTable_eq_ite (hplain : c.options.factory = .plain) (fieldName : String) :
    ∃ name, c.joinName e fieldName item = .ok name ∧
      c.joinTable e fieldName item =
        if n.derived fieldName = m.derived itemKey then
          .error (.formation (.duplicateColumn name.compact (m.derived itemKey)))
        else
          .ok ⟨name,
            Table.columnsByName [.plain joinKey (c.mapPrimitive .uuid) false,
              .plain (n.derived fieldName) ownerType false,
              .plain (m.derived itemKey) itemType false],
            [joinKey],
            [.foreignKey ("jk_" ++ n.derived fieldName) [n.derived fieldName] ⟨n, [ownerKey]⟩,
              .foreignKey ("jk_" ++ m.derived itemKey) [m.derived itemKey] ⟨m, [itemKey]⟩],
            none⟩ := by
  obtain ⟨name, hname, htable⟩ := exists_joinTable_eq hn hm howner hitem fieldName
  refine ⟨name, hname, ?_⟩
  have hleft := joinKey_ne_derived n fieldName
  have hright := joinKey_ne_derived m itemKey
  rw [htable]
  simp only [joinColumn_plain hplain]
  rw [hplain]
  change (Table.form _ _ _ _ _).mapError _ = _
  split
  · rename_i hsame
    refine congrArg (Except.mapError ConvertError.formation) (Table.form_of_firstRepeated? ?_)
    simp [Column.plain, firstRepeated?, firstRepeatedAfter?, hsame, hright.symm]
  · rename_i hdiffer
    rw [Table.form_eq_ok_iff.mpr ⟨?_, ?_, ?_, ?_, rfl⟩]
    · rfl
    · simp [Column.plain, hleft, hright, hdiffer]
    · simp
    · simp [Column.plain]
    · simp [Constraint.name, hdiffer]

end Sides

/-- **The shape of join tables.** When both sides have a name and a key with a data type, the join
table fails exactly when the column of the owner, named after the field, and that of the far side,
named after its key, have one name, and then that name is the error; the name of the key is never
that of another column. Otherwise the table has its key and a column for each side, in this order
and without nulls, and two foreign keys, which point at the keys of the two sides. -/
theorem joinTable_eq_error_iff (hplain : c.options.factory = .plain) {n m : QualifiedName}
    {ownerKey itemKey : String} {ownerType itemType : DataType}
    (hn : c.qualifiedName e.moduleName e.name = .ok n)
    (hm : c.qualifiedName item.moduleName item.name = .ok m)
    (howner : c.relatedKey (.entity e) = .ok (ownerKey, ownerType))
    (hitem : c.relatedKey item = .ok (itemKey, itemType)) (fieldName : String) :
    ∃ name, c.joinName e fieldName item = .ok name ∧
      joinKey ≠ n.derived fieldName ∧ joinKey ≠ m.derived item.keyName ∧
      ((∃ err, c.joinTable e fieldName item = .error err) ↔
        n.derived fieldName = m.derived item.keyName) ∧
      (∀ err, c.joinTable e fieldName item = .error err →
        err = .formation (.duplicateColumn name.compact (m.derived item.keyName))) ∧
      (n.derived fieldName ≠ m.derived item.keyName →
        ∃ t, c.joinTable e fieldName item = .ok t ∧ t.name = name ∧
          t.columns.keys = [joinKey, n.derived fieldName, m.derived item.keyName] ∧
          t.columns.values.map Column.dataType = [c.mapPrimitive .uuid, ownerType, itemType] ∧
          (∀ col ∈ t.columns.values, col.nullable = false) ∧ t.primaryKey = [joinKey] ∧
          t.constraints =
            [.foreignKey ("jk_" ++ n.derived fieldName) [n.derived fieldName]
                ⟨n, [e.primaryKey]⟩,
              .foreignKey ("jk_" ++ m.derived item.keyName) [m.derived item.keyName]
                ⟨m, [item.keyName]⟩]) := by
  obtain rfl := keyName_of_relatedKey howner
  obtain rfl := keyName_of_relatedKey hitem
  obtain ⟨name, hname, htable⟩ := joinTable_eq_ite hn hm howner hitem hplain fieldName
  have hleft := joinKey_ne_derived n fieldName
  have hright := joinKey_ne_derived m item.keyName
  refine ⟨name, hname, hleft, hright, ?_⟩
  split at htable
  · rename_i hsame
    refine ⟨⟨fun _ => hsame, fun _ => ⟨_, htable⟩⟩, fun err herr => ?_, fun hne => absurd hsame hne⟩
    exact Except.error.inj (herr.symm.trans htable)
  · rename_i hdiffer
    refine ⟨⟨?_, fun hsame => absurd hsame hdiffer⟩, ?_, fun _ => ⟨_, htable, rfl, ?_⟩⟩
    · rintro ⟨err, herr⟩
      cases htable.symm.trans herr
    · intro err herr
      cases htable.symm.trans herr
    · rw [Table.keys_columnsByName (by simp [Column.plain, hleft, hright, hdiffer]),
        Table.values_columnsByName (by simp [Column.plain, hleft, hright, hdiffer])]
      exact ⟨rfl, rfl, by simp [Column.plain], rfl, rfl⟩

/-! ### Orders -/

namespace Orders

/-- Something with a number. -/
def numbered (name : String) : Entity where
  name := name
  moduleName := "app"
  primaryKey := "id"
  fields := [{ name := "id", type := .primitive .int64 }]

end Orders

/-- Orders and items, with default settings. -/
def orders : Converter where
  registry :=
    { types := [.entity (Orders.numbered "Order"), .entity (Orders.numbered "Item"),
        .entity (Orders.numbered "Order_Item")]
      nodup_names := by decide }
  options := {}

/-- The key of something with a number is the number. -/
theorem relatedKey_numbered (name : String) :
    orders.relatedKey (.entity (Orders.numbered name)) = .ok ("id", .integer 8) :=
  bind_eq_ok_iff.mpr ⟨_, rfl, bind_eq_ok_iff.mpr
    ⟨_, mapMember_primitive .int64, rfl⟩⟩

/-- Orders are joined with items by a field `items`; by a field `Item_id` they are not joined with
`Order_Item`, as both columns would be `Order_Item_id`. -/
theorem joinTable_eq_error_iff_orders :
    (∃ t, orders.joinTable (Orders.numbered "Order") "items" (.entity (Orders.numbered "Item")) =
        .ok t ∧ t.columns.keys = ["uuid", "Order_items", "Item_id"]) ∧
      ∃ err, orders.joinTable (Orders.numbered "Order") "Item_id"
        (.entity (Orders.numbered "Order_Item")) = .error err := by
  constructor
  · obtain ⟨name, -, -, -, -, -, htable⟩ := joinTable_eq_error_iff rfl rfl rfl
      (relatedKey_numbered "Order") (relatedKey_numbered "Item") "items"
    obtain ⟨t, ht, -, hkeys, -⟩ := htable (by decide +kernel)
    exact ⟨t, ht, hkeys.trans (by decide +kernel)⟩
  · obtain ⟨name, -, -, -, hfails, -⟩ := joinTable_eq_error_iff rfl rfl rfl
      (relatedKey_numbered "Order") (relatedKey_numbered "Order_Item") "Item_id"
    exact hfails.mpr (by decide +kernel)

end Converter

end SchemaCatalog
