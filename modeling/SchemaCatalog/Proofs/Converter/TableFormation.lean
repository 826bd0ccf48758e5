import SchemaCatalog.Proofs.Converter.KeyDepth
import SchemaCatalog.Proofs.Converter.KeySetting

/-!
# When tables are formed

The constraints of a table come from four places, and each derives the name of a constraint from
that of a field. Names of different kinds differ in the mark that they begin with, those of one kind
differ in the field; and two places that use one mark, foreign keys to entities and to lookup
tables, do so for different fields. So where fields have different names, so do constraints,
whatever the names are (`TablePieces.nodup_names_constraints`).

Hence an entity whose parts can all be made (`TableReady`) has a table unless its primary key is not
the name of a field with a column (`formation_iff_of_tableReady`).
-/

namespace SchemaCatalog.Converter

variable {c : Converter} {written : Bool} {e : Entity} {f : Field} {k : Constraint} {t : Table}

/-! ### Names of constraints -/

/-- Constraints of fields of different names, with one mark, have different names. -/
theorem nodup_names_of_marked (mark stem : String) {fields : List Field}
    (hn : (fields.map Field.name).Nodup) {g : Field → Option Constraint}
    (hg : ∀ f k, g f = some k → Marked mark stem f k) :
    ((fields.filterMap g).map Constraint.name).Nodup := by
  rw [List.Nodup, List.pairwise_map, List.pairwise_filterMap]
  rw [List.Nodup, List.pairwise_map] at hn
  exact hn.imp fun hne k hk k' hk' hname => hne ((hg _ _ hk).name_eq (hg _ _ hk') hname)

theorem nodup_names_uniqueConstraints (hn : (e.fields.map Field.name).Nodup) (stem : String) :
    ((uniqueConstraints stem e).map Constraint.name).Nodup := by
  have hfilterMap : uniqueConstraints stem e = e.fields.filterMap fun f =>
      if f.unique then some (.unique ("uq_" ++ stem ++ "_" ++ f.name) [f.name]) else none := by
    rw [uniqueConstraints, ← List.filterMap_eq_map, List.filterMap_filter]
    rfl
  rw [hfilterMap]
  refine nodup_names_of_marked "uq_" stem hn fun f k hk => ?_
  split at hk
  · cases hk
    exact rfl
  · cases hk

theorem nodup_names_lookupConstraints (hn : (e.fields.map Field.name).Nodup) {stem : String}
    {lookups : List Constraint} (h : c.lookupConstraints stem e = .ok lookups) :
    (lookups.map Constraint.name).Nodup := by
  obtain ⟨cs, hcs, h⟩ := bind_eq_ok_iff.mp h
  cases pure_eq_ok_iff.mp h
  rw [filterMap_id_of_mapM hcs]
  refine nodup_names_of_marked "fk_" stem hn fun f k hk => ?_
  have hstep := toOption_eq_some_iff.mp (Option.join_eq_some_iff.mp hk)
  exact (of_lookupConstraint? hstep).1

theorem nodup_names_checkConstraints (hn : (e.fields.map Field.name).Nodup) (stem : String) :
    ((c.checkConstraints stem e).map Constraint.name).Nodup := by
  unfold checkConstraints
  split
  · refine nodup_names_of_marked "ch_" stem hn fun f k hk => ?_
    unfold checkConstraint? at hk
    split at hk <;> cases hk
    exact rfl
  · exact List.nodup_nil

/-- **Names of constraints never collide** where fields have different names, whether foreign keys
to entities are written or not. -/
theorem TablePieces.nodup_names_constraints (p : TablePieces c e)
    (hn : (e.fields.map Field.name).Nodup) {keys : List Constraint}
    (hkeys : c.writtenKeys written p.stem e = .ok keys) :
    ((p.constraints keys).map Constraint.name).Nodup := by
  -- foreign keys to entities have been told from all others, so that these remain to be compared
  have hnone : ((p.constraints []).map Constraint.name).Nodup := by
    have huniques := nodup_names_uniqueConstraints hn p.stem
    have hlookups := nodup_names_lookupConstraints hn p.lookups_eq
    have hchecks := nodup_names_checkConstraints (c := c) hn p.stem
    rw [List.Nodup, List.pairwise_map] at huniques hlookups hchecks ⊢
    rw [TablePieces.constraints, List.append_nil]
    refine List.pairwise_append.mpr ⟨List.pairwise_append.mpr ⟨huniques, hlookups, ?_⟩, hchecks, ?_⟩
    · intro k hk k' hk'
      obtain ⟨f, hk⟩ := marked_of_uniqueConstraints hk
      obtain ⟨f', hk'⟩ := marked_of_lookupConstraints p.lookups_eq hk'
      exact hk.ne hk' rfl (by decide)
    · intro k hk k' hk'
      obtain ⟨f', hk'⟩ := marked_of_checkConstraints hk'
      rcases List.mem_append.mp hk with hk | hk
      · obtain ⟨f, hk⟩ := marked_of_uniqueConstraints hk
        exact hk.ne hk' rfl (by decide)
      · obtain ⟨f, hk⟩ := marked_of_lookupConstraints p.lookups_eq hk
        exact hk.ne hk' rfl (by decide)
  cases written with
  | false =>
    cases hkeys
    exact hnone
  | true => exact p.nodup_constraints (hn.sublist (List.filter_sublist.map _)) hkeys hnone

/-! ### What a table is made from -/

/-- The fields of an entity that have a column. -/
def columnFields (c : Converter) (e : Entity) : List Field :=
  e.fields.filter fun f => !c.isRelationship f.type

/-- The items that the constraints of a field point at: those whose keys its column holds, entities
only if foreign keys to them are written. -/
def constraintItems (c : Converter) (f : Field) : List RelatedItem :=
  (c.keyItems f).filter fun
    | .entity _ => c.options.foreignConstraints
    | .enumeration _ => true

/-- An entity is **ready** for its table when its fields have different names and all that the table
is made from is there, except that its primary key may be missing. -/
structure TableReady (c : Converter) (e : Entity) : Prop where
  /-- No two fields have one name. -/
  nodup_fields : (e.fields.map Field.name).Nodup
  /-- The module of the entity has a target. -/
  module_mapped : ∃ target, c.options.namespaces.target e.moduleName = .ok target
  /-- All fields that are no relationships have a data type. -/
  fields_mapped : ∀ f ∈ c.columnFields e, ∃ d, c.mapMember f.type = .ok d
  /-- The modules of all items that constraints point at have a target. -/
  items_mapped : ∀ f ∈ e.fields, ∀ item ∈ c.constraintItems f,
    ∃ target, c.options.namespaces.target item.moduleName = .ok target
  /-- All entities that constraints point at declare their key field. -/
  keys_declared : ∀ f ∈ e.fields, ∀ target, .entity target ∈ c.constraintItems f →
    ∃ key, target.keyField? = some key

namespace TableReady

/-- The columns of an entity that is ready are found. -/
theorem exists_columns (h : c.TableReady e) : ∃ columns, c.columns e = .ok columns := by
  refine exists_mapM_eq_ok fun f hf => ?_
  obtain ⟨d, hd⟩ := h.fields_mapped f hf
  exact ⟨_, bind_eq_ok_iff.mpr ⟨d, hd, rfl⟩⟩

theorem exists_writtenKeys (h : c.TableReady e) (stem : String) :
    ∃ keys, c.writtenKeys c.options.foreignConstraints stem e = .ok keys := by
  unfold writtenKeys
  split
  · rename_i hwritten
    obtain ⟨cs, hcs⟩ : ∃ cs, e.fields.mapM (c.entityConstraint? stem) = .ok cs := by
      refine exists_mapM_eq_ok fun f hf => exists_entityConstraint? stem fun target htarget => ?_
      have hitem : .entity target ∈ c.constraintItems f := List.mem_filter.mpr ⟨htarget, hwritten⟩
      obtain ⟨key, hkey⟩ := h.keys_declared f hf target hitem
      obtain ⟨n, hn⟩ := exists_qualifiedName (h.items_mapped f hf _ hitem) target.name
      exact ⟨_, bind_eq_ok_iff.mpr ⟨key, Registry.keyField_eq_ok_iff.mpr hkey,
        bind_eq_ok_iff.mpr ⟨n, hn, rfl⟩⟩⟩
    exact ⟨_, bind_eq_ok_iff.mpr ⟨cs, hcs, rfl⟩⟩
  · exact ⟨[], rfl⟩

theorem exists_lookupConstraints (h : c.TableReady e) (stem : String) :
    ∃ lookups, c.lookupConstraints stem e = .ok lookups := by
  obtain ⟨cs, hcs⟩ : ∃ cs, e.fields.mapM (c.lookupConstraint? stem) = .ok cs := by
    refine exists_mapM_eq_ok fun f hf => ?_
    unfold lookupConstraint?
    split
    · rename_i looked hlooked
      have hitem : .enumeration looked ∈ c.constraintItems f :=
        List.mem_filter.mpr ⟨mem_keyItems_of_lookedUp? hlooked, rfl⟩
      obtain ⟨n, hn⟩ := exists_qualifiedName (h.items_mapped f hf _ hitem) looked.name
      exact ⟨_, bind_eq_ok_iff.mpr ⟨_, bind_eq_ok_iff.mpr ⟨n, hn, rfl⟩, rfl⟩⟩
    · exact ⟨none, rfl⟩
  exact ⟨_, bind_eq_ok_iff.mpr ⟨cs, hcs, rfl⟩⟩

/-- All pieces of the table are there. -/
theorem nonempty_tablePieces (h : c.TableReady e) : Nonempty (TablePieces c e) := by
  obtain ⟨n, hn⟩ := exists_qualifiedName h.module_mapped e.name
  obtain ⟨columns, hcolumns⟩ := h.exists_columns
  obtain ⟨lookups, hlookups⟩ := h.exists_lookupConstraints n.stem
  exact ⟨⟨n, columns, n.stem, lookups, hn, hcolumns, stem_of_qualifiedName hn, hlookups⟩⟩

end TableReady

namespace TablePieces

variable (p : TablePieces c e)

/-- The columns bear the names of the fields that they are made from. -/
theorem names_columns (hf : c.options.factory.Faithful) :
    p.columns.map Column.name = (c.columnFields e).map Field.name :=
  (map_eq_map_of_forall₂ (mapM_eq_ok_iff.mp p.columns_eq) fun _ _ hcol =>
    (column_eq_ok hf hcol).1.symm).symm

theorem nodup_names_columns (hf : c.options.factory.Faithful)
    (hn : (e.fields.map Field.name).Nodup) : (p.columns.map Column.name).Nodup := by
  rw [p.names_columns hf]
  exact hn.sublist (List.filter_sublist.map _)

/-- The constraints of an entity are those of uniqueness and the foreign keys that are written. -/
theorem constraints_eq {keys : List Constraint}
    (hkeys : c.writtenKeys c.options.foreignConstraints p.stem e = .ok keys) :
    c.constraints e = .ok (uniqueConstraints p.stem e ++ keys) := by
  refine bind_eq_ok_iff.mpr ⟨p.stem, p.stem_eq, ?_⟩
  unfold writtenKeys at hkeys
  dsimp only
  split at hkeys
  · rw [if_pos ‹_›]
    exact bind_eq_ok_iff.mpr ⟨keys, hkeys, rfl⟩
  · cases hkeys
    rw [if_neg ‹_›, List.append_nil]
    rfl

/-- The table is formed from the pieces, unless the primary key is not the name of a field with a
column. -/
theorem table_eq (hplain : c.options.factory = .plain) (hn : (e.fields.map Field.name).Nodup)
    {keys : List Constraint}
    (hkeys : c.writtenKeys c.options.foreignConstraints p.stem e = .ok keys) :
    c.table e =
      if e.primaryKey ∈ (c.columnFields e).map Field.name then
        .ok ⟨p.name, Table.columnsByName p.columns, [e.primaryKey], p.constraints keys,
          e.description⟩
      else
        .error (.within e.name (.formation (.missingPrimaryKeyColumn p.name.compact
          e.primaryKey))) := by
  have hf : c.options.factory.Faithful := hplain ▸ ObjectFactory.faithful_plain
  have htable : c.table e = ConvertError.nameOwner e.name
      ((Table.form p.name p.columns [e.primaryKey] (p.constraints keys) e.description).mapError
        .formation) := by
    rw [table, tableParts, p.columns_eq, p.constraints_eq hkeys, p.stem_eq, hplain]
    change ConvertError.nameOwner e.name (c.lookupConstraints p.stem e >>= _) = _
    rw [p.lookups_eq]
    change ConvertError.nameOwner e.name (c.qualifiedName e.moduleName e.name >>= _) = _
    rw [p.name_eq]
    rfl
  rw [htable, Table.form_singleton (p.nodup_names_columns hf hn)
    (p.nodup_names_constraints hn hkeys), p.names_columns hf]
  split <;> rfl

end TablePieces

/-! ### Tables -/

/-- **A table fails only for a missing key column.** For an entity that is ready for its table,
constraints have different names, whatever names, flags and roles its fields have. The table is not
formed exactly when the primary key is not the name of a field with a column, and then the error is
that of a missing key column. Otherwise the columns are those of the fields that are no
relationships, in order. -/
theorem formation_iff_of_tableReady (hplain : c.options.factory = .plain) (h : c.TableReady e) :
    ∃ n stem constraints lookups, c.qualifiedName e.moduleName e.name = .ok n ∧
      c.stem e.moduleName e.name = .ok stem ∧ c.constraints e = .ok constraints ∧
      c.lookupConstraints stem e = .ok lookups ∧
      ((constraints ++ lookups ++ c.checkConstraints stem e).map Constraint.name).Nodup ∧
      ((∃ source, c.table e = .error (.within e.name (.formation source))) ↔
        e.primaryKey ∉ (c.columnFields e).map Field.name) ∧
      (∀ err, c.table e = .error err →
        err = .within e.name (.formation (.missingPrimaryKeyColumn n.compact e.primaryKey))) ∧
      (e.primaryKey ∈ (c.columnFields e).map Field.name →
        ∃ t, c.table e = .ok t ∧ t.columns.keys = (c.columnFields e).map Field.name ∧
          List.Forall₂ (fun f col => c.column f = .ok col) (c.columnFields e) t.columns.values ∧
          t.constraints = constraints ++ lookups ++ c.checkConstraints stem e) := by
  have hf : c.options.factory.Faithful := hplain ▸ ObjectFactory.faithful_plain
  obtain ⟨p⟩ := h.nonempty_tablePieces
  obtain ⟨keys, hkeys⟩ := h.exists_writtenKeys p.stem
  have htable := p.table_eq hplain h.nodup_fields hkeys
  refine ⟨p.name, p.stem, _, p.lookups, p.name_eq, p.stem_eq, p.constraints_eq hkeys, p.lookups_eq,
    p.nodup_names_constraints h.nodup_fields hkeys, ?_⟩
  split at htable
  · rename_i hkey
    refine ⟨⟨?_, fun hmissing => absurd hkey hmissing⟩, ?_, fun _ => ⟨_, htable, ?_, ?_, rfl⟩⟩
    · rintro ⟨source, herr⟩
      cases htable.symm.trans herr
    · intro err herr
      cases htable.symm.trans herr
    · rw [Table.keys_columnsByName (p.nodup_names_columns hf h.nodup_fields), p.names_columns hf]
    · rw [Table.values_columnsByName (p.nodup_names_columns hf h.nodup_fields)]
      exact mapM_eq_ok_iff.mp p.columns_eq
  · rename_i hkey
    refine ⟨⟨fun _ => hkey, fun _ => ⟨_, htable⟩⟩, fun err herr => ?_, fun hmem => absurd hmem hkey⟩
    exact Except.error.inj (herr.symm.trans htable)

/-! ### A courier -/

namespace Courier

/-- How a parcel travels. -/
def route : Enumeration where
  name := "Route"
  moduleName := "app"
  members := [("road", .str "road"), ("rail", .str "rail")]

/-- A place where parcels are kept. -/
def site : Entity where
  name := "Site"
  moduleName := "app"
  primaryKey := "code"
  fields := [{ name := "code", type := .primitive .string }]

/-- Parcels have constraints of all kinds, some of them for one field; their stops are a
relationship. -/
def parcel (key : String) : Entity where
  name := "Parcel"
  moduleName := "app"
  primaryKey := key
  fields :=
    [{ name := "id", type := .primitive .int64, unique := true },
      { name := "site", type := .ref "Site", unique := true },
      { name := "last", type := .union [.ref "Site", .forward "Site"] },
      { name := "route", type := .annotated (.ref "Route") [], unique := true },
      { name := "via", type := .union [.ref "Route", .primitive .string] },
      { name := "stops", type := .list (.ref "Site"), unique := true }]

end Courier

/-- A courier, where values of enumerations are checked. -/
def courier : Converter where
  registry :=
    { types := [.enumeration Courier.route, .entity Courier.site]
      nodup_names := by decide }
  options := { enumMode := .check }

/-- Parcels are ready for their table, whatever their key. -/
theorem tableReady_parcel (key : String) : courier.TableReady (Courier.parcel key) where
  nodup_fields := (by decide : ["id", "site", "last", "route", "via", "stops"].Nodup)
  module_mapped := ⟨none, rfl⟩
  fields_mapped f hf := by
    have hfields : courier.columnFields (Courier.parcel key) =
        (Courier.parcel key).fields.take 5 :=
      rfl
    rw [hfields] at hf
    simp only [Courier.parcel, List.take_succ_cons, List.take_zero, List.mem_cons, List.not_mem_nil,
      or_false] at hf
    rcases hf with rfl | rfl | rfl | rfl | rfl <;>
      exact ⟨_, mapMember_eq_ok_iff.mpr ⟨2, rfl⟩⟩
  items_mapped _ _ _ _ := ⟨none, rfl⟩
  keys_declared f _ target htarget := by
    -- only sites are registered
    have hitem := mem_items_of_mem_keyItems (List.mem_filter.mp htarget).1
    have hmem := (Registry.get?_eq_some_iff.mp (get?_of_mem_items hitem).1).1
    obtain rfl : target = Courier.site := by simpa [courier, RelatedItem.definition] using hmem
    exact ⟨_, rfl⟩

/-- Parcels have a table when they are known by a number, and none when they are known by their
stops, which have no column. -/
theorem formation_iff_of_tableReady_parcel :
    (∃ t, courier.table (Courier.parcel "id") = .ok t ∧
      t.columns.keys = ["id", "site", "last", "route", "via"]) ∧
      courier.table (Courier.parcel "stops") =
        .error (.within "Parcel" (.formation (.missingPrimaryKeyColumn "Parcel" "stops"))) := by
  constructor
  · obtain ⟨n, stem, constraints, lookups, -, -, -, -, -, -, -, htable⟩ :=
      formation_iff_of_tableReady rfl (tableReady_parcel "id")
    obtain ⟨t, ht, hkeys, -⟩ := htable (by decide)
    exact ⟨t, ht, hkeys⟩
  · obtain ⟨n, stem, constraints, lookups, hn, -, -, -, -, hfails, herror, -⟩ :=
      formation_iff_of_tableReady rfl (tableReady_parcel "stops")
    obtain ⟨source, hsource⟩ := hfails.mpr (by decide)
    cases hn
    rw [hsource, herror _ hsource]
    rfl

end SchemaCatalog.Converter
