import SchemaCatalog.Converter.Composite
import SchemaCatalog.Proofs.Converter.Member
import SchemaCatalog.Proofs.Converter.Simple
import SchemaCatalog.Proofs.Converter.Table

/-!
# Writing foreign keys between entities, or leaving them out

`c.writingKeys b` is the converter `c` with the setting for foreign keys between entity tables set
to `b`. Only the constraints of entity tables depend on the setting. With it the table of an entity
has the same constraints and the foreign keys to entities besides (`table_writingKeys_iff`), which
bear names of their own and can be told from the others (`isEntityKey`); so leaving them out
deletes them (`table_withoutKeys`), and writing them can only fail where an entity that is pointed
at has no key (`exists_table_writingKeys`).
-/

namespace SchemaCatalog.Converter

/-- A converter that writes foreign keys between entity tables, or leaves them out. -/
def writingKeys (c : Converter) (written : Bool) : Converter :=
  { c with options := { c.options with foreignConstraints := written } }

variable {c : Converter} {written : Bool} {e : Entity} {f : Field} {k : Constraint} {t : Table}

/-! ### What does not depend on the setting -/

section Independence

variable (c written)

/-- Data types do not depend on whether foreign keys are written. -/
theorem mapSimpleWith_writingKeys (ofEnum : Enumeration → Except ConvertError DataType)
    (t : NativeType) :
    (c.writingKeys written).mapSimpleWith ofEnum t = c.mapSimpleWith ofEnum t := by
  have hskips : (c.writingKeys written).options.skips = c.options.skips := rfl
  unfold mapSimpleWith
  rw [refine_congr hskips]
  rfl

theorem mapEnum_writingKeys : (c.writingKeys written).mapEnum = c.mapEnum := by
  have hvalues : (c.writingKeys written).mapEnumValues = c.mapEnumValues := by
    funext e
    unfold mapEnumValues
    simp only [mapSimpleWith_writingKeys]
  funext e
  unfold mapEnum
  rw [hvalues]
  rfl

theorem mapSimple_writingKeys : (c.writingKeys written).mapSimple = c.mapSimple := by
  funext t
  rw [mapSimple, mapSimple, mapEnum_writingKeys, mapSimpleWith_writingKeys]

theorem mapList_writingKeys : (c.writingKeys written).mapList = c.mapList := by
  have harray : (c.writingKeys written).mapSimpleArray = c.mapSimpleArray := by
    funext t item
    unfold mapSimpleArray mapEnumValues
    simp only [mapSimple_writingKeys, mapSimpleWith_writingKeys]
    rfl
  funext t item
  unfold mapList
  rw [harray]
  rfl

theorem mapReference_writingKeys : (c.writingKeys written).mapReference = c.mapReference := by
  funext ofKey name
  unfold mapReference
  rw [mapEnum_writingKeys]
  rfl

mutual

/-- One step of mapping does not depend on the setting, whatever stands for the types of keys. -/
theorem mapMemberWith_writingKeys (ofKey : NativeType → Except ConvertError DataType) :
    ∀ t : NativeType,
      (c.writingKeys written).mapMemberWith ofKey t = c.mapMemberWith ofKey t
  | .primitive _ | .ref _ | .forward _ | .literal _ | .list _ | .custom _ _ => by
    unfold mapMemberWith
    simp only [mapReference_writingKeys, mapList_writingKeys]
    rfl
  | .annotated base as => by
    unfold mapMemberWith
    simp only [mapSimple_writingKeys, mapMemberWith_writingKeys ofKey base]
    rfl
  | .union members => by
    unfold mapMemberWith
    simp only [mapMembersWith_writingKeys ofKey members]
    rfl

theorem mapMembersWith_writingKeys (ofKey : NativeType → Except ConvertError DataType) :
    ∀ ts : List NativeType,
      (c.writingKeys written).mapMembersWith ofKey ts = c.mapMembersWith ofKey ts
  | [] => rfl
  | t :: ts => by
    unfold mapMembersWith
    rw [mapMemberWith_writingKeys ofKey t, mapMembersWith_writingKeys ofKey ts]

end

/-- Keys are followed in the same way with and without foreign keys. -/
theorem mapMemberAlong_writingKeys (keys : List NativeType) (t : NativeType) :
    (c.writingKeys written).mapMemberAlong keys t = c.mapMemberAlong keys t := by
  rw [mapMemberAlong_eq, mapMemberAlong_eq, mapMemberWith_writingKeys]
  congr 1
  funext key
  unfold keyAlong
  split
  · exact mapMemberAlong_writingKeys (otherKeys key keys) key
  · rfl
termination_by keys.length
decreasing_by exact length_otherKeys_lt ‹_›

/-- **Types are mapped in the same way** with and without foreign keys. -/
theorem mapMember_writingKeys : (c.writingKeys written).mapMember = c.mapMember :=
  funext fun t => c.mapMemberAlong_writingKeys written _ t

theorem columns_writingKeys : (c.writingKeys written).columns = c.columns := by
  funext e
  unfold columns column
  rw [mapMember_writingKeys]
  rfl

/-- Join tables have their foreign keys in any case. -/
theorem joinTable_writingKeys : (c.writingKeys written).joinTable = c.joinTable := by
  have hkey : (c.writingKeys written).relatedKey = c.relatedKey := by
    funext item
    unfold relatedKey
    rw [mapMember_writingKeys]
    rfl
  funext e name item
  unfold joinTable
  rw [mapMember_writingKeys, hkey]
  rfl

/-- Lookup tables have no foreign keys to leave out. -/
theorem lookupTable_writingKeys : (c.writingKeys written).lookupTable = c.lookupTable := by
  funext e
  unfold lookupTable
  rw [mapSimple_writingKeys]
  rfl

/-- Composite types have no foreign keys to leave out. -/
theorem composite_writingKeys : (c.writingKeys written).composite = c.composite := by
  funext d
  unfold composite compositeMember
  rw [mapMember_writingKeys]
  rfl

end Independence

/-! ### Constraints of a table -/

/-- Whether a field holds the key of one entity. -/
def refersToEntity (c : Converter) (f : Field) : Bool :=
  match c.role f.type with
  | .entity _ => true
  | _ => false

/-- Whether a constraint of the table of an entity is a foreign key to entities: that of a field
that holds the key of one entity, or one to several tables. -/
def isEntityKey (c : Converter) (e : Entity) : Constraint → Bool
  | .foreignKey _ columns _ => e.fields.any fun f => c.refersToEntity f && columns == [f.name]
  | .discriminated .. => true
  | .unique .. | .check .. => false

/-- The table of an entity without its foreign keys to entities. -/
def withoutEntityKeys (c : Converter) (e : Entity) (t : Table) : Table :=
  { t with constraints := t.constraints.filter fun k => !c.isEntityKey e k }

/-- A name of a constraint **begins** with a mark for its kind, before a stem and a field. -/
def Marked (mark stem : String) (f : Field) (k : Constraint) : Prop :=
  k.name = mark ++ stem ++ "_" ++ f.name

/-- A name with a mark does not begin with another mark of the same length. -/
theorem Marked.name_ne {mark mark' stem rest : String} (hk : Marked mark stem f k)
    (hlength : mark.toList.length = mark'.toList.length) (hne : mark ≠ mark') :
    k.name ≠ mark' ++ rest := by
  intro h
  rw [hk] at h
  have hlist := congrArg String.toList h
  simp only [String.toList_append, List.append_assoc] at hlist
  exact hne (String.toList_inj.mp (List.append_inj_left hlist hlength))

/-- Constraints of marks of one length have different names when the marks differ. -/
theorem Marked.ne {mark mark' stem : String} {g : Field} {k' : Constraint}
    (hk : Marked mark stem f k) (hk' : Marked mark' stem g k')
    (hlength : mark.toList.length = mark'.toList.length) (hne : mark ≠ mark') :
    k.name ≠ k'.name := by
  rw [hk', String.append_assoc, String.append_assoc]
  exact hk.name_ne hlength hne

/-- Constraints of one mark and one name belong to fields of one name. -/
theorem Marked.name_eq {mark stem : String} {g : Field} {k' : Constraint}
    (hk : Marked mark stem f k) (hk' : Marked mark stem g k') (h : k.name = k'.name) :
    f.name = g.name := by
  rw [hk, hk'] at h
  have hlist := congrArg String.toList h
  simp only [String.toList_append, List.append_assoc] at hlist
  exact String.toList_inj.mp (by simpa using hlist)

/-- A field refers to an entity when this is its role. -/
theorem refersToEntity_iff :
    c.refersToEntity f = true ↔ ∃ target, c.role f.type = .entity target := by
  unfold refersToEntity
  cases c.role f.type <;> simp

theorem isRelationship_of_refersToEntity (h : c.refersToEntity f = true) :
    c.isRelationship f.type = false := by
  obtain ⟨target, hrole⟩ := refersToEntity_iff.mp h
  rw [Bool.eq_false_iff, ne_eq, isRelationship_iff]
  simp [hrole]

/-- The uniqueness of a field is marked as such. -/
theorem marked_of_uniqueConstraints {stem : String} (h : k ∈ uniqueConstraints stem e) :
    ∃ f, Marked "uq_" stem f k := by
  obtain ⟨f, -, -, rfl⟩ := mem_uniqueConstraints_iff.mp h
  exact ⟨f, rfl⟩

/-- A constraint that an entity has for a field is a foreign key of the field or discriminates among
its keys. -/
theorem marked_of_entityConstraint? {stem : String}
    (h : c.entityConstraint? stem f = .ok (some k)) :
    Marked "fk_" stem f k ∧ c.refersToEntity f = true ∨ Marked "dk_" stem f k := by
  unfold entityConstraint? at h
  split at h
  · rename_i target hrole
    obtain ⟨r, -, h⟩ := bind_eq_ok_iff.mp h
    cases pure_eq_ok_iff.mp h
    exact Or.inl ⟨rfl, refersToEntity_iff.mpr ⟨target, hrole⟩⟩
  · obtain ⟨rs, -, h⟩ := bind_eq_ok_iff.mp h
    cases pure_eq_ok_iff.mp h
    exact Or.inr rfl
  · cases h

theorem isEntityKey_of_entityConstraint? {stem : String} (hf : f ∈ e.fields)
    (h : c.entityConstraint? stem f = .ok (some k)) : c.isEntityKey e k = true := by
  unfold entityConstraint? at h
  split at h
  · rename_i target hrole
    obtain ⟨r, -, h⟩ := bind_eq_ok_iff.mp h
    cases pure_eq_ok_iff.mp h
    refine List.any_eq_true.mpr ⟨f, hf, ?_⟩
    simp [refersToEntity_iff.mpr ⟨target, hrole⟩]
  · obtain ⟨rs, -, h⟩ := bind_eq_ok_iff.mp h
    cases pure_eq_ok_iff.mp h
    rfl
  · cases h

/-- A foreign key to a lookup table is no key of an entity. -/
theorem of_lookupConstraint? {stem : String} (h : c.lookupConstraint? stem f = .ok (some k)) :
    Marked "fk_" stem f k ∧ c.refersToEntity f = false ∧ k.isForeignKey = true := by
  unfold lookupConstraint? at h
  split at h
  · rename_i e hlooked
    obtain ⟨r, -, h⟩ := bind_eq_ok_iff.mp h
    cases pure_eq_ok_iff.mp h
    refine ⟨rfl, ?_, rfl⟩
    unfold lookedUp? at hlooked
    unfold refersToEntity
    split at hlooked <;> simp_all
  · cases h

theorem marked_of_lookupConstraints {stem : String} {lookups : List Constraint}
    (h : c.lookupConstraints stem e = .ok lookups) (hk : k ∈ lookups) :
    ∃ f, Marked "fk_" stem f k := by
  obtain ⟨cs, hcs, h⟩ := bind_eq_ok_iff.mp h
  cases pure_eq_ok_iff.mp h
  obtain ⟨f, -, hstep⟩ := (mem_filterMap_id_of_mapM hcs).mp hk
  exact ⟨f, (of_lookupConstraint? hstep).1⟩

theorem marked_of_checkConstraints {stem : String} (h : k ∈ c.checkConstraints stem e) :
    ∃ f, Marked "ch_" stem f k := by
  unfold checkConstraints at h
  split at h
  · obtain ⟨f, -, h⟩ := List.mem_filterMap.mp h
    unfold checkConstraint? at h
    split at h <;> cases h
    exact ⟨f, rfl⟩
  · cases h

/-! ### Constraints of fields with columns of different names -/

section Columns

variable (hnodup : ((e.fields.filter fun f => !c.isRelationship f.type).map Field.name).Nodup)
include hnodup

/-- Fields with columns of one name are one field. -/
theorem eq_of_name_eq {g : Field} (hf : f ∈ e.fields) (hfcolumn : c.isRelationship f.type = false)
    (hg : g ∈ e.fields) (hgcolumn : c.isRelationship g.type = false) (h : f.name = g.name) :
    f = g :=
  List.inj_on_of_nodup_map hnodup (List.mem_filter.mpr ⟨hf, by simp [hfcolumn]⟩)
    (List.mem_filter.mpr ⟨hg, by simp [hgcolumn]⟩) h

/-- A foreign key to a lookup table is not taken for one to an entity. -/
theorem isEntityKey_of_lookupConstraint? {stem : String} (hf : f ∈ e.fields)
    (h : c.lookupConstraint? stem f = .ok (some k)) : c.isEntityKey e k = false := by
  obtain ⟨-, hrefers, hforeign⟩ := of_lookupConstraint? h
  obtain ⟨hcolumns, hcolumn, -⟩ := holdsKeys_of_lookupConstraint? h
  cases k with
  | foreignKey name columns reference =>
    obtain rfl : columns = [f.name] := hcolumns
    rw [isEntityKey, List.any_eq_false]
    intro g hg hkey
    obtain ⟨hgrefers, hname⟩ := Bool.and_eq_true_iff.mp hkey
    have hname : f.name = g.name := by simpa using hname
    have hfg := eq_of_name_eq hnodup hf hcolumn hg (isRelationship_of_refersToEntity hgrefers) hname
    rw [← hfg, hrefers] at hgrefers
    cases hgrefers
  | _ => cases hforeign

/-- The foreign keys to entities have different names. -/
theorem nodup_entityConstraints {stem : String} {keys : List Constraint}
    (h : c.entityConstraints stem e = .ok keys) : (keys.map Constraint.name).Nodup := by
  obtain ⟨cs, hcs, h⟩ := bind_eq_ok_iff.mp h
  cases pure_eq_ok_iff.mp h
  have hfields : e.fields.Pairwise fun f g =>
      c.isRelationship f.type = false → c.isRelationship g.type = false → f.name ≠ g.name := by
    simpa [List.Nodup, List.pairwise_map, List.pairwise_filter] using hnodup
  rw [List.Nodup, List.pairwise_map, List.pairwise_filterMap]
  refine (pairwise_of_forall₂ (mapM_eq_ok_iff.mp hcs) hfields).imp ?_
  rintro _ _ ⟨f, -, g, -, hf, hg, hne⟩ k rfl k' rfl
  have hne := hne (holdsKeys_of_entityConstraint? hf).isColumn
    (holdsKeys_of_entityConstraint? hg).isColumn
  rcases marked_of_entityConstraint? hf with ⟨hk, -⟩ | hk <;>
    rcases marked_of_entityConstraint? hg with ⟨hk', -⟩ | hk'
  · exact fun hname => hne (hk.name_eq hk' hname)
  · exact hk.ne hk' rfl (by decide)
  · exact hk.ne hk' rfl (by decide)
  · exact fun hname => hne (hk.name_eq hk' hname)

/-- No foreign key to an entity bears the name of another constraint. -/
theorem name_ne_of_entityConstraints {stem : String} {keys lookups : List Constraint}
    (hkeys : c.entityConstraints stem e = .ok keys)
    (hlookups : c.lookupConstraints stem e = .ok lookups) {k' : Constraint} (hk : k ∈ keys)
    (hk' : k' ∈ uniqueConstraints stem e ++ lookups ++ c.checkConstraints stem e) :
    k.name ≠ k'.name := by
  obtain ⟨cs, hcs, hkeys⟩ := bind_eq_ok_iff.mp hkeys
  cases pure_eq_ok_iff.mp hkeys
  obtain ⟨f, hf, hstep⟩ := (mem_filterMap_id_of_mapM hcs).mp hk
  have hmarked := marked_of_entityConstraint? hstep
  rcases List.mem_append.mp hk' with hk' | hcheck
  · rcases List.mem_append.mp hk' with hunique | hlookup
    · obtain ⟨g, hk'⟩ := marked_of_uniqueConstraints hunique
      rcases hmarked with ⟨hk, -⟩ | hk <;> exact hk.ne hk' rfl (by decide)
    · obtain ⟨cs', hcs', hlookups⟩ := bind_eq_ok_iff.mp hlookups
      cases pure_eq_ok_iff.mp hlookups
      obtain ⟨g, hg, hstep'⟩ := (mem_filterMap_id_of_mapM hcs').mp hlookup
      obtain ⟨hk', hrefers', -⟩ := of_lookupConstraint? hstep'
      rcases hmarked with ⟨hk, hrefers⟩ | hk
      -- the two fields would be one
      · intro hname
        have hfg := eq_of_name_eq hnodup hf (isRelationship_of_refersToEntity hrefers) hg
          (holdsKeys_of_lookupConstraint? hstep').isColumn (hk.name_eq hk' hname)
        rw [hfg, hrefers'] at hrefers
        cases hrefers
      · exact hk.ne hk' rfl (by decide)
  · obtain ⟨g, hk'⟩ := marked_of_checkConstraints hcheck
    rcases hmarked with ⟨hk, -⟩ | hk <;> exact hk.ne hk' rfl (by decide)

/-- Of the constraints of a table, the foreign keys to entities are those that are taken for
such. -/
theorem filter_isEntityKey {stem : String} {keys lookups : List Constraint}
    (hkeys : c.entityConstraints stem e = .ok keys)
    (hlookups : c.lookupConstraints stem e = .ok lookups) :
    (uniqueConstraints stem e ++ keys ++ lookups ++ c.checkConstraints stem e).filter
        (fun k => !c.isEntityKey e k) =
      uniqueConstraints stem e ++ lookups ++ c.checkConstraints stem e := by
  obtain ⟨cs, hcs, hkeys⟩ := bind_eq_ok_iff.mp hkeys
  cases pure_eq_ok_iff.mp hkeys
  obtain ⟨cs', hcs', hlookups⟩ := bind_eq_ok_iff.mp hlookups
  cases pure_eq_ok_iff.mp hlookups
  have huniques : (uniqueConstraints stem e).filter (fun k => !c.isEntityKey e k) =
      uniqueConstraints stem e := by
    refine List.filter_eq_self.mpr fun k hk => ?_
    obtain ⟨g, -, -, rfl⟩ := mem_uniqueConstraints_iff.mp hk
    rfl
  have hkeys : (cs.filterMap id).filter (fun k => !c.isEntityKey e k) = [] := by
    refine List.filter_eq_nil_iff.mpr fun k hk => ?_
    obtain ⟨g, hg, hstep⟩ := (mem_filterMap_id_of_mapM hcs).mp hk
    simp [isEntityKey_of_entityConstraint? hg hstep]
  have hlookups : (cs'.filterMap id).filter (fun k => !c.isEntityKey e k) = cs'.filterMap id := by
    refine List.filter_eq_self.mpr fun k hk => ?_
    obtain ⟨g, hg, hstep⟩ := (mem_filterMap_id_of_mapM hcs').mp hk
    simp [isEntityKey_of_lookupConstraint? hnodup hg hstep]
  have hchecks : (c.checkConstraints stem e).filter (fun k => !c.isEntityKey e k) =
      c.checkConstraints stem e := by
    refine List.filter_eq_self.mpr fun k hk => ?_
    have hcheck := isCheck_of_checkConstraints hk
    cases k <;> first | rfl | cases hcheck
  rw [List.filter_append, List.filter_append, List.filter_append, huniques, hkeys, hlookups,
    hchecks, List.append_nil]

end Columns

/-! ### Tables -/

/-- The foreign keys to entities, if they are written. -/
def writtenKeys (c : Converter) (written : Bool) (stem : String) (e : Entity) :
    Except ConvertError (List Constraint) :=
  if written then c.entityConstraints stem e else .ok []

/-- The foreign keys that are written are marked as such, whatever the setting. -/
theorem marked_of_writtenKeys {stem : String} {keys : List Constraint}
    (h : c.writtenKeys written stem e = .ok keys) (hk : k ∈ keys) :
    ∃ f, Marked "fk_" stem f k ∨ Marked "dk_" stem f k := by
  cases written with
  | false =>
    cases h
    cases hk
  | true =>
    obtain ⟨cs, hcs, h⟩ := bind_eq_ok_iff.mp h
    cases pure_eq_ok_iff.mp h
    obtain ⟨f, -, hstep⟩ := (mem_filterMap_id_of_mapM hcs).mp hk
    exact ⟨f, (marked_of_entityConstraint? hstep).imp_left And.left⟩

/-- What the table of an entity is formed from besides foreign keys to entities. -/
structure TablePieces (c : Converter) (e : Entity) where
  /-- The name. -/
  name : QualifiedName
  /-- The columns. -/
  columns : List Column
  /-- What the names of constraints start with. -/
  stem : String
  /-- The foreign keys to lookup tables. -/
  lookups : List Constraint
  /-- The name is that of the entity. -/
  name_eq : c.qualifiedName e.moduleName e.name = .ok name
  /-- The columns are those of the fields. -/
  columns_eq : c.columns e = .ok columns
  /-- The stem is that of the entity. -/
  stem_eq : c.stem e.moduleName e.name = .ok stem
  /-- The foreign keys are those of the fields that are looked up. -/
  lookups_eq : c.lookupConstraints stem e = .ok lookups

/-- The constraints of a table with the given foreign keys to entities. -/
def TablePieces.constraints (p : TablePieces c e) (keys : List Constraint) : List Constraint :=
  uniqueConstraints p.stem e ++ keys ++ p.lookups ++ c.checkConstraints p.stem e

/-- **The table of an entity under either setting** has the same columns, and the same constraints
but for foreign keys to entities. -/
theorem table_writingKeys_iff (hplain : c.options.factory = .plain) :
    (c.writingKeys written).table e = .ok t ↔
      ∃ (p : TablePieces c e) (keys : List Constraint),
        c.writtenKeys written p.stem e = .ok keys ∧
          Table.form p.name p.columns [e.primaryKey] (p.constraints keys) e.description =
            .ok t := by
  have hform : (c.writingKeys written).options.factory.table = Table.form := by
    change c.options.factory.table = Table.form
    rw [hplain]
    rfl
  have hconstraints : (c.writingKeys written).constraints e = do
      let stem ← c.stem e.moduleName e.name
      let keys ← c.writtenKeys written stem e
      return uniqueConstraints stem e ++ keys := by
    cases written <;> simp [constraints, writtenKeys, writingKeys] <;> rfl
  rw [table, ConvertError.nameOwner, mapError_eq_ok_iff, tableParts, columns_writingKeys,
    hconstraints, hform]
  simp only [bind_eq_ok_iff, mapError_eq_ok_iff, pure_eq_ok_iff]
  constructor
  · rintro ⟨columns, hcolumns, _, ⟨stem, hstem, keys, hkeys, rfl⟩, stem', hstem', lookups, hlookups,
      n, hn, h⟩
    obtain rfl : stem = stem' := Except.ok.inj (hstem.symm.trans hstem')
    exact ⟨⟨n, columns, stem, lookups, hn, hcolumns, hstem, hlookups⟩, keys, hkeys, h⟩
  · rintro ⟨p, keys, hkeys, h⟩
    exact ⟨p.columns, p.columns_eq, _, ⟨p.stem, p.stem_eq, keys, hkeys, rfl⟩, p.stem, p.stem_eq,
      p.lookups, p.lookups_eq, p.name, p.name_eq, h⟩

/-- The fields that become columns have different names when the columns do. -/
theorem TablePieces.nodup_names (hplain : c.options.factory = .plain) (p : TablePieces c e)
    (h : (p.columns.map Column.name).Nodup) :
    ((e.fields.filter fun f => !c.isRelationship f.type).map Field.name).Nodup := by
  have hf : c.options.factory.Faithful := hplain ▸ ObjectFactory.faithful_plain
  have hnames := map_eq_map_of_forall₂ (f := Field.name) (g := Column.name)
    (mapM_eq_ok_iff.mp p.columns_eq) fun f col hcol => (column_eq_ok hf hcol).1.symm
  rwa [hnames]

/-- **Leaving foreign keys to entities out** deletes them from the table of an entity. -/
theorem table_withoutKeys (hplain : c.options.factory = .plain)
    (h : (c.writingKeys true).table e = .ok t) :
    (c.writingKeys false).table e = .ok (c.withoutEntityKeys e t) := by
  obtain ⟨p, keys, hkeys, hform⟩ := (table_writingKeys_iff hplain).mp h
  obtain ⟨hcolumns, hne, hkey, hnames, rfl⟩ := Table.form_eq_ok_iff.mp hform
  have hfilter : (p.constraints keys).filter (fun k => !c.isEntityKey e k) = p.constraints [] := by
    rw [TablePieces.constraints, TablePieces.constraints, List.append_nil]
    exact filter_isEntityKey (p.nodup_names hplain hcolumns) hkeys p.lookups_eq
  refine (table_writingKeys_iff hplain).mpr ⟨p, [], rfl, Table.form_eq_ok_iff.mpr ?_⟩
  refine ⟨hcolumns, hne, hkey, ?_, ?_⟩
  · rw [← hfilter]
    exact hnames.sublist (List.filter_sublist.map _)
  · rw [withoutEntityKeys, hfilter]

/-- A field gets its foreign key when what it points at can be pointed at. -/
theorem exists_entityConstraint? (stem : String)
    (htargets : ∀ target, .entity target ∈ c.keyItems f → ∃ r, c.keyReference target = .ok r) :
    ∃ k, c.entityConstraint? stem f = .ok k := by
  unfold entityConstraint?
  split
  · rename_i target hrole
    obtain ⟨r, hr⟩ := htargets target (by simp [keyItems, hrole])
    exact ⟨_, bind_eq_ok_iff.mpr ⟨r, hr, rfl⟩⟩
  · rename_i targets hrole
    obtain ⟨rs, hrs⟩ : ∃ rs, targets.mapM c.keyReference = .ok rs :=
      exists_mapM_eq_ok fun target ht => htargets target (by simpa [keyItems, hrole] using ht)
    exact ⟨_, bind_eq_ok_iff.mpr ⟨rs, hrs, rfl⟩⟩
  · exact ⟨none, rfl⟩

/-- Foreign keys to entities are named apart from one another and from the other constraints. -/
theorem TablePieces.nodup_constraints (p : TablePieces c e)
    (hnodup : ((e.fields.filter fun f => !c.isRelationship f.type).map Field.name).Nodup)
    {keys : List Constraint} (hkeys : c.entityConstraints p.stem e = .ok keys)
    (hnames : ((p.constraints []).map Constraint.name).Nodup) :
    ((p.constraints keys).map Constraint.name).Nodup := by
  have hperm : (p.constraints keys).Perm (keys ++ p.constraints []) := by
    simp only [TablePieces.constraints, List.append_nil, List.append_assoc]
    exact List.perm_append_comm_assoc ..
  rw [(hperm.map Constraint.name).nodup_iff, List.map_append, List.nodup_append]
  refine ⟨nodup_entityConstraints hnodup hkeys, hnames, ?_⟩
  intro name hname name' hname' heq
  obtain ⟨k, hk, rfl⟩ := List.mem_map.mp hname
  obtain ⟨k', hk', rfl⟩ := List.mem_map.mp hname'
  rw [TablePieces.constraints, List.append_nil] at hk'
  exact name_ne_of_entityConstraints hnodup hkeys p.lookups_eq hk hk' heq

/-- **Writing foreign keys to entities** does not fail when every entity whose keys a field holds
can be pointed at. -/
theorem exists_table_writingKeys (hplain : c.options.factory = .plain)
    (h : (c.writingKeys false).table e = .ok t)
    (htargets : ∀ f ∈ e.fields, ∀ target, .entity target ∈ c.keyItems f →
      ∃ r, c.keyReference target = .ok r) :
    ∃ t', (c.writingKeys true).table e = .ok t' := by
  obtain ⟨p, _, hnone, hform⟩ := (table_writingKeys_iff hplain).mp h
  cases hnone
  obtain ⟨hcolumns, hne, hkey, hnames, -⟩ := Table.form_eq_ok_iff.mp hform
  obtain ⟨cs, hcs⟩ : ∃ cs, e.fields.mapM (c.entityConstraint? p.stem) = .ok cs :=
    exists_mapM_eq_ok fun f hf => exists_entityConstraint? p.stem (htargets f hf)
  have hkeys : c.entityConstraints p.stem e = .ok (cs.filterMap id) :=
    bind_eq_ok_iff.mpr ⟨cs, hcs, rfl⟩
  have hnames := p.nodup_constraints (p.nodup_names hplain hcolumns) hkeys hnames
  exact ⟨_, (table_writingKeys_iff hplain).mpr
    ⟨p, cs.filterMap id, hkeys, Table.form_eq_ok_iff.mpr ⟨hcolumns, hne, hkey, hnames, rfl⟩⟩⟩

end SchemaCatalog.Converter
