import SchemaCatalog.Proofs.Converter.Table
import SchemaCatalog.Proofs.Record.Encoding
import SchemaCatalog.Record.Extractor

/-!
# Rows of drawn records

With the settings of a dialect, the columns of the table of an entity are bound to the fields that
are no relationships, and the row of any record that can be drawn for the entity has a value for
each of them (`extract_of_canDraw`). What such a value is made from is a `Cell`: the value of the
field is absent where the column accepts that, or it fits the column and is stored under the
encoding of the column.
-/

namespace SchemaCatalog

variable {e : Entity} {f : Field} {col : Column}

/-! ### Columns and their slots -/

theorem Entity.field?_of_mem (hn : (e.fields.map Field.name).Nodup) (hf : f ∈ e.fields) :
    e.field? f.name = some f :=
  find?_eq_some_of_nodup_map hn hf

/-- A column of an entity is bound to the field of its name. -/
theorem Slot.bind_eq_ok (hf : e.field? col.name = some f) :
    Slot.bind e col = .ok ⟨col.name, col.name, col.nullable || col.identity,
      ValueEncoding.forColumn col.dataType f.type⟩ := by
  have hname : f.name = col.name := by simpa using List.find?_some hf
  simp only [bind, hf, hname]

theorem Slot.names_of_bind {slot : Slot} (h : Slot.bind e col = .ok slot) :
    slot.column = col.name ∧ slot.field = col.name := by
  cases hf : e.field? col.name with
  | some f =>
    rw [bind_eq_ok hf] at h
    cases h
    exact ⟨rfl, rfl⟩
  | none =>
    rw [bind, hf] at h
    cases h

/-! ### Values for fields -/

section Fit

variable {δ : Dialect} {r : DialectRequest} {c : Converter} (ho : δ.options r = .ok c.options)
  {s : Sample} {d : DataType} {w : Value}
include ho

theorem Dialect.fits_of_canDraw_value (hs : s.registry = c.registry) {t : NativeType}
    (hd : c.mapMember t = .ok d) (hw : (s.value t).CanDraw w) : δ.Fits d t w where
  kind_mem := Sample.kind_mem_kinds_of_value ho hs hd hw
  kind_eq p hp := by
    obtain ⟨_, hw⟩ := Sample.exists_valueWith_of_value hw
    exact Sample.kind_of_canDraw hp hw
  type_of_isDocument hdocument := by
    obtain ⟨_, hw⟩ := Sample.exists_valueWith_of_value hw
    exact Sample.type_of_isDocument hdocument hw

theorem Dialect.fits_of_canDraw_key {index : Nat} (hd : c.mapMember f.type = .ok d)
    (hw : (s.key f index).CanDraw w) : δ.Fits d f.type w := by
  obtain ⟨p, hp, hkind⟩ := Sample.kind_of_canDraw_key hw
  rw [Converter.mapMember, Converter.mapMemberAlong_eq] at hd
  have hstored := Sample.storedKinds_subset_of_mapMemberWith ho hp hd
  refine ⟨hkind ▸ hstored p.valueKind_mem_storedKinds, fun p' hp' => ?_, fun hdocument => ?_⟩
  · rw [hp] at hp'
    cases hp'
    exact hkind
  · rw [Value.isDocument_iff, hkind] at hdocument
    rw [hp]
    exact Or.inl (Primitive.isDocument_of_valueKind hdocument)

/-- **A value that can be drawn for a field** is absent, if the field may be absent, or it fits the
column of the field. -/
theorem Dialect.fits_of_canDraw_fieldValue (hs : s.registry = c.registry) {index : Nat}
    (hd : c.mapMember f.type = .ok d) (hw : (s.fieldValue e index f).CanDraw w) :
    f.nullable = true ∧ w = .null ∨ δ.Fits d f.type w := by
  rw [Sample.fieldValue, Sampler.canDraw_nameOwner_iff] at hw
  split at hw
  · exact Or.inr (fits_of_canDraw_key ho hd hw)
  · exact (Sample.canDraw_fieldWith hw).imp_right (fits_of_canDraw_value ho hs hd)

end Fit

/-! ### Cells -/

/-- A **cell** of the row of a record holds a value for a column: what the record has for the field
of the column is absent, or it fits the column and is stored under its encoding. -/
structure Cell (δ : Dialect) (e : Entity) (record : Record) (col : Column) (f : Field)
    (w v : Value) : Prop where
  /-- The column is that of the field. -/
  field?_eq : e.field? col.name = some f
  /-- The record has a value for the field. -/
  get?_eq : record.get? col.name = some w
  /-- The value in the row is made from that in the record. -/
  stored : w = .null ∧ v = .null ∨
    δ.Fits col.dataType f.type w ∧
      w.encode (ValueEncoding.forColumn col.dataType f.type) = .ok v

variable {δ : Dialect}

/-- What fits the column of a slot has a value in the row. -/
theorem Slot.exists_cell {slot : Slot} {record : Record} {w : Value}
    (hf : e.field? col.name = some f) (hslot : Slot.bind e col = .ok slot)
    (hw : record.get? col.name = some w)
    (hfits : (col.nullable || col.identity) = true ∧ w = .null ∨ δ.Fits col.dataType f.type w) :
    ∃ v, slot.value record = .ok v ∧ Cell δ e record col f w v := by
  rw [bind_eq_ok hf] at hslot
  cases hslot
  rcases hfits with ⟨hnull, rfl⟩ | hfits
  · refine ⟨.null, ?_, hf, hw, Or.inl ⟨rfl, rfl⟩⟩
    simp [value, hw, Value.isNull, hnull]
  · obtain ⟨v, hv⟩ := hfits.exists_encode
    refine ⟨v, ?_, hf, hw, Or.inr ⟨hfits, hv⟩⟩
    have hpresent : w.isNull = false := by
      cases w with
      | null => exact absurd hfits.kind_mem Dialect.null_not_mem_kinds
      | _ => rfl
    simp [value, hw, hpresent, hv, Except.mapError]

/-! ### Rows -/

namespace Converter

variable {r : DialectRequest} {c : Converter} (ho : δ.options r = .ok c.options)
  (hn : (e.fields.map Field.name).Nodup)
include ho

/-- The column of a field takes nulls where the field may be absent or is generated. -/
theorem acceptsNull_of_column (h : c.column f = .ok col) :
    (col.nullable || col.identity) = (f.nullable || f.identity) := by
  obtain ⟨d, -, h⟩ := bind_eq_ok_iff.mp h
  rw [Dialect.factory_of_options ho] at h
  cases pure_eq_ok_iff.mp h
  exact ObjectFactory.acceptsNull_plain _

variable {t : Table} (ht : c.table e = .ok t)
include ht

/-- The columns of the table of an entity are those of the fields that are no relationships. -/
theorem forall₂_columns_of_table :
    t.columns.keys = t.columns.values.map Column.name ∧
      List.Forall₂ (fun f col => c.column f = .ok col)
        (e.fields.filter fun f => !c.isRelationship f.type) t.columns.values := by
  obtain ⟨-, columns, hcolumns, hformed, -⟩ := table_eq_ok (Dialect.faithful_of_options ho) ht
  rw [hformed.keys_columns, hformed.values_columns]
  exact ⟨rfl, mapM_eq_ok_iff.mp hcolumns⟩

theorem exists_field_of_mem_columns (hcol : col ∈ t.columns.values) :
    ∃ f ∈ e.fields, c.column f = .ok col := by
  obtain ⟨f, hf, hmade⟩ := exists_of_mem_right (forall₂_columns_of_table ho ht).2 hcol
  exact ⟨f, (List.mem_filter.mp hf).1, hmade⟩

include hn

/-- Every column of the table is bound. -/
theorem exists_create : ∃ x, Extractor.create t e = .ok x ∧
    List.Forall₂ (fun col slot => Slot.bind e col = .ok slot) t.columns.values x.slots := by
  have hbound : ∀ col ∈ t.columns.values, ∃ slot, Slot.bind e col = .ok slot := by
    intro col hcol
    obtain ⟨f, hf, hmade⟩ := exists_field_of_mem_columns ho ht hcol
    have hname := (column_eq_ok (Dialect.faithful_of_options ho) hmade).1
    exact ⟨_, Slot.bind_eq_ok (hname ▸ Entity.field?_of_mem hn hf)⟩
  obtain ⟨slots, hslots⟩ := exists_mapM_eq_ok hbound
  exact ⟨⟨slots⟩, bind_eq_ok_iff.mpr ⟨slots, hslots, rfl⟩, mapM_eq_ok_iff.mp hslots⟩

omit ht in
/-- The slot of the column of a field takes what can be drawn for the field. -/
theorem exists_cell_of_column (hf : f ∈ e.fields) (hcol : c.column f = .ok col) {slot : Slot}
    (hslot : Slot.bind e col = .ok slot) {record : Record} (hrecord : c.registry.CanDraw e record) :
    ∃ v, slot.value record = .ok v ∧ ∃ f w, Cell δ e record col f w v := by
  obtain ⟨hname, hd⟩ := column_eq_ok (Dialect.faithful_of_options ho) hcol
  obtain ⟨s, index, hs, hvalues⟩ := hrecord.exists_fieldValue hn
  obtain ⟨w, hw, hdrawn⟩ := hvalues f hf
  have hfits := (Dialect.fits_of_canDraw_fieldValue ho hs hd hdrawn).imp_left
    (And.imp_left fun hnull => (acceptsNull_of_column ho hcol).trans (by rw [hnull, Bool.true_or]))
  rw [← hname] at hw
  obtain ⟨v, hv, hcell⟩ := Slot.exists_cell (hname ▸ Entity.field?_of_mem hn hf) hslot hw hfits
  exact ⟨v, hv, f, w, hcell⟩

/-- A record that can be drawn has a row of cells. -/
theorem exists_row {x : Extractor}
    (hslots : List.Forall₂ (fun col slot => Slot.bind e col = .ok slot) t.columns.values x.slots)
    {record : Record} (hrecord : c.registry.CanDraw e record) :
    ∃ row, x.extract record = .ok row ∧
      List.Forall₂ (fun slot v => slot.value record = .ok v) x.slots row ∧
      List.Forall₂ (fun col v => ∃ f w, Cell δ e record col f w v) t.columns.values row := by
  obtain ⟨row, hvalues, hcells⟩ := exists_forall₂_of_forall₂ hslots fun col hcol slot hslot => by
    obtain ⟨f, hf, hmade⟩ := exists_field_of_mem_columns ho ht hcol
    exact exists_cell_of_column ho hn hf hmade hslot hrecord
  exact ⟨row, mapM_eq_ok_iff.mpr hvalues, hvalues, hcells⟩

/-- **Drawn records have rows**: with the settings of a dialect, the table of an entity has a slot
for each field that is no relationship, in the order of the fields, and any record that can be drawn
for the entity has a row with one value for each column, in the order of the columns. -/
theorem extract_of_canDraw :
    ∃ x, Extractor.create t e = .ok x ∧
      x.slots.map Slot.field =
        (e.fields.filter fun f => !c.isRelationship f.type).map Field.name ∧
      x.columns = t.columns.keys ∧
      ∀ record, c.registry.CanDraw e record → ∃ row, x.extract record = .ok row ∧
        List.Forall₂ (fun slot v => slot.value record = .ok v) x.slots row := by
  obtain ⟨hkeys, hcolumns⟩ := forall₂_columns_of_table ho ht
  obtain ⟨x, hcreate, hslots⟩ := exists_create ho hn ht
  -- fields, columns and slots correspond, and have the same names
  have hfields : t.columns.values.map Column.name =
      (e.fields.filter fun f => !c.isRelationship f.type).map Field.name :=
    (map_eq_map_of_forall₂ hcolumns fun _ _ h =>
      (column_eq_ok (Dialect.faithful_of_options ho) h).1.symm).symm
  have hbound : t.columns.values.map Column.name = x.slots.map Slot.field :=
    map_eq_map_of_forall₂ hslots fun _ _ h => (Slot.names_of_bind h).2.symm
  have hnames : t.columns.values.map Column.name = x.slots.map Slot.column :=
    map_eq_map_of_forall₂ hslots fun _ _ h => (Slot.names_of_bind h).1.symm
  refine ⟨x, hcreate, hbound.symm.trans hfields, hnames.symm.trans hkeys.symm, ?_⟩
  intro record hrecord
  obtain ⟨row, hrow, hvalues, -⟩ := exists_row ho hn ht hslots hrecord
  exact ⟨row, hrow, hvalues⟩

end Converter

/-! ### Pets of a shelter -/

namespace Shelter

/-- An owner, known by an identifier. -/
def owner : Entity where
  name := "Owner"
  moduleName := "shelter"
  primaryKey := "id"
  fields := [{ name := "id", type := .primitive .uuid }]

/-- Where a pet sleeps. -/
def place : Struct where
  name := "Place"
  moduleName := "shelter"
  fields := [{ name := "floor", type := .primitive .int8 }]

/-- A pet, which is tame or not, and has a place and an owner. -/
def pet : Entity where
  name := "Pet"
  moduleName := "shelter"
  primaryKey := "id"
  fields := [{ name := "id", type := .primitive .int64 },
    { name := "tame", type := .literal [.bool true, .bool false] },
    { name := "place", type := .forward "Place" },
    { name := "owner", type := .ref "Owner" }]

/-- The settings of a dialect that are not asked for. -/
def options (δ : Dialect) : Options where
  enumMode := δ.defaultEnumMode
  structMode := δ.defaultStructMode
  arrayMode := δ.defaultArrayMode
  qualifiedNames := δ ≠ .mysql
  foreignConstraints := δ.writesForeignKeys true
  substitutions := δ.substitutions

theorem options_eq (δ : Dialect) : δ.options {} = .ok (options δ) := by
  cases δ <;> rfl

/-- The definitions of the shelter. -/
def registry : Registry where
  types := [.entity owner, .struct place, .entity pet]
  nodup_names := by decide

/-- The shelter in a dialect. -/
def converter (δ : Dialect) : Converter := ⟨registry, options δ⟩

/-- A sample of one pet. -/
def sample : Sample := ⟨registry, Sample.earliest, [0], 2⟩

/-- A stream of zeros. -/
def zeros : Draws := ⟨fun _ => 0, 0⟩

/-- The pet that is drawn from zeros. -/
def drawn : Record := ((sample.record pet 0 zeros).toOption.map Prod.fst).getD .empty

theorem canDraw_drawn : registry.CanDraw pet drawn := ⟨sample, 0, rfl, zeros, _, rfl⟩

/-- The table of pets in Delta Lake binds all fields, and the drawn pet has a row in it. -/
theorem extract_shelter : ∃ t x row, (converter .delta).table pet = .ok t ∧
    Extractor.create t pet = .ok x ∧ x.slots.map Slot.field = ["id", "tame", "place", "owner"] ∧
    x.extract drawn = .ok row ∧ row.length = 4 := by
  have htable : ((converter .delta).table pet).toOption.map (fun t => t.columns.keys) =
      some ["id", "tame", "place", "owner"] := by decide +kernel
  obtain ⟨t, ht, -⟩ := exists_eq_ok_of_toOption htable
  obtain ⟨x, hcreate, hfields, -, hrows⟩ :=
    Converter.extract_of_canDraw (options_eq .delta) (by decide) ht
  obtain ⟨row, hrow, hvalues⟩ := hrows drawn canDraw_drawn
  have hnames : x.slots.map Slot.field = ["id", "tame", "place", "owner"] := by
    rw [hfields]
    decide +kernel
  refine ⟨t, x, row, ht, hcreate, hnames, hrow, ?_⟩
  rw [← hvalues.length_eq, ← List.length_map Slot.field, hnames]
  rfl

end Shelter

end SchemaCatalog
