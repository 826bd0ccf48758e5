import SchemaCatalog.Proofs.Assembly.Contents
import SchemaCatalog.Proofs.Composite
import SchemaCatalog.Proofs.Converter.NamesStruct
import SchemaCatalog.Proofs.Dialect

/-!
# Structs that data types refer to

The data types in a catalog are those of columns and of members of composite types. Those of
entities and structs come from their fields, and those of join tables from the keys of entities;
a lookup table has data types of its own (`typeOrigin_of_mem_dataTypes`), which refer to no struct.
So a name that stands for a struct gets into a catalog by a field that is reached
(`namesReached_of_mem_dataTypes`), and the
composite type of the struct is there if structs are types. If they are not, there is no composite
type at all, and a catalog declares what its data types refer to just when no field names a struct
(`declaresStructs_iff`): this is so for references, but not for lists where lists are arrays.
-/

namespace SchemaCatalog

/-- The data types of the columns of a table. -/
def Table.dataTypes (t : Table) : List DataType := t.columns.values.map Column.dataType

/-- The data types of the members of a composite type. -/
def CompositeType.dataTypes (t : CompositeType) : List DataType :=
  t.members.map CompositeMember.dataType

/-- The data types of the columns and members in a catalog. -/
def Catalog.dataTypes (k : Catalog) : List DataType :=
  k.tables.flatMap Table.dataTypes ++ k.structs.flatMap CompositeType.dataTypes

namespace Converter

variable {c : Converter} {roots : List String} {types : List Definition} {p : PlacedObjects}
  {s : Struct} {n : QualifiedName} {d : DataType} {t : Table}

/-! ### The data types of tables and composite types -/

/-- The data types in the table of an entity are those of the fields that are not
relationships. -/
theorem mem_dataTypes_table_iff (hf : c.options.factory.Faithful) {e : Entity}
    (h : c.table e = .ok t) :
    d ∈ t.dataTypes ↔
      ∃ f ∈ e.fields, c.isRelationship f.type = false ∧ c.mapMember f.type = .ok d := by
  obtain ⟨-, columns, hcolumns, hformed, -⟩ := exists_parts_of_table hf h
  rw [Table.dataTypes, hformed.values_columns, List.mem_map]
  simp only [mem_columns_iff hcolumns]
  constructor
  · rintro ⟨col, ⟨f, hfield, hplain, hcol⟩, rfl⟩
    exact ⟨f, hfield, hplain, (column_eq_ok hf hcol).2⟩
  · rintro ⟨f, hfield, hplain, hd⟩
    have hcol : c.column f = .ok _ := bind_eq_ok_iff.mpr ⟨d, hd, rfl⟩
    exact ⟨_, ⟨f, hfield, hplain, hcol⟩, hf.column_dataType _⟩

/-- The data types in a lookup table are those of keys and of labels. -/
theorem dataTypes_lookupTable (hf : c.options.factory.Faithful) {e : Enumeration}
    (h : c.lookupTable e = .ok t) :
    ∃ labels, c.mapSimple labelType = .ok labels ∧ t.dataTypes = [c.enumKeyType, labels] := by
  obtain ⟨labels, hlabels, h⟩ := bind_eq_ok_iff.mp h
  obtain ⟨n, -, h⟩ := bind_eq_ok_iff.mp h
  have hformed := hf.formedFrom (mapError_eq_ok_iff.mp h)
  refine ⟨labels, hlabels, ?_⟩
  rw [Table.dataTypes, hformed.values_columns]
  simp [hf.column_dataType]

/-- The data types in a join table are those of its key and of the keys of the two sides. -/
theorem dataTypes_joinTable (hf : c.options.factory.Faithful) {e : Entity} {name : String}
    {item : RelatedItem} (h : c.joinTable e name item = .ok t) :
    ∃ own left right key itemKey, c.mapMember (.primitive .uuid) = .ok own ∧
      c.relatedKey (.entity e) = .ok (key, left) ∧ c.relatedKey item = .ok (itemKey, right) ∧
      t.dataTypes = [own, left, right] := by
  obtain ⟨-, own, _, _, left, right, key, itemKey, _, _, hown, hleft, hright, -, -, hformed⟩ :=
    exists_parts_of_joinTable hf h
  refine ⟨own, left, right, key, itemKey, hown, hleft, hright, ?_⟩
  rw [Table.dataTypes, hformed.values_columns]
  simp [joinColumn, hf.column_dataType]

/-- The composite type of a struct bears the name of the struct, and its data types are those of
the fields. -/
theorem composite_eq_ok (hk : c.options.factory.KeepsComposites) {t : CompositeType}
    (h : c.composite (.struct s) = .ok t) :
    c.qualifiedName s.moduleName s.name = .ok t.name ∧
      ∀ d, d ∈ t.dataTypes ↔ ∃ f ∈ s.fields, c.mapMember f.type = .ok d := by
  obtain ⟨members, hmembers, h⟩ := bind_eq_ok_iff.mp h
  obtain ⟨n, hn, h⟩ := bind_eq_ok_iff.mp h
  obtain ⟨hname, hmembers_eq⟩ := hk (mapError_eq_ok_iff.mp h)
  refine ⟨hname ▸ hn, fun d => ?_⟩
  rw [CompositeType.dataTypes, hmembers_eq, List.mem_map]
  simp only [mem_iff_of_mapM (mapError_eq_ok_iff.mp hmembers)]
  constructor
  · rintro ⟨m, ⟨f, hfield, hm⟩, rfl⟩
    obtain ⟨d, hd, hm⟩ := bind_eq_ok_iff.mp hm
    cases pure_eq_ok_iff.mp hm
    exact ⟨f, hfield, hd⟩
  · rintro ⟨f, hfield, hd⟩
    exact ⟨_, ⟨f, hfield, bind_eq_ok_iff.mpr ⟨d, hd, rfl⟩⟩, rfl⟩

/-! ### Where data types come from -/

/-- Where a data type in a catalog **comes from**. -/
inductive TypeOrigin (c : Converter) (roots : List String) (d : DataType) : Prop
  /-- A field of a definition that is reached, which is an entity unless structs are types. -/
  | field {owner : Definition} {f : Field} : c.registry.ReachesDefinition roots owner →
    (c.options.structMode = .type ∨ ∃ e, owner = .entity e) → f ∈ owner.fields →
      c.mapMember f.type = .ok d → TypeOrigin c roots d
  /-- The key of a lookup table. -/
  | lookupKey : d = c.enumKeyType → TypeOrigin c roots d
  /-- The labels in a lookup table. -/
  | label : c.mapSimple labelType = .ok d → TypeOrigin c roots d
  /-- The key of a join table. -/
  | joinKey : c.mapMember (.primitive .uuid) = .ok d → TypeOrigin c roots d

/-- The key of an item that is reached has the data type of its key field, or that of keys of
lookup tables. -/
theorem typeOrigin_of_relatedKey {item : RelatedItem} {key : String}
    (hitem : c.registry.ReachesDefinition roots item.definition)
    (hkey : c.relatedKey item = .ok (key, d)) : c.TypeOrigin roots d := by
  cases item with
  | entity e =>
    obtain ⟨f, hf, hkey⟩ := bind_eq_ok_iff.mp hkey
    obtain ⟨d', hd, hkey⟩ := bind_eq_ok_iff.mp hkey
    cases pure_eq_ok_iff.mp hkey
    exact .field hitem (Or.inr ⟨e, rfl⟩) (Registry.mem_of_keyField hf).1 hd
  | enumeration e =>
    cases hkey
    exact .lookupKey rfl

theorem typeOrigin_of_mem_dataTypes_table (hf : c.options.factory.Faithful)
    (hr : c.reachable roots = .ok types) {origin : TableOrigin}
    (horigin : origin ∈ c.tableOrigins (types.filterMap Definition.entity?))
    (ht : c.originTable origin = .ok t) (hd : d ∈ t.dataTypes) : c.TypeOrigin roots d := by
  have reached : ∀ {e}, e ∈ types.filterMap Definition.entity? →
      c.registry.ReachesDefinition roots (.entity e) :=
    fun he => (mem_reachable_iff hr).mp (mem_entities_iff.mp he)
  rcases List.mem_append.mp horigin with hitem | hjoin
  · obtain ⟨i, hi, rfl⟩ := List.mem_map.mp hitem
    cases i with
    | entity e =>
      have he := reached (mem_tableItems_entity_iff.mp hi)
      obtain ⟨f, hfield, -, hd⟩ := (mem_dataTypes_table_iff hf ht).mp hd
      exact .field he (Or.inr ⟨e, rfl⟩) hfield hd
    | enumeration e =>
      obtain ⟨labels, hlabels, htypes⟩ := dataTypes_lookupTable hf ht
      rw [htypes] at hd
      rcases List.mem_cons.mp hd with rfl | hd
      · exact .lookupKey rfl
      · exact .label (List.mem_singleton.mp hd ▸ hlabels)
  · obtain ⟨rel, hrel, rfl⟩ := List.mem_map.mp hjoin
    obtain ⟨howner, hfield, hrole⟩ := mem_relationships_iff.mp hrel
    obtain ⟨own, left, right, key, itemKey, hown, hleft, hright, htypes⟩ :=
      dataTypes_joinTable hf ht
    have howner : c.registry.ReachesDefinition roots (RelatedItem.entity rel.owner).definition :=
      reached howner
    have hitem : c.registry.ReachesDefinition roots rel.item.definition :=
      reachesDefinition_of_mem_items howner hfield (by simp [hrole, FieldRole.items])
    rw [htypes] at hd
    simp only [List.mem_cons, List.not_mem_nil, or_false] at hd
    rcases hd with rfl | rfl | rfl
    · exact .joinKey hown
    · exact typeOrigin_of_relatedKey howner hleft
    · exact typeOrigin_of_relatedKey hitem hright

/-- **Where a data type comes from**: from a field that is reached, or from a column that is not
made for a field. -/
theorem typeOrigin_of_mem_dataTypes (hf : c.options.factory.Faithful)
    (hk : c.options.factory.KeepsComposites) (hr : c.reachable roots = .ok types)
    (hp : c.objects types = .ok p) (hd : d ∈ (c.group p).dataTypes) : c.TypeOrigin roots d := by
  rcases List.mem_append.mp hd with hd | hd
  · obtain ⟨t, ht, hd⟩ := List.mem_flatMap.mp hd
    obtain ⟨o, ho, rfl⟩ := mem_tables_group.mp ht
    obtain ⟨origin, horigin, hplaced⟩ := exists_of_mem_right (forall₂_tables hp) ho
    exact typeOrigin_of_mem_dataTypes_table hf hr horigin hplaced.object hd
  · obtain ⟨t, ht, hd⟩ := List.mem_flatMap.mp hd
    obtain ⟨o, ho, rfl⟩ := mem_structs_group.mp ht
    obtain ⟨structs, hstructs, hnone, hplaced⟩ := exists_forall₂_structs hp
    obtain ⟨s', hs', hplaced⟩ := exists_of_mem_right hplaced ho
    have hmode : c.options.structMode = .type := by
      by_contra hmode
      rw [hnone hmode] at hs'
      cases hs'
    have hs' := ((mem_structs_of_dependencyOrder hr (hstructs hmode)).2 s').mp hs'
    obtain ⟨f, hfield, hd⟩ := ((composite_eq_ok hk hplaced.object).2 d).mp hd
    exact .field hs' (Or.inl hmode) hfield hd

/-! ### Where references to structs come from -/

/-- What is reached **names a struct** when the type of a field of a definition that is reached
does, and the definition is that of an entity or structs are types. -/
def NamesReached (c : Converter) (roots : List String) (s : Struct) : Prop :=
  ∃ owner, c.registry.ReachesDefinition roots owner ∧
    (c.options.structMode = .type ∨ ∃ e, owner = .entity e) ∧
      ∃ f ∈ owner.fields, c.NamesStruct s f.type

theorem namesStruct_of_mapMember (hn : c.StructName s n) {owner : Definition}
    (howner : c.registry.ReachesDefinition roots owner) {f : Field} (hfield : f ∈ owner.fields)
    (hd : c.mapMember f.type = .ok d) (hnamed : d.named? = some n) : c.NamesStruct s f.type :=
  (named?_mapMember_iff hn
    (hn.custom owner (Registry.get?_eq_some_iff.mp howner.1).1 f hfield) hd).mp hnamed

/-- **Where a reference to a struct comes from**: from a field that is reached. -/
theorem namesReached_of_mem_dataTypes (hf : c.options.factory.Faithful)
    (hk : c.options.factory.KeepsComposites) (hr : c.reachable roots = .ok types)
    (hp : c.objects types = .ok p) (hn : c.StructName s n) (hd : d ∈ (c.group p).dataTypes)
    (hnamed : d.named? = some n) : c.NamesReached roots s := by
  cases typeOrigin_of_mem_dataTypes hf hk hr hp hd with
  | field howner hmode hfield hd =>
    exact ⟨_, howner, hmode, _, hfield, namesStruct_of_mapMember hn howner hfield hd hnamed⟩
  | lookupKey hd => exact absurd (hd ▸ hnamed) (hn.named?_mapPrimitive _)
  | label hd => exact absurd hnamed (hn.named?_mapSimple hd)
  | joinKey hd => exact absurd hnamed (hn.freeName.named?_mapMember_primitive hd)

/-- A field of a reached entity that is no relationship has a data type, which is in the
catalog. -/
theorem exists_mem_dataTypes (hf : c.options.factory.Faithful)
    (hr : c.reachable roots = .ok types) (hp : c.objects types = .ok p) {e : Entity}
    (he : c.registry.ReachesDefinition roots (.entity e)) {f : Field} (hfield : f ∈ e.fields)
    (hplain : c.isRelationship f.type = false) :
    ∃ d ∈ (c.group p).dataTypes, c.mapMember f.type = .ok d := by
  have he : e ∈ types.filterMap Definition.entity? :=
    mem_entities_iff.mpr ((mem_reachable_iff hr).mpr he)
  have horigin : .item (.entity e) ∈ c.tableOrigins (types.filterMap Definition.entity?) :=
    List.mem_append_left _ (List.mem_map_of_mem (mem_tableItems_entity_iff.mpr he))
  obtain ⟨o, ho, hplaced⟩ := exists_of_mem_left (forall₂_tables hp) horigin
  obtain ⟨-, columns, hcolumns, -⟩ := exists_parts_of_table hf hplaced.object
  obtain ⟨col, -, hcol⟩ := exists_column_of_mem_fields hcolumns hfield hplain
  have hd := (column_eq_ok hf hcol).2
  have hmem : col.dataType ∈ o.2.dataTypes :=
    (mem_dataTypes_table_iff hf hplaced.object).mpr ⟨f, hfield, hplain, hd⟩
  refine ⟨_, List.mem_append_left _ (List.mem_flatMap.mpr ⟨o.2, ?_, hmem⟩), hd⟩
  exact mem_tables_group.mpr ⟨o, ho, rfl⟩

/-! ### Declarations -/

/-- A catalog **declares structs** when a composite type of the catalog bears each name in its
data types that stands for a struct. -/
def DeclaresStructs (c : Converter) (k : Catalog) : Prop :=
  ∀ s n, c.StructName s n → ∀ d ∈ k.dataTypes, d.named? = some n → ∃ t ∈ k.structs, t.name = n

/-- The composite type of a struct that is reached is in the catalog, if structs are types. -/
theorem exists_struct_of_reaches (hk : c.options.factory.KeepsComposites)
    (hr : c.reachable roots = .ok types) (hp : c.objects types = .ok p)
    (hmode : c.options.structMode = .type)
    (hs : c.registry.ReachesDefinition roots (.struct s))
    (hname : c.qualifiedName s.moduleName s.name = .ok n) :
    ∃ t ∈ (c.group p).structs, t.name = n := by
  obtain ⟨structs, hstructs, -, hplaced⟩ := exists_forall₂_structs hp
  have hmem := ((mem_structs_of_dependencyOrder hr (hstructs hmode)).2 s).mpr hs
  obtain ⟨o, ho, hplaced⟩ := exists_of_mem_left hplaced hmem
  refine ⟨o.2, mem_structs_group.mpr ⟨o, ho, rfl⟩, ?_⟩
  have hname' := (composite_eq_ok hk hplaced.object).1
  exact Except.ok.inj (hname'.symm.trans hname)

/-- Where structs are types, or no field of an entity that is reached names a struct, the catalog
declares what its data types refer to. -/
theorem declaresStructs_of_not_namesStruct (hf : c.options.factory.Faithful)
    (hk : c.options.factory.KeepsComposites) {k : Catalog} (h : c.assemble roots = .ok k)
    (hcond : c.options.structMode = .type ∨
      ∀ s n, c.StructName s n → ∀ e, c.registry.ReachesDefinition roots (.entity e) →
        ∀ f ∈ e.fields, ¬ c.NamesStruct s f.type) : c.DeclaresStructs k := by
  obtain ⟨types, p, hr, hp, rfl⟩ := assemble_eq_ok_iff.mp h
  intro s n hn d hd hnamed
  obtain ⟨owner, howner, hmode, f, hfield, hnames⟩ :=
    namesReached_of_mem_dataTypes hf hk hr hp hn hd hnamed
  have hmode : c.options.structMode = .type := by
    rcases hcond with hmode | hnone
    · exact hmode
    · refine hmode.resolve_right ?_
      rintro ⟨e, rfl⟩
      exact hnone s n hn e howner f hfield hnames
  refine exists_struct_of_reaches hk hr hp hmode ⟨hn.get?, ?_⟩ hn.qualifiedName
  exact hnames.reaches fun _ hname => howner.reaches hfield hname

/-- Where structs and lists are documents, nothing names a struct. -/
theorem not_namesStruct (hstruct : c.options.structMode ≠ .type)
    (harray : c.options.arrayMode ≠ .array) {t : NativeType} : ¬ c.NamesStruct s t := by
  intro h
  induction h with
  | reference _ _ hmode => exact hstruct hmode
  | list _ _ hmode => exact harray hmode
  | annotated _ _ ih | key _ _ _ _ ih | union _ _ _ ih | keys _ _ _ _ _ _ ih => exact ih

/-- **Settings that suit structs**: where structs are types or lists are documents, every catalog
declares what its data types refer to. -/
theorem declaresStructs_of_modes (hf : c.options.factory.Faithful)
    (hk : c.options.factory.KeepsComposites)
    (hmodes : c.options.structMode = .type ∨ c.options.arrayMode ≠ .array) {k : Catalog}
    (h : c.assemble roots = .ok k) : c.DeclaresStructs k := by
  by_cases hmode : c.options.structMode = .type
  · exact declaresStructs_of_not_namesStruct hf hk h (Or.inl hmode)
  · exact declaresStructs_of_not_namesStruct hf hk h (Or.inr fun s n _ e _ f _ =>
      not_namesStruct hmode (hmodes.resolve_left hmode))

/-- **When a catalog declares structs**: structs have to be types, or no field of an entity that
is reached may name a struct. -/
theorem declaresStructs_iff (hf : c.options.factory.Faithful)
    (hk : c.options.factory.KeepsComposites) {k : Catalog} (h : c.assemble roots = .ok k) :
    c.DeclaresStructs k ↔ c.options.structMode = .type ∨
      ∀ s n, c.StructName s n → ∀ e, c.registry.ReachesDefinition roots (.entity e) →
        ∀ f ∈ e.fields, ¬ c.NamesStruct s f.type := by
  refine ⟨fun hdeclares => ?_, declaresStructs_of_not_namesStruct hf hk h⟩
  obtain ⟨types, p, hr, hp, rfl⟩ := assemble_eq_ok_iff.mp h
  rw [or_iff_not_imp_left]
  intro hmode s n hn e he f hfield hnames
  obtain ⟨structs, -, hnone, hplaced⟩ := exists_forall₂_structs hp
  rw [hnone hmode, List.forall₂_nil_left_iff] at hplaced
  -- the column of the field refers to the struct, but there is no composite type
  obtain ⟨d, hd, hmember⟩ :=
    exists_mem_dataTypes hf hr hp he hfield (hnames.isRelationship_eq_false hn.get?)
  have hnamed := hnames.named?_mapMember hn.get? hn.qualifiedName hmember
  obtain ⟨t, ht, -⟩ := hdeclares s n hn d hd hnamed
  obtain ⟨o, ho, -⟩ := mem_structs_group.mp ht
  rw [hplaced] at ho
  cases ho

/-! ### A small drawing -/

namespace Drawing

/-- Points of the plane. -/
def point : Struct where
  name := "Point"
  moduleName := "app"
  fields :=
    [{ name := "x", type := .primitive .float64 }, { name := "y", type := .primitive .float64 }]

/-- Shapes with their corners. -/
def shape : Entity where
  name := "Shape"
  moduleName := "app"
  primaryKey := "id"
  fields :=
    [{ name := "id", type := .primitive .int64 },
      { name := "corners", type := .list (.ref "Point") }]

end Drawing

/-- A drawing, with some settings. -/
def drawing (o : Options) : Converter where
  registry := { types := [.struct Drawing.point, .entity Drawing.shape], nodup_names := by decide }
  options := o

theorem reachable_drawing (o : Options) : (drawing o).reachable ["Shape"] =
    .ok (["Point", "Shape"].filterMap (drawing o).registry.get?) := by
  have hnames : (drawing o).registry.closure ["Shape"] = .ok ["Shape", "Point"] := by cbv
  exact reachable_eq_ok hnames (by decide) (by decide)

/-- Where structs are types, the points that the corners refer to are declared. -/
theorem declaresStructs_drawing : ∃ k, (drawing {}).assemble ["Shape"] = .ok k ∧
    .array (.userDefined ⟨none, "Point", .qualified⟩) ∈ k.dataTypes ∧
    (drawing {}).DeclaresStructs k := by
  have htypes : ((drawing {}).assemble ["Shape"]).toOption.map (fun k => decide
      (.array (.userDefined ⟨none, "Point", .qualified⟩) ∈ k.dataTypes)) = some true := by
    rw [assemble, reachable_drawing]
    decide +kernel
  obtain ⟨k, hk, htypes⟩ := exists_eq_ok_of_toOption htypes
  exact ⟨k, hk, of_decide_eq_true htypes, (declaresStructs_iff ObjectFactory.faithful_plain
    ObjectFactory.keepsComposites_plain hk).mpr (Or.inl rfl)⟩

/-- The settings of Delta Lake that are not asked for: structs are documents, lists are arrays. -/
def deltaOptions : Options where
  enumMode := .check
  structMode := .json
  foreignConstraints := false
  substitutions := Dialect.delta.substitutions

theorem structName_point :
    (drawing deltaOptions).StructName Drawing.point ⟨none, "Point", .qualified⟩ where
  get? := rfl
  qualifiedName := rfl
  substitution := by decide
  primitive p := by simp [named?_standardType deltaOptions rfl p, drawing]
  custom := by simp [drawing, Drawing.point, Drawing.shape, Definition.fields, NativeType.customs]

/-- With the settings of Delta Lake the corners refer to points, which are not declared. -/
theorem not_declaresStructs_drawing : ∃ k, Dialect.delta.options {} = .ok deltaOptions ∧
    (drawing deltaOptions).assemble ["Shape"] = .ok k ∧
    ¬ (drawing deltaOptions).DeclaresStructs k := by
  have hoptions : Dialect.delta.options {} = .ok deltaOptions := rfl
  have htypes : ((drawing deltaOptions).assemble ["Shape"]).toOption.map (fun k =>
      (decide (.array (.userDefined ⟨none, "Point", .qualified⟩) ∈ k.dataTypes), k.structs)) =
        some (true, []) := by
    rw [assemble, reachable_drawing]
    decide +kernel
  obtain ⟨k, hk, htypes⟩ := exists_eq_ok_of_toOption htypes
  obtain ⟨hmem, hstructs⟩ := Prod.mk.inj htypes
  refine ⟨k, hoptions, hk, fun hdeclares => ?_⟩
  obtain ⟨t, ht, -⟩ := hdeclares _ _ structName_point _ (of_decide_eq_true hmem) rfl
  rw [hstructs] at ht
  cases ht

end Converter

end SchemaCatalog
