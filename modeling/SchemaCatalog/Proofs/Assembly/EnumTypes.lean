import SchemaCatalog.Proofs.Assembly.Declarations
import SchemaCatalog.Proofs.Converter.EnumName

/-!
# Enumeration types that data types refer to

Which enumerations become types is read off from the types of fields, and the references to them are
made while fields are mapped. `declaresEnums_of_assemble` says that the two agree: where
enumerations are types, every name in a data type of a catalog that stands for an enumeration is
that of an enumeration type of the catalog, and no enumeration type bears the name of a lookup
table. An enumeration may be called like an integer type of the dialect, though; its name then
stands for that type too, and a column can refer to it although no field uses the enumeration
(`not_declaresEnums_gauge`).
-/

namespace SchemaCatalog.Converter

variable {c : Converter} {roots : List String} {types : List Definition} {p : PlacedObjects}
  {e : Enumeration} {n : QualifiedName} {d : DataType} {t : Table}

/-- A catalog **declares enumerations** when an enumeration type of the catalog bears each name in
its data types that stands for an enumeration. -/
def DeclaresEnums (c : Converter) (k : Catalog) : Prop :=
  ∀ e n, c.EnumName e n → ∀ d ∈ k.dataTypes, d.named? = some n → ∃ t ∈ k.enums, t.name = n

/-- The lookup tables of a catalog **stand apart** when no enumeration type bears the name of
one. -/
def LookupsApart (c : Converter) (k : Catalog) : Prop :=
  ∀ e, c.registry.get? e.name = some (.enumeration e) → ∀ t ∈ k.tables, c.lookupTable e = .ok t →
    ∀ u ∈ k.enums, u.name ≠ t.name

theorem mem_enums_group {u : EnumerationType} :
    u ∈ (c.group p).enums ↔ ∃ o ∈ p.enums, o.2 = u := by
  obtain ⟨names, hcovers, henums⟩ := (c.grouped_group p).enums
  rw [henums, (PlacedObjects.perm_byPlaces hcovers).mem_iff, List.mem_map]

/-- **Where a reference to an enumeration comes from**: the enumeration is used in reach. -/
theorem usedInReach_of_mem_dataTypes (hf : c.options.factory.Faithful)
    (hk : c.options.factory.KeepsComposites) (hr : c.reachable roots = .ok types)
    (hp : c.objects types = .ok p) (hn : c.EnumName e n) (hd : d ∈ (c.group p).dataTypes)
    (hnamed : d.named? = some n) : c.UsedInReach roots e ∧ c.isSmall e = false := by
  cases typeOrigin_of_mem_dataTypes hf hk hr hp hd with
  | field howner _ hfield hd => exact hn.usedInReach_of_mapMember howner hfield hd hnamed
  | lookupKey hd => exact absurd (hd ▸ hnamed) (hn.named?_mapPrimitive _)
  | label hd => exact absurd hnamed (hn.named?_mapSimple_labelType hd)
  | joinKey hd => exact absurd hnamed (hn.named?_mapMember_primitive hd)

/-- An enumeration with labels enough that is used in reach becomes a type. -/
theorem mem_nativeEnums_of_usedInReach (hmode : c.options.enumMode = .type)
    (hr : c.reachable roots = .ok types) (hused : c.UsedInReach roots e)
    (hsmall : c.isSmall e = false) : e ∈ c.nativeEnums types := by
  obtain ⟨owner, howner, f, hfield, hplain⟩ := hused
  have hreached : c.registry.ReachesDefinition roots (.enumeration e) :=
    ⟨get?_of_plainlyUses hplain, howner.reaches hfield hplain.mem_mentions⟩
  have hcount : ¬ e.distinctCount < 2 := by
    simpa [isSmall, hmode] using hsmall
  refine (mem_nativeEnums_iff fun d hd => ((mem_reachable_iff hr).mp hd).1).mpr
    ⟨hmode, (mem_reachable_iff hr).mpr hreached, not_lt.mp hcount, owner, ?_, f, hfield, hplain⟩
  exact (mem_reachable_iff hr).mpr howner

/-- The enumeration type of an enumeration that becomes a type is in the catalog. -/
theorem exists_enum_of_mem_nativeEnums (hp : c.objects types = .ok p)
    (he : e ∈ c.nativeEnums types) (hn : c.qualifiedName e.moduleName e.name = .ok n) :
    ∃ u ∈ (c.group p).enums, u.name = n := by
  obtain ⟨o, ho, hplaced⟩ := exists_of_mem_left (forall₂_enums hp) he
  refine ⟨o.2, mem_enums_group.mpr ⟨o, ho, rfl⟩, ?_⟩
  exact Except.ok.inj ((enumType_eq_ok hplaced.object).1.symm.trans hn)

/-! ### Lookup tables -/

/-- No enumeration with a lookup table bears the name of one that becomes a type. -/
theorem name_ne_of_lookupTables {native : List Enumeration} {entities : List Entity}
    {tables : List (String × Table)} (h : c.lookupTables native entities = .ok tables)
    (he : e ∈ c.lookupEnums entities) {e' : Enumeration} (he' : e' ∈ native) :
    e'.name ≠ e.name := by
  obtain ⟨o, -, ho⟩ := exists_of_mem_left (mapM_eq_ok_iff.mp h) he
  split at ho
  · cases ho
  · rename_i hapart
    intro hname
    exact hapart (List.any_eq_true.mpr ⟨e', he', decide_eq_true hname⟩)

/-- A lookup table in a catalog is that of an enumeration that a field looks up. -/
theorem mem_lookupEnums_of_mem_tables (hf : c.options.factory.Faithful)
    (hr : c.reachable roots = .ok types) (hp : c.objects types = .ok p)
    (hget : c.registry.get? e.name = some (.enumeration e)) (ht : t ∈ (c.group p).tables)
    (h : c.lookupTable e = .ok t) : e ∈ c.lookupEnums (types.filterMap Definition.entity?) := by
  obtain ⟨o, ho, rfl⟩ := mem_tables_group.mp ht
  obtain ⟨origin, horigin, hplaced⟩ := exists_of_mem_right (forall₂_tables hp) ho
  obtain ⟨hname, hkey, -⟩ := lookupTable_eq_ok hf h
  rcases List.mem_append.mp horigin with hitem | hjoin
  · obtain ⟨i, hi, rfl⟩ := List.mem_map.mp hitem
    have hname' := qualifiedName_of_itemTable hf hplaced.object
    cases i with
    | entity owner =>
      have howner := ((mem_reachable_iff hr).mp
        (mem_entities_iff.mp (mem_tableItems_entity_iff.mp hi))).1
      cases definition_of_qualifiedName (a := .enumeration e) (b := .entity owner) hget howner
        hname hname'
    | enumeration e' =>
      have he' := mem_tableItems_enumeration_iff.mp hi
      obtain ⟨owner, -, f, -, hlookup⟩ := mem_lookupEnums_iff.mp he'
      have hget' := get?_of_lookup (mem_keyItems_or_relationship_iff.mp hlookup)
      cases definition_of_qualifiedName (a := .enumeration e) (b := .enumeration e') hget hget'
        hname hname'
      exact he'
  -- a join table has a key of another name
  · obtain ⟨rel, -, rfl⟩ := List.mem_map.mp hjoin
    obtain ⟨-, _, _, _, _, _, _, _, _, _, -, -, -, -, -, hformed⟩ :=
      exists_parts_of_joinTable hf hplaced.object
    rw [hformed.primaryKey_eq] at hkey
    exact absurd hkey (by decide)

/-- **Enumeration types**: where enumerations are types, a catalog declares the enumerations that
its data types refer to, and its lookup tables stand apart. -/
theorem declaresEnums_of_assemble (hf : c.options.factory.Faithful)
    (hk : c.options.factory.KeepsComposites) (hmode : c.options.enumMode = .type) {k : Catalog}
    (h : c.assemble roots = .ok k) : c.DeclaresEnums k ∧ c.LookupsApart k := by
  obtain ⟨types, p, hr, hp, rfl⟩ := assemble_eq_ok_iff.mp h
  constructor
  · intro e n hn d hd hnamed
    obtain ⟨hused, hsmall⟩ := usedInReach_of_mem_dataTypes hf hk hr hp hn hd hnamed
    exact exists_enum_of_mem_nativeEnums hp (mem_nativeEnums_of_usedInReach hmode hr hused hsmall)
      hn.qualifiedName
  · intro e hget t ht hlookup u hu hname
    have he := mem_lookupEnums_of_mem_tables hf hr hp hget ht hlookup
    obtain ⟨-, -, tables, lookups, joins, -, hlookups, -⟩ := objects_eq_ok_iff.mp hp
    obtain ⟨o, ho, rfl⟩ := mem_enums_group.mp hu
    obtain ⟨e', he', hplaced⟩ := exists_of_mem_right (forall₂_enums hp) ho
    refine name_ne_of_lookupTables hlookups he he' ?_
    -- the names of the type and of the table are those of the two enumerations
    obtain ⟨n', hn', htype⟩ := bind_eq_ok_iff.mp hplaced.object
    obtain ⟨target', -, hn'⟩ := qualifiedName_eq_ok_iff.mp hn'
    obtain ⟨target, -, hn⟩ := qualifiedName_eq_ok_iff.mp (lookupTable_eq_ok hf hlookup).1
    rw [← pure_eq_ok_iff.mp htype, hn', hn] at hname
    exact congrArg QualifiedName.name hname

/-! ### A small palette -/

namespace Palette

/-- Colours. -/
def color : Enumeration := ⟨"Color", "app", [("red", .str "red"), ("blue", .str "blue")], none⟩

/-- How colours feel. -/
def tone : Enumeration := ⟨"Tone", "app", [("warm", .str "warm"), ("cold", .str "cold")], none⟩

/-- Swatches are known by their colours. -/
def swatch : Entity where
  name := "Swatch"
  moduleName := "app"
  primaryKey := "color"
  fields := [{ name := "color", type := .ref "Color" }]

/-- Samples refer to colours through the key of a swatch and through a list, and to a tone or
another text. -/
def sample : Entity where
  name := "Sample"
  moduleName := "app"
  primaryKey := "id"
  fields :=
    [{ name := "id", type := .primitive .int64 },
      { name := "swatch", type := .forward "Swatch" },
      { name := "colors", type := .list (.ref "Color") },
      { name := "tone", type := .union [.ref "Tone", .primitive .string] }]

/-- The name of the colours. -/
def colorName : QualifiedName := .global "Color"

end Palette

/-- A palette, with default settings. -/
def palette : Converter where
  registry :=
    { types := [.enumeration Palette.color, .enumeration Palette.tone, .entity Palette.swatch,
        .entity Palette.sample]
      nodup_names := by decide }
  options := {}

theorem enumName_color : palette.EnumName Palette.color Palette.colorName where
  substitution := by decide
  primitive p := by simp [named?_standardType palette.options rfl p]
  get? := rfl
  qualifiedName := rfl
  custom := by
    simp [palette, Palette.swatch, Palette.sample, Definition.fields, NativeType.customs,
      NativeType.customsAll]

theorem reachable_palette : palette.reachable ["Sample"] =
    .ok (["Color", "Sample", "Swatch", "Tone"].filterMap palette.registry.get?) := by
  have hnames : palette.registry.closure ["Sample"] =
      .ok ["Sample", "Swatch", "Color", "Tone"] := by cbv
  exact reachable_eq_ok hnames (by decide) (by decide)

/-- The samples of the palette refer to the colours, which are declared, and the tones have a
lookup table. -/
theorem declaresEnums_palette : ∃ k, palette.assemble ["Sample"] = .ok k ∧
    (.userDefined Palette.colorName ∈ k.dataTypes ∧
      .array (.userDefined Palette.colorName) ∈ k.dataTypes ∧
      k.tables.map (fun t => t.name.name) = ["Sample", "Swatch", "Tone"]) ∧
    palette.EnumName Palette.color Palette.colorName ∧
    palette.DeclaresEnums k ∧ palette.LookupsApart k := by
  have htypes : (palette.assemble ["Sample"]).toOption.map (fun k => decide
      (.userDefined Palette.colorName ∈ k.dataTypes ∧
        .array (.userDefined Palette.colorName) ∈ k.dataTypes ∧
        k.tables.map (fun t => t.name.name) = ["Sample", "Swatch", "Tone"])) = some true := by
    rw [assemble, reachable_palette]
    decide +kernel
  obtain ⟨k, hk, htypes⟩ := exists_eq_ok_of_toOption htypes
  exact ⟨k, hk, of_decide_eq_true htypes, enumName_color,
    declaresEnums_of_assemble ObjectFactory.faithful_plain ObjectFactory.keepsComposites_plain rfl
      hk⟩

/-! ### An enumeration called like an integer type -/

namespace Gauge

/-- Levels, called like the integer type of one byte. -/
def int1 : Enumeration := ⟨"int1", "app", [("low", .str "low"), ("high", .str "high")], none⟩

/-- Gauges show a small number. -/
def gauge : Entity where
  name := "Gauge"
  moduleName := "app"
  primaryKey := "id"
  fields :=
    [{ name := "id", type := .primitive .int64 }, { name := "level", type := .primitive .int8 }]

end Gauge

/-- A gauge, where narrow integers become types of the dialect. -/
def gauge : Converter where
  registry :=
    { types := [.enumeration Gauge.int1, .entity Gauge.gauge], nodup_names := by decide }
  options := { extraNumericTypes := true }

theorem reachable_gauge :
    gauge.reachable ["Gauge"] = .ok (["Gauge"].filterMap gauge.registry.get?) := by
  have hnames : gauge.registry.closure ["Gauge"] = .ok ["Gauge"] := by cbv
  exact reachable_eq_ok hnames (by decide) (by decide)

/-- The level of a gauge has an integer type that is called like an enumeration, which is not
declared, although there are neither substitutes nor types without definition. -/
theorem not_declaresEnums_gauge :
    (gauge.options.enumMode = .type ∧ gauge.options.substitutions = [] ∧
      (∀ d ∈ gauge.registry.types, ∀ f ∈ d.fields, f.type.customs = []) ∧
      gauge.registry.get? "int1" = some (.enumeration Gauge.int1) ∧
      gauge.qualifiedName "app" "int1" = .ok (.global "int1")) ∧
    ∃ k, gauge.assemble ["Gauge"] = .ok k ∧
      (∃ d ∈ k.dataTypes, d.named? = some (.global "int1")) ∧
      ∀ u ∈ k.enums, u.name ≠ .global "int1" := by
  refine ⟨⟨rfl, rfl, by decide, rfl, rfl⟩, ?_⟩
  have htypes : (gauge.assemble ["Gauge"]).toOption.map (fun k => decide
      ((∃ d ∈ k.dataTypes, d.named? = some (.global "int1")) ∧
        ∀ u ∈ k.enums, u.name ≠ .global "int1")) = some true := by
    rw [assemble, reachable_gauge]
    decide +kernel
  obtain ⟨k, hk, htypes⟩ := exists_eq_ok_of_toOption htypes
  exact ⟨k, hk, of_decide_eq_true htypes⟩

end SchemaCatalog.Converter
