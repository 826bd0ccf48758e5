import SchemaCatalog.Proofs.Assembly.SmallEnums

/-!
# Labels that stand twice

The labels of an enumeration are those of the values of its members, one for each member, while an
enumeration is written with its labels when at least two of them differ. Members may share a value,
and different values may share a label; then a label is written twice. The labels that are written
are those of enumerations with labels enough that are used in reach, where enumerations are types,
and those in the data type of a field that has one, where they are inlined (`WritesLabels`). So no
label stands twice in a catalog exactly when each of these has as many different labels as members
(`distinctLabels_iff`), which nothing checks (`not_distinctLabels_crossing`).
-/

namespace SchemaCatalog

/-- The labels of an enumeration differ when all members count as different ones. -/
theorem Enumeration.nodup_valueLabels_iff {e : Enumeration} :
    e.valueLabels.Nodup ↔ e.distinctCount = e.members.length := by
  have hlength : e.valueLabels.length = e.members.length := by simp [valueLabels, values]
  rw [← length_eraseDups_eq_iff, hlength]
  rfl

/-- A catalog has **distinct labels** when no enumeration, be it a type or in a data type, at any
depth, lists a label twice. -/
structure Catalog.DistinctLabels (k : Catalog) : Prop where
  /-- The labels of an enumeration type are distinct. -/
  enums : ∀ u ∈ k.enums, u.values.Nodup
  /-- The labels in data types are distinct. -/
  typeParts : ∀ labels, .enumeration labels ∈ k.typeParts → labels.Nodup

namespace Converter

variable {c : Converter} {roots : List String} {types : List Definition} {p : PlacedObjects}
  {e : Enumeration} {t : NativeType} {d : DataType} {k : Catalog}

/-- The labels of an enumeration **are written** when it has labels enough and is used, either as a
type or in the data type of a field. -/
inductive WritesLabels (c : Converter) (roots : List String) (e : Enumeration) : Prop
  /-- Where enumerations are types, one that is used plainly is. -/
  | declared : c.options.enumMode = .type → c.isSmall e = false → c.UsedInReach roots e →
    WritesLabels c roots e
  /-- Where enumerations are inlined, the data type of a field has its labels in it; the field is
  that of an entity, or of a struct if structs are types. -/
  | inlined {owner : Definition} {f : Field} {d : DataType} :
    c.options.enumMode = .inlined → c.isSmall e = false →
      c.registry.ReachesDefinition roots (.enumeration e) →
        c.registry.ReachesDefinition roots owner →
          (c.options.structMode = .type ∨ ∃ e, owner = .entity e) → f ∈ owner.fields →
            c.mapMember f.type = .ok d → .enumeration e.valueLabels ∈ d.parts →
              WritesLabels c roots e

/-! ### Enumeration types -/

/-- **The labels of enumeration types** are those of the enumerations that are used in reach, where
enumerations are types. -/
theorem exists_enum_values_iff (hr : c.reachable roots = .ok types)
    (hp : c.objects types = .ok p) {labels : List String} :
    (∃ u ∈ (c.group p).enums, u.values = labels) ↔
      ∃ e, c.options.enumMode = .type ∧ c.isSmall e = false ∧ c.UsedInReach roots e ∧
        e.valueLabels = labels := by
  constructor
  · rintro ⟨u, hu, rfl⟩
    obtain ⟨o, ho, rfl⟩ := mem_enums_group.mp hu
    obtain ⟨e, he, hplaced⟩ := exists_of_mem_right (forall₂_enums hp) ho
    obtain ⟨hmode, -, hcount, owner, howner, hused⟩ :=
      (mem_nativeEnums_iff fun d hd => ((mem_reachable_iff hr).mp hd).1).mp he
    refine ⟨e, hmode, ?_, ⟨owner, (mem_reachable_iff hr).mp howner, hused⟩,
      (enumType_eq_ok hplaced.object).2.symm⟩
    rw [isSmall, hmode, decide_eq_false (Nat.not_lt.mpr hcount), Bool.and_false]
  · rintro ⟨e, hmode, hsmall, hused, rfl⟩
    have he := mem_nativeEnums_of_usedInReach hmode hr hused hsmall
    obtain ⟨o, ho, hplaced⟩ := exists_of_mem_left (forall₂_enums hp) he
    exact ⟨o.2, mem_enums_group.mpr ⟨o, ho, rfl⟩, (enumType_eq_ok hplaced.object).2⟩

/-! ### Data types -/

/-- A list of entities is not mapped. -/
theorem mapList_ne_ok {item : NativeType} {owner : Entity}
    (href : c.registry.referenced? item.unadorned = some (.entity owner)) :
    c.mapList t item ≠ .ok d := by
  intro h
  have hsimple := Registry.isSimple_of_referenced? href rfl
  rw [Registry.isSimple_unadorned] at hsimple
  rw [mapList, hsimple, if_neg Bool.false_ne_true] at h
  split at h
  · cases h
  · rename_i hentity
    obtain ⟨n, hn, -⟩ := bind_eq_ok_iff.mp h
    cases item with
    | ref _ | forward _ =>
      exact hentity (Option.isSome_iff_exists.mpr ⟨owner, Registry.entity?_eq_some_iff.mpr href⟩)
    | custom _ _ => cases href
    | _ => cases hn

/-- The type of a relationship is not mapped, unless the settings put a data type in its place. -/
theorem substitute?_of_isRelationship (hmode : c.options.enumMode ≠ .relation)
    {ofKey : NativeType → Except ConvertError DataType} :
    ∀ {t : NativeType} {d : DataType}, c.isRelationship t = true → c.mapMemberWith ofKey t = .ok d →
      ∃ u, c.options.substitute? u = some d := by
  intro t d hrel h
  cases hs : c.options.substitute? t with
  | some d' =>
    unfold mapMemberWith at h
    rw [hs] at h
    cases h
    exact ⟨t, hs⟩
  | none =>
    obtain ⟨item, hitem⟩ := Option.isSome_iff_exists.mp hrel
    obtain ⟨i, hi, href, henum⟩ := relatedItem?_eq_some_iff.mp hitem
    match t with
    | .annotated base as =>
      have hsimple : c.registry.isSimple base = false := by
        rw [← Registry.isSimple_unadorned]
        exact congrArg c.registry.isSimple hi
      rw [mapMemberWith_annotated hs, hsimple, if_neg Bool.false_ne_true] at h
      split at h
      · exact substitute?_of_isRelationship hmode (t := base) hrel h
      · cases h
    | .list _ =>
      cases hi
      rw [mapMemberWith, hs] at h
      cases item with
      | entity owner => exact absurd h (mapList_ne_ok href)
      | enumeration e => exact absurd (henum e rfl) hmode
    | .primitive _ | .ref _ | .forward _ | .literal _ | .union _ | .custom _ _ => cases hi

/-- The data types of the fields of a struct that is reached are in the catalog, if structs are
types. -/
theorem mem_dataTypes_of_struct (hk : c.options.factory.KeepsComposites)
    (hr : c.reachable roots = .ok types) (hp : c.objects types = .ok p)
    (hmode : c.options.structMode = .type) {s : Struct}
    (hs : c.registry.ReachesDefinition roots (.struct s)) {f : Field} (hfield : f ∈ s.fields)
    (h : c.mapMember f.type = .ok d) : d ∈ (c.group p).dataTypes := by
  obtain ⟨structs, hstructs, -, hplaced⟩ := exists_forall₂_structs hp
  have hmem := ((mem_structs_of_dependencyOrder hr (hstructs hmode)).2 s).mpr hs
  obtain ⟨o, ho, hplaced⟩ := exists_of_mem_left hplaced hmem
  have hmem : d ∈ o.2.dataTypes :=
    ((composite_eq_ok hk hplaced.object).2 d).mpr ⟨f, hfield, h⟩
  exact List.mem_append_right _
    (List.mem_flatMap.mpr ⟨o.2, mem_structs_group.mpr ⟨o, ho, rfl⟩, hmem⟩)

section Inlined

variable {labels : List String}
  (hlabels : ∀ s ∈ c.options.substitutions, ∀ labels, .enumeration labels ∉ s.2.parts)
include hlabels

/-- Without anything in reach, no labels arise. -/
theorem not_arises_labels : ¬ c.Arises [] (.enumeration labels) := by
  intro h
  cases h with
  | plain hplain => cases hplain
  | substitute hs hd => exact hlabels _ hs labels hd
  | labels _ _ he => exact Registry.not_reaches_nil he.2

/-- **Labels in data types** are those in the data types of fields, where enumerations are
inlined. -/
theorem exists_writesLabels_of_mem_typeParts (hf : c.options.factory.Faithful)
    (hk : c.options.factory.KeepsComposites) (h : c.assemble roots = .ok k)
    (hd : .enumeration labels ∈ k.typeParts) :
    ∃ e, c.WritesLabels roots e ∧ e.valueLabels = labels := by
  cases arises_of_mem_typeParts hf hk h hd with
  | plain hplain => cases hplain
  | substitute hs hd => exact absurd hd (hlabels _ hs labels)
  | @labels e hmode hsmall he =>
    obtain ⟨types, p, hr, hp, rfl⟩ := assemble_eq_ok_iff.mp h
    obtain ⟨whole, hwhole, hd⟩ := List.mem_flatMap.mp hd
    -- a column that is not made for a field needs nothing in reach
    have hnone : ¬ c.Arises [] whole := fun harises =>
      not_arises_labels hlabels (harises.of_mem_parts hd)
    refine ⟨e, ?_, rfl⟩
    cases typeOrigin_of_mem_dataTypes hf hk hr hp hwhole with
    | field howner hstructs hfield h =>
      exact .inlined hmode hsmall he howner hstructs hfield h hd
    | lookupKey h => exact absurd (h ▸ arises_mapPrimitive _) hnone
    | label h => exact absurd (arises_of_mapSimple_labelType h) hnone
    | joinKey h => exact absurd (arises_of_mapMember_primitive h) hnone

/-- The labels of an enumeration that are written are in the catalog. -/
theorem mem_of_writesLabels (hf : c.options.factory.Faithful)
    (hk : c.options.factory.KeepsComposites) (h : c.assemble roots = .ok k)
    (he : c.WritesLabels roots e) :
    (∃ u ∈ k.enums, u.values = e.valueLabels) ∨ .enumeration e.valueLabels ∈ k.typeParts := by
  obtain ⟨types, p, hr, hp, rfl⟩ := assemble_eq_ok_iff.mp h
  cases he with
  | declared hmode hsmall hused =>
    exact .inl ((exists_enum_values_iff hr hp).mpr ⟨e, hmode, hsmall, hused, rfl⟩)
  | @inlined owner f d hmode _ _ howner hstructs hfield h hd =>
    refine .inr (List.mem_flatMap.mpr ⟨d, ?_, hd⟩)
    cases owner with
    | struct s =>
      obtain hstructs | ⟨_, heq⟩ := hstructs
      · exact mem_dataTypes_of_struct hk hr hp hstructs howner hfield h
      · cases heq
    | entity owner =>
      have hplain : c.isRelationship f.type = false := by
        rw [Bool.eq_false_iff]
        intro hrel
        rw [mapMember, mapMemberAlong_eq] at h
        obtain ⟨u, hu⟩ := substitute?_of_isRelationship (by rw [hmode]; decide) hrel h
        exact not_arises_labels hlabels ((arises_substitute? hu).of_mem_parts hd)
      obtain ⟨d', hmem, hd'⟩ := exists_mem_dataTypes hf hr hp howner hfield hplain
      cases h.symm.trans hd'
      exact hmem
    | enumeration _ => cases hfield

/-- **Distinct labels**: no label stands twice in a catalog exactly when every enumeration whose
labels are written has as many different labels as members. -/
theorem distinctLabels_iff (hf : c.options.factory.Faithful)
    (hk : c.options.factory.KeepsComposites) (h : c.assemble roots = .ok k) :
    k.DistinctLabels ↔ ∀ e, c.WritesLabels roots e → e.distinctCount = e.members.length := by
  simp only [← Enumeration.nodup_valueLabels_iff]
  constructor
  · intro hdistinct e he
    obtain ⟨u, hu, hvalues⟩ | hd := mem_of_writesLabels hlabels hf hk h he
    · exact hvalues ▸ hdistinct.enums u hu
    · exact hdistinct.typeParts _ hd
  · intro hwritten
    refine ⟨fun u hu => ?_, fun labels hd => ?_⟩
    · obtain ⟨types, p, hr, hp, rfl⟩ := assemble_eq_ok_iff.mp h
      obtain ⟨e, hmode, hsmall, hused, hvalues⟩ := (exists_enum_values_iff hr hp).mp ⟨u, hu, rfl⟩
      exact hvalues ▸ hwritten e (.declared hmode hsmall hused)
    · obtain ⟨e, he, hvalues⟩ := exists_writesLabels_of_mem_typeParts hlabels hf hk h hd
      exact hvalues ▸ hwritten e he

end Inlined

/-- Sizes have as many labels as members. Brands do not, and their labels are not written. -/
theorem distinctLabels_wardrobe : ∃ k, wardrobe.assemble ["Shirt"] = .ok k ∧
    .enumeration ["S", "L"] ∈ k.typeParts ∧ k.DistinctLabels := by
  have hparts : (wardrobe.assemble ["Shirt"]).toOption.map
      (fun k => decide (.enumeration ["S", "L"] ∈ k.typeParts)) = some true := by
    rw [assemble, reachable_wardrobe]
    decide +kernel
  obtain ⟨k, hk, hparts⟩ := exists_eq_ok_of_toOption hparts
  have hnone : ∀ s, s ∉ wardrobe.options.substitutions := fun _ => List.not_mem_nil
  refine ⟨k, hk, of_decide_eq_true hparts, (distinctLabels_iff (fun s hs => absurd hs (hnone s))
    ObjectFactory.faithful_plain ObjectFactory.keepsComposites_plain hk).mpr fun e he => ?_⟩
  have htypes : ["Brand", "Shirt", "Size"].filterMap wardrobe.registry.get? =
      [.enumeration Wardrobe.brand, .entity Wardrobe.shirt, .enumeration Wardrobe.size] := rfl
  cases he with
  | declared hmode => cases hmode
  | inlined _ hsmall he =>
    have hmem := (mem_reachable_iff reachable_wardrobe).mpr he
    simp only [htypes, List.mem_cons, Definition.enumeration.injEq, reduceCtorEq, List.not_mem_nil,
      false_or, or_false] at hmem
    obtain rfl | rfl := hmem
    · exact absurd hsmall (by decide)
    · decide

/-! ### A crossing -/

namespace Crossing

/-- Signals, two of which show the same light. -/
def signal : Enumeration where
  name := "Signal"
  moduleName := "app"
  members := [("stop", .str "red"), ("go", .str "green"), ("halt", .str "red")]

/-- Lamps show a signal. -/
def lamp : Entity where
  name := "Lamp"
  moduleName := "app"
  primaryKey := "id"
  fields :=
    [{ name := "id", type := .primitive .int64 }, { name := "signal", type := .ref "Signal" }]

end Crossing

/-- A crossing, with a representation of enumerations and otherwise default settings. -/
def crossing (mode : EnumMode) : Converter where
  registry :=
    { types := [.enumeration Crossing.signal, .entity Crossing.lamp], nodup_names := by decide }
  options := { enumMode := mode }

theorem reachable_crossing (mode : EnumMode) : (crossing mode).reachable ["Lamp"] =
    .ok (["Lamp", "Signal"].filterMap (crossing mode).registry.get?) := by
  have hnames : (crossing mode).registry.closure ["Lamp"] = .ok ["Lamp", "Signal"] := by cbv
  exact reachable_eq_ok hnames (by decide) (by decide)

/-- The lights of a crossing are declared, or inlined, with the red one twice. -/
theorem not_distinctLabels_crossing :
    (∃ k, (crossing .type).assemble ["Lamp"] = .ok k ∧
      (∃ u ∈ k.enums, u.values = ["red", "green", "red"]) ∧ ¬ k.DistinctLabels) ∧
    ∃ k, (crossing .inlined).assemble ["Lamp"] = .ok k ∧
      .enumeration ["red", "green", "red"] ∈ k.typeParts ∧ ¬ k.DistinctLabels := by
  have hrepeated : ¬ ["red", "green", "red"].Nodup := by decide
  constructor
  · have henums : ((crossing .type).assemble ["Lamp"]).toOption.map
        (fun k => decide (∃ u ∈ k.enums, u.values = ["red", "green", "red"])) = some true := by
      rw [assemble, reachable_crossing]
      decide +kernel
    obtain ⟨k, hk, henums⟩ := exists_eq_ok_of_toOption henums
    obtain ⟨u, hu, hvalues⟩ := of_decide_eq_true henums
    exact ⟨k, hk, ⟨u, hu, hvalues⟩, fun h => hrepeated (hvalues ▸ h.enums u hu)⟩
  · have hparts : ((crossing .inlined).assemble ["Lamp"]).toOption.map
        (fun k => decide (.enumeration ["red", "green", "red"] ∈ k.typeParts)) = some true := by
      rw [assemble, reachable_crossing]
      decide +kernel
    obtain ⟨k, hk, hparts⟩ := exists_eq_ok_of_toOption hparts
    have hd := of_decide_eq_true hparts
    exact ⟨k, hk, hd, fun h => hrepeated (h.typeParts _ hd)⟩

end Converter

end SchemaCatalog
