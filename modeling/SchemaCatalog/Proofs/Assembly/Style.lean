import SchemaCatalog.Proofs.Assembly.EnumTypes
import SchemaCatalog.Proofs.Converter.Style

/-!
# Catalogs in the other style

Objects that are made with names in the other style are the objects, with names in the other style
(`follows_objects`). How they are grouped into namespaces depends on the style as well: with
qualified names there is a namespace for each place, with prefixed names there is one for all of
them. Where all objects stand in the default namespace and one of them is a table, the two come to
the same (`group_eq_single`), so that a catalog in the other style is the catalog with names in the
other style (`follows_assemble`). Without the styles of their names the catalogs in both styles are
equal (`assemble_styled`).
-/

namespace SchemaCatalog

/-- A name without its style. -/
def QualifiedName.unstyled (n : QualifiedName) : QualifiedName := { n with style := .qualified }

/-- A catalog without the style of its names. -/
def Catalog.unstyled (k : Catalog) : Catalog := k.mapNames .unstyled

/-- Without the styles of its names a catalog is the same in the other style. -/
theorem Catalog.unstyled_restyled (k : Catalog) : (k.mapNames .restyled).unstyled = k.unstyled :=
  k.mapNames_mapNames _ _

namespace PlacedObjects

/-- Placed objects with the names of and in them changed. -/
def mapNames (f : QualifiedName → QualifiedName) (p : PlacedObjects) : PlacedObjects where
  enums := p.enums.map (Prod.map id (EnumerationType.mapNames f))
  structs := p.structs.map (Prod.map id (CompositeType.mapNames f))
  tables := p.tables.map (Prod.map id (Table.mapNames f))

/-! ### Objects in the default namespace -/

section InDefault

variable {α : Type} {objects : List (String × α)} (h : ∀ o ∈ objects, o.1 = "")
include h

theorem eq_of_mem_places : ∀ name ∈ places objects, name = "" := by
  intro name hname
  obtain ⟨a, ha⟩ := mem_places_iff.mp hname
  exact h _ ha

/-- All objects in the default namespace make one place, if there are any. -/
theorem places_eq_singleton (hne : objects ≠ []) : places objects = [""] := by
  refine eraseDups_of_forall_eq (fun name hname => ?_) (by simpa using hne)
  obtain ⟨o, ho, rfl⟩ := List.mem_map.mp hname
  exact h o ho

theorem inPlace_default : inPlace "" objects = objects.map Prod.snd := by
  have hall : objects.filter (fun o => o.1 = "") = objects :=
    List.filter_eq_self.mpr fun o ho => decide_eq_true (h o ho)
  rw [inPlace, hall]

theorem byPlace_default : byPlace objects = objects.map Prod.snd := by
  by_cases hne : objects = []
  · rw [hne]
    rfl
  · rw [byPlace, places_eq_singleton h hne, List.flatMap_singleton, inPlace_default h]

end InDefault

/-- Objects **stand in the default namespace** when all of them do. -/
structure InDefault (p : PlacedObjects) : Prop where
  /-- The enumeration types do. -/
  enums : ∀ o ∈ p.enums, o.1 = ""
  /-- The composite types do. -/
  structs : ∀ o ∈ p.structs, o.1 = ""
  /-- The tables do. -/
  tables : ∀ o ∈ p.tables, o.1 = ""

variable {p : PlacedObjects}

/-- Changing names moves no object. -/
theorem InDefault.mapNames (h : p.InDefault) (f : QualifiedName → QualifiedName) :
    (p.mapNames f).InDefault where
  enums := List.forall_mem_map.mpr h.enums
  structs := List.forall_mem_map.mpr h.structs
  tables := List.forall_mem_map.mpr h.tables

end PlacedObjects

namespace Converter

variable {c : Converter} {roots : List String} {types : List Definition} {p : PlacedObjects}

/-- The catalog with one namespace, the default one, for placed objects. -/
def single (c : Converter) (p : PlacedObjects) : Catalog :=
  ⟨[{ c.options.factory.newNamespace "" with
      enums := p.enums.map Prod.snd
      structs := p.structs.map Prod.snd
      tables := p.tables.map Prod.snd }]⟩

/-- Where all objects stand in the default namespace and there is a table, **both styles group them
alike**. With qualified names and no object there would be no namespace. -/
theorem group_eq_single (h : p.InDefault) (hne : p.tables ≠ []) : c.group p = c.single p := by
  unfold group
  split
  · have hplaces : (PlacedObjects.places p.tables ++ PlacedObjects.places p.enums ++
        PlacedObjects.places p.structs).eraseDups = [""] := by
      refine eraseDups_of_forall_eq (fun name hname => ?_) ?_
      · rw [List.mem_append, List.mem_append] at hname
        rcases hname with (hname | hname) | hname
        · exact PlacedObjects.eq_of_mem_places h.tables name hname
        · exact PlacedObjects.eq_of_mem_places h.enums name hname
        · exact PlacedObjects.eq_of_mem_places h.structs name hname
      · rw [PlacedObjects.places_eq_singleton h.tables hne]
        exact List.cons_ne_nil _ _
    rw [PlacedObjects.qualifiedCatalog]
    dsimp only
    rw [hplaces, List.map_singleton, PlacedObjects.inPlace_default h.enums,
      PlacedObjects.inPlace_default h.structs, PlacedObjects.inPlace_default h.tables, single]
  · rw [PlacedObjects.prefixedCatalog, PlacedObjects.byPlace_default h.enums,
      PlacedObjects.byPlace_default h.structs, PlacedObjects.byPlace_default h.tables, single]

theorem single_mapNames (f : QualifiedName → QualifiedName) :
    c.restyled.single (p.mapNames f) = (c.single p).mapNames f := by
  simp only [single, PlacedObjects.mapNames, Catalog.mapNames, Namespace.mapNames, List.map_map,
    List.map_singleton]
  rfl

/-- The catalog of objects with changed names is the catalog with changed names. -/
theorem group_restyled (h : p.InDefault) (hne : p.tables ≠ []) (f : QualifiedName → QualifiedName) :
    c.restyled.group (p.mapNames f) = (c.group p).mapNames f := by
  have hne' : (p.mapNames f).tables ≠ [] := by simpa [PlacedObjects.mapNames] using hne
  rw [group_eq_single (h.mapNames f) hne', group_eq_single h hne, single_mapNames]

/-! ### Objects -/

section Objects

variable (hs : c.options.StyleFree)

theorem nativeEnums_restyled : c.restyled.nativeEnums = c.nativeEnums :=
  nativeEnums_of_registry rfl rfl

/-- An object stands where the one that it follows stands. -/
theorem follows_place {α β : Type} {g : α → β} {made : Except ConvertError α}
    {made' : Except ConvertError β} (h : Follows g made made') (moduleName : String) :
    Follows (Prod.map id g) (do let a ← made; c.place moduleName a)
      (do let b ← made'; c.restyled.place moduleName b) :=
  h.bind fun a => (Follows.refl (c.namespaceOf moduleName)).bind fun name => .ok (name, a)

include hs

/-- Enumeration types follow the style, and stand in the same places. -/
theorem follows_enumTypes (types : List Definition) :
    Follows (List.map (Prod.map id (EnumerationType.mapNames .restyled))) (c.enumTypes types)
      (c.restyled.enumTypes types) := by
  unfold enumTypes
  rw [nativeEnums_restyled]
  refine .mapM fun e _ => ?_
  refine (follows_qualifiedName hs e.moduleName e.name).bind fun n => ?_
  exact (Follows.refl (c.namespaceOf e.moduleName)).bind fun name =>
    .ok (name, EnumerationType.mk n e.valueLabels)

/-- Composite types follow the style and stand in the same order, since the order is found by the
names of structs. -/
theorem follows_compositeTypes (types : List Definition) :
    Follows (List.map (Prod.map id (CompositeType.mapNames .restyled))) (c.compositeTypes types)
      (c.restyled.compositeTypes types) := by
  unfold compositeTypes
  rw [structMode_restyled]
  split
  · refine (Follows.refl (dependencyOrder _)).bind fun structs => ?_
    exact .mapM fun s _ => follows_place (follows_composite hs (.struct s)) s.moduleName
  · exact .ok []

/-- The tables of entities follow the style, each by itself. -/
theorem follows_entityTables (entities : List Entity) :
    Follows (List.map (Prod.map id (Table.mapNames .restyled))) (c.entityTables entities)
      (c.restyled.entityTables entities) :=
  .mapM fun e _ => follows_place (follows_table hs e) e.moduleName

theorem follows_lookupTables (native : List Enumeration) (entities : List Entity) :
    Follows (List.map (Prod.map id (Table.mapNames .restyled))) (c.lookupTables native entities)
      (c.restyled.lookupTables native entities) := by
  have hlookups : c.restyled.lookupEnums = c.lookupEnums := rfl
  unfold lookupTables
  rw [hlookups]
  refine .mapM fun e _ => ?_
  split
  · exact .error _ _
  · exact follows_place (follows_lookupTable hs e) e.moduleName

/-- Join tables follow the style: their own names and those in their references. -/
theorem follows_joinTables (entities : List Entity) :
    Follows (List.map (Prod.map id (Table.mapNames .restyled))) (c.joinTables entities)
      (c.restyled.joinTables entities) := by
  refine .mapM_filterMap fun ⟨e, f⟩ _ => ?_
  unfold fieldJoin?
  rw [role_restyled]
  split
  · refine (follows_joinTable hs e f.name _).mapError.bind fun t => ?_
    exact (follows_place (.ok t) e.moduleName).bind fun placed => .ok (some placed)
  · exact .ok none

/-- **The objects** in the other style are the objects, with names in the other style. -/
theorem follows_objects (types : List Definition) :
    Follows (PlacedObjects.mapNames .restyled) (c.objects types) (c.restyled.objects types) := by
  unfold objects
  rw [nativeEnums_restyled]
  refine (follows_enumTypes hs types).bind fun enums => ?_
  refine (follows_compositeTypes hs types).bind fun structs => ?_
  refine (follows_entityTables hs _).bind fun tables => ?_
  refine (follows_lookupTables hs _ _).bind fun lookups => ?_
  refine (follows_joinTables hs _).bind fun joins => ?_
  rw [← List.map_append, ← List.map_append]
  exact .ok (PlacedObjects.mk enums structs (tables ++ lookups ++ joins))

/-- Where no module has a namespace of its own, all objects stand in the default namespace. -/
theorem inDefault_of_objects (h : c.objects types = .ok p) : p.InDefault := by
  have hnamespace : ∀ moduleName, c.namespaceOf moduleName = .ok "" := by
    intro moduleName
    simp only [namespaceOf, NamespaceMapping.target, hs.namespaces]
    rfl
  have hplaced : ∀ {α : Type} {moduleName : String} {made : Except ConvertError α} {o : String × α},
      c.PlacedFrom moduleName made o → o.1 = "" := fun {_ moduleName _ _} ho =>
    (Except.ok.inj ((hnamespace moduleName).symm.trans ho.place)).symm
  obtain ⟨structs, -, -, hstructs⟩ := exists_forall₂_structs h
  refine ⟨fun o ho => ?_, fun o ho => ?_, fun o ho => ?_⟩
  · obtain ⟨e, -, hmade⟩ := exists_of_mem_right (forall₂_enums h) ho
    exact hplaced hmade
  · obtain ⟨s, -, hmade⟩ := exists_of_mem_right hstructs ho
    exact hplaced hmade
  · obtain ⟨origin, -, hmade⟩ := exists_of_mem_right (forall₂_tables h) ho
    exact hplaced hmade

omit hs in
/-- An entity has a table. -/
theorem tables_ne_nil (h : c.objects types = .ok p) {e : Entity} (he : .entity e ∈ types) :
    p.tables ≠ [] := by
  have horigin : .item (.entity e) ∈ c.tableOrigins (types.filterMap Definition.entity?) :=
    List.mem_append_left _ <|
      List.mem_map_of_mem (mem_tableItems_entity_iff.mpr (mem_entities_iff.mpr he))
  obtain ⟨o, ho, -⟩ := exists_of_mem_left (forall₂_tables h) horigin
  exact List.ne_nil_of_mem ho

/-- **The catalog in the other style** is the catalog, with names in the other style, where the
roots reach an entity. -/
theorem follows_assemble {e : Entity} (he : c.registry.ReachesDefinition roots (.entity e)) :
    Follows (Catalog.mapNames .restyled) (c.assemble roots) (c.restyled.assemble roots) := by
  have hreachable : c.restyled.reachable roots = c.reachable roots := rfl
  unfold assemble
  rw [hreachable]
  refine (Follows.refl (c.reachable roots)).bind_of_ok fun types hr => ?_
  refine (follows_objects hs types).bind_of_ok fun p hp => ?_
  have hne := tables_ne_nil hp ((mem_reachable_iff hr).mpr he)
  rw [group_restyled (inDefault_of_objects hs hp) hne]
  exact .ok (c.group p)

end Objects

/-! ### Catalogs in both styles -/

/-- A converter with qualified names or with prefixed ones. -/
def styled (c : Converter) (qualified : Bool) : Converter :=
  { c with options := { c.options with qualifiedNames := qualified } }

/-- **The style of names changes nothing but itself**, where no module has a namespace of its own,
no data type is put in the place of another, narrow integers are standard ones, the factory is blind
to styles, and the roots reach an entity: with qualified names there is a catalog exactly when there
is one with prefixed names, both have one namespace, the default one, and apart from the style of
names they are equal. -/
theorem assemble_styled (hf : c.options.factory.StyleBlind)
    (hempty : c.options.namespaces.isEmpty = true) (hnone : c.options.substitutions = [])
    (hextra : c.options.extraNumericTypes = false)
    (hentity : ∃ e, c.registry.ReachesDefinition roots (.entity e)) :
    ((∃ k, (c.styled true).assemble roots = .ok k) ↔
        ∃ k, (c.styled false).assemble roots = .ok k) ∧
      ∀ k k', (c.styled true).assemble roots = .ok k → (c.styled false).assemble roots = .ok k' →
        k.unstyled = k'.unstyled ∧
          ∃ n, k.namespaces = [n] ∧ n.name = (c.options.factory.newNamespace "").name := by
  obtain ⟨e, he⟩ := hentity
  have hs : ∀ qualified, (c.styled qualified).options.StyleFree := fun _ =>
    ⟨hempty, hnone, hextra, hf⟩
  have hqualified := follows_assemble (hs false) he
  have hprefixed := follows_assemble (hs true) he
  refine ⟨⟨fun ⟨k, hk⟩ => ⟨_, hprefixed.eq_ok hk⟩, fun ⟨k, hk⟩ => ⟨_, hqualified.eq_ok hk⟩⟩, ?_⟩
  intro k k' hk hk'
  have hkk' : k' = k.mapNames .restyled := Except.ok.inj (hk'.symm.trans (hprefixed.eq_ok hk))
  refine ⟨by rw [hkk', Catalog.unstyled_restyled], ?_⟩
  obtain ⟨types, p, hr, hp, rfl⟩ := assemble_eq_ok_iff.mp hk
  have hne := tables_ne_nil hp ((mem_reachable_iff hr).mpr he)
  rw [group_eq_single (inDefault_of_objects (hs true) hp) hne]
  exact ⟨_, rfl, rfl⟩

/-- The colours of the palette are named in two styles, in catalogs that are equal apart from
them. -/
theorem assemble_styled_palette :
    ∃ k k', (palette.styled true).assemble ["Sample"] = .ok k ∧
      (palette.styled false).assemble ["Sample"] = .ok k' ∧
      k.enums.map EnumerationType.name = [⟨none, "Color", .qualified⟩] ∧
      k'.enums.map EnumerationType.name = [⟨none, "Color", .prefixed⟩] ∧
      k.unstyled = k'.unstyled ∧ ∃ n, k.namespaces = [n] ∧ n.name = "" := by
  have hnames : ∀ qualified, ((palette.styled qualified).assemble ["Sample"]).toOption.map
      (fun k => k.enums.map EnumerationType.name) =
        some [⟨none, "Color", if qualified then .qualified else .prefixed⟩] := by
    intro qualified
    rw [assemble, show (palette.styled qualified).reachable ["Sample"] = _ from reachable_palette]
    cases qualified <;> decide +kernel
  obtain ⟨k, hk, henums⟩ := exists_eq_ok_of_toOption (hnames true)
  obtain ⟨k', hk', henums'⟩ := exists_eq_ok_of_toOption (hnames false)
  have hentity : ∃ e, palette.registry.ReachesDefinition ["Sample"] (.entity e) :=
    ⟨Palette.sample, rfl, .root List.mem_cons_self⟩
  have hstyled := assemble_styled ObjectFactory.styleBlind_plain rfl rfl rfl hentity
  exact ⟨k, k', hk, hk', henums, henums', hstyled.2 k k' hk hk'⟩

end Converter

end SchemaCatalog
