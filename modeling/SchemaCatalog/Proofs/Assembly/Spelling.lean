import SchemaCatalog.Proofs.Assembly.Contents
import SchemaCatalog.Proofs.Assembly.Locality
import SchemaCatalog.Proofs.Converter.TableSpelling

/-!
# Catalogs under another spelling

The roots reach the same definitions, respelled, in the same order (`reachable_respelled`), and the
same enumerations, structs and lookup tables are made of them. So the respelled definitions have
the same catalog where keys are spelled alike (`toOption_assemble_respelled`). That is no more than
a catalog needs: `assemble_eq_ok_iff_respelled` says that there is a catalog just when the
respelled definitions have it and keys are spelled alike. Without the latter there may be none:
the keys of a union that are one type in two spellings count as two.
-/

namespace SchemaCatalog

/-! ### The order of structs -/

section Order

variable (structs : List Struct)

/-- A struct is found by its name in either spelling. -/
theorem find?_respelled (name : String) :
    (structs.map Struct.respelled).find? (fun t => t.name = name) =
      (structs.find? fun t => t.name = name).map Struct.respelled := by
  rw [List.find?_map]
  rfl

theorem any_name_respelled (listed : List Struct) (name : String) :
    ((listed.map Struct.respelled).any fun l => l.name = name) =
      listed.any fun l => l.name = name := by
  rw [List.any_map]
  rfl

/-- The search for an order goes the same way in either spelling, since a struct mentions the same
names. -/
theorem visit_respelled (depth : Nat) (path : List String) (s : Struct) (listed : List Struct) :
    s.respelled.visit (structs.map Struct.respelled) depth path (listed.map Struct.respelled) =
      (s.visit structs depth path listed).map (List.map Struct.respelled) := by
  induction depth generalizing path s listed with
  | zero => rfl
  | succ depth ih =>
    have hmention : ∀ listed name,
        s.respelled.visitMention (structs.map Struct.respelled) depth path
          (listed.map Struct.respelled) name =
            (s.visitMention structs depth path listed name).map (List.map Struct.respelled) := by
      intro listed name
      unfold Struct.visitMention
      rw [find?_respelled, Struct.name_respelled]
      split
      · rfl
      · cases structs.find? fun t => t.name = name with
        | none => rfl
        | some t => exact ih _ t listed
    unfold Struct.visit
    rw [any_name_respelled, Struct.name_respelled, Struct.mentions_respelled]
    split
    · rfl
    · split
      · rfl
      · have hfold := foldlM_hom (g := List.map Struct.respelled) hmention s.mentions listed
        change (s.mentions.foldlM
            (s.respelled.visitMention (structs.map Struct.respelled) depth path)
              (listed.map Struct.respelled)).map (· ++ [s.respelled]) =
          ((s.mentions.foldlM (s.visitMention structs depth path) listed).map (· ++ [s])).map
            (List.map Struct.respelled)
        rw [hfold]
        cases s.mentions.foldlM (s.visitMention structs depth path) listed with
        | error e => rfl
        | ok next => exact congrArg Except.ok (by simp)

/-- **Structs are put in the same order.** -/
theorem dependencyOrder_respelled :
    dependencyOrder (structs.map Struct.respelled) =
      (dependencyOrder structs).map (List.map Struct.respelled) := by
  unfold dependencyOrder
  rw [List.foldlM_map, List.length_map]
  exact foldlM_hom (g := List.map Struct.respelled)
    (fun listed s => visit_respelled structs (structs.length + 1) [] s listed) structs []

end Order

namespace Converter

variable {c : Converter} {roots : List String} {types : List Definition}

/-- **The same definitions are reached, respelled.** -/
theorem reachable_respelled (c : Converter) (roots : List String) :
    c.respelled.reachable roots = (c.reachable roots).map (List.map Definition.respelled) := by
  unfold reachable
  rw [registry_respelled, Registry.closure_respelled]
  cases c.registry.closure roots with
  | error e => rfl
  | ok names =>
    have hresolve : names.mapM c.registry.respelled.resolve =
        (names.mapM c.registry.resolve).map (List.map Definition.respelled) :=
      (mapM_congr fun name _ => c.registry.resolve_respelled name).trans map_mapM.symm
    change (names.mapM c.registry.respelled.resolve >>= fun types => _) =
      (names.mapM c.registry.resolve >>= fun types => _).map (List.map Definition.respelled)
    rw [hresolve]
    cases names.mapM c.registry.resolve with
    | error e => rfl
    | ok types =>
      refine congrArg Except.ok (List.map_mergeSort fun a _ b _ => ?_).symm
      rw [Definition.name_respelled, Definition.name_respelled]

/-! ### Uses of enumerations -/

mutual

/-- The enumerations that a type uses without extending them do not depend on the spelling. -/
theorem plainEnums_respelled (c : Converter) :
    ∀ t : NativeType, c.respelled.plainEnums t.respelled = c.plainEnums t
  | .annotated base _ => by
    unfold plainEnums
    exact plainEnums_respelled c base
  | .list item => by
    unfold plainEnums
    exact plainEnums_respelled c item
  | .union members => by
    have hextensible := c.registry.extensible?_respelled (.union members)
    rw [NativeType.respelled] at hextensible ⊢
    unfold plainEnums
    rw [registry_respelled, hextensible, plainEnumsAll_respelled c members]
  | .ref name => by
    unfold plainEnums
    exact congrArg (fun e => (e.map Enumeration.name).toList)
      (c.registry.enumeration?_respelled (.ref name))
  | .forward name => by
    unfold plainEnums
    exact congrArg (fun e => (e.map Enumeration.name).toList)
      (c.registry.enumeration?_respelled (.forward name))
  | .primitive _ | .literal _ | .custom _ _ => by
    unfold plainEnums
    rfl

theorem plainEnumsAll_respelled (c : Converter) : ∀ ts : List NativeType,
    c.respelled.plainEnumsAll (NativeType.respelledAll ts) = c.plainEnumsAll ts
  | [] => by
    unfold plainEnumsAll
    rfl
  | t :: ts => by
    rw [NativeType.respelledAll, plainEnumsAll, plainEnumsAll, plainEnums_respelled c t,
      plainEnumsAll_respelled c ts]

end

/-- Which enumerations become types does not depend on the spelling. -/
theorem nativeEnums_respelled (c : Converter) (types : List Definition) :
    c.respelled.nativeEnums (types.map Definition.respelled) = c.nativeEnums types := by
  have henums : (types.map Definition.respelled).filterMap Definition.enumeration? =
      types.filterMap Definition.enumeration? := by
    rw [List.filterMap_map]
    exact List.filterMap_congr fun d _ => d.enumeration?_respelled
  have hnative : c.respelled.isNative (types.map Definition.respelled) = c.isNative types := by
    funext e
    simp only [isNative, isSmall_respelled, List.any_map, Function.comp_def,
      Definition.fields_respelled, Field.type_respelled, plainEnums_respelled]
  unfold nativeEnums
  rw [henums, hnative, options_respelled]

theorem enumTypes_respelled (c : Converter) (types : List Definition) :
    c.respelled.enumTypes (types.map Definition.respelled) = c.enumTypes types := by
  unfold enumTypes
  rw [nativeEnums_respelled]
  rfl

theorem entities_respelled (types : List Definition) :
    (types.map Definition.respelled).filterMap Definition.entity? =
      (types.filterMap Definition.entity?).map Entity.respelled := by
  rw [List.filterMap_map, List.map_filterMap]
  exact List.filterMap_congr fun d _ => d.entity?_respelled

theorem structs_respelled (types : List Definition) :
    (types.map Definition.respelled).filterMap Definition.struct? =
      (types.filterMap Definition.struct?).map Struct.respelled := by
  rw [List.filterMap_map, List.map_filterMap]
  exact List.filterMap_congr fun d _ => d.struct?_respelled

/-- The enumerations with lookup tables do not depend on the spelling, nor does their order. -/
theorem lookupEnums_respelled (c : Converter) (entities : List Entity) :
    c.respelled.lookupEnums (entities.map Entity.respelled) = c.lookupEnums entities := by
  have hfields : (entities.map Entity.respelled).flatMap Entity.fields =
      (entities.flatMap Entity.fields).map Field.respelled := by
    rw [List.flatMap_map, List.map_flatMap]
    rfl
  have hregular : c.respelled.regularLookup? ∘ Field.respelled = c.regularLookup? := by
    funext f
    rw [Function.comp_apply, regularLookup?, regularLookup?, Field.type_respelled, role_respelled]
    cases c.role f.type with
    | relationship item => cases item <;> rfl
    | _ => rfl
  have hextensible : c.respelled.extensibleLookup? ∘ Field.respelled = c.extensibleLookup? := by
    funext f
    rw [Function.comp_apply, extensibleLookup?, extensibleLookup?, Field.type_respelled,
      role_respelled]
    cases c.role f.type <;> rfl
  unfold lookupEnums
  dsimp only
  rw [hfields, List.filterMap_map, List.filterMap_map, hregular, hextensible]

theorem lookupTables_respelled (c : Converter) (native : List Enumeration)
    (entities : List Entity) :
    c.respelled.lookupTables native (entities.map Entity.respelled) =
      c.lookupTables native entities := by
  have htable : c.respelled.lookupTable = c.lookupTable :=
    funext (lookupTable_congr c.registry.respelled c.registry c.options)
  unfold lookupTables
  rw [lookupEnums_respelled, htable]
  rfl

/-! ### Objects -/

/-- What the roots reach **spells keys alike** when the types of its fields do, those of entities
and, where structs are types, those of structs. -/
def SpellsKeysAlike (c : Converter) (roots : List String) : Prop :=
  ∀ owner, c.registry.ReachesDefinition roots owner →
    (c.options.structMode = .type ∨ ∃ e, owner = .entity e) →
      ∀ f ∈ owner.fields, c.registry.SpellsKeysAlike f.type

section Objects

variable {names : List String} (hs : c.options.SubstitutesPrimitives)
  (hw : SpelledWithin c.registry names) (ht : StandAmong c.registry names types)
include hs hw ht

/-- The join table of a field is the same in either spelling, errors aside. -/
theorem toOption_fieldJoin?_respelled {e : Entity} (he : .entity e ∈ types) {f : Field}
    (hf : f ∈ e.fields) :
    (c.respelled.fieldJoin? e.respelled f.respelled).toOption = (c.fieldJoin? e f).toOption := by
  unfold fieldJoin?
  rw [Field.type_respelled, role_respelled]
  have howner := mentions_subset_of_mem hw.closed ht he
  cases hrole : c.role f.type with
  | relationship item =>
    have hitem : item ∈ (c.role f.type).items := by rw [hrole]; exact List.mem_cons_self
    obtain ⟨hget, hmention⟩ := get?_of_mem_items hitem
    dsimp only [FieldRole.respelled]
    rw [toOption_bind, toOption_bind, ConvertError.nameOwner, ConvertError.nameOwner,
      toOption_mapError, toOption_mapError]
    exact congrArg (Option.bind · _) (toOption_joinTable_respelled hs hw (ht _ he).1 (ht _ he).2
      (howner f hf hmention) hget f.name)
  | _ => rfl

theorem toOption_joinTables_respelled :
    (c.respelled.joinTables ((types.filterMap Definition.entity?).map Entity.respelled)).toOption =
      (c.joinTables (types.filterMap Definition.entity?)).toOption := by
  have hpairs : ((types.filterMap Definition.entity?).map Entity.respelled).flatMap
      (fun e => e.fields.map fun f => (e, f)) = ((types.filterMap Definition.entity?).flatMap
        fun e => e.fields.map fun f => (e, f)).map (Prod.map Entity.respelled Field.respelled) := by
    simp only [List.flatMap_map, List.map_flatMap, Entity.respelled, List.map_map,
      Function.comp_def, Prod.map_apply]
  unfold joinTables
  rw [hpairs, toOption_bind, toOption_bind, List.mapM_map, toOption_mapM, toOption_mapM,
    mapM_congr fun p hp => ?_]
  obtain ⟨e, he, hp⟩ := List.mem_flatMap.mp hp
  obtain ⟨f, hf, rfl⟩ := List.mem_map.mp hp
  exact toOption_fieldJoin?_respelled hs hw ht (mem_entities_iff.mp he) hf

variable (hk : ∀ owner ∈ types, (c.options.structMode = .type ∨ ∃ e, owner = .entity e) →
  ∀ f ∈ owner.fields, c.registry.SpellsKeysAlike f.type)
include hk

/-- Composite types are the same in either spelling, and in the same order, errors aside. -/
theorem toOption_compositeTypes_respelled (hn : SortedBy Definition.name types) :
    (c.respelled.compositeTypes (types.map Definition.respelled)).toOption =
      (c.compositeTypes types).toOption := by
  unfold compositeTypes
  rw [options_respelled, structs_respelled, dependencyOrder_respelled]
  split
  · rename_i hmode
    simp only [toOption_bind, toOption_map, Option.bind_map]
    refine Option.bind_congr fun structs hstructs => ?_
    rw [Function.comp_apply, List.mapM_map, toOption_mapM, toOption_mapM]
    refine mapM_congr fun s hmem => ?_
    -- the order lists only structs of the given definitions
    have hperm := perm_dependencyOrder (sortedBy_structs hn).nodup_map
      (toOption_eq_some_iff.mp hstructs)
    have hmem := mem_structs_iff.mp (hperm.mem_iff.mp hmem)
    have hcomposite := toOption_composite_respelled hs hw (d := .struct s)
      (mentions_subset_of_mem hw.closed ht hmem) (hk _ hmem (Or.inl hmode))
    rw [Function.comp_apply, toOption_bind, toOption_bind]
    exact congrArg (Option.bind · _) hcomposite
  · rfl

theorem toOption_entityTables_respelled :
    (c.respelled.entityTables
      ((types.filterMap Definition.entity?).map Entity.respelled)).toOption =
      (c.entityTables (types.filterMap Definition.entity?)).toOption := by
  unfold entityTables
  rw [List.mapM_map, toOption_mapM, toOption_mapM]
  refine mapM_congr fun e he => ?_
  have hmem := mem_entities_iff.mp he
  have htable := toOption_table_respelled hs hw (e := e)
    (mentions_subset_of_mem hw.closed ht hmem) (hk _ hmem (Or.inr ⟨e, rfl⟩))
  rw [Function.comp_apply, toOption_bind, toOption_bind]
  exact congrArg (Option.bind · _) htable

/-- **Definitions have the objects that they have respelled.** -/
theorem toOption_objects_respelled (hn : SortedBy Definition.name types) :
    (c.respelled.objects (types.map Definition.respelled)).toOption =
      (c.objects types).toOption := by
  unfold objects
  simp only [entities_respelled, enumTypes_respelled, nativeEnums_respelled,
    lookupTables_respelled, toOption_bind, toOption_compositeTypes_respelled hs hw ht hk hn,
    toOption_entityTables_respelled hs hw ht hk, toOption_joinTables_respelled hs hw ht]

end Objects

/-! ### Catalogs -/

/-- Where keys are spelled alike, the catalog is that of the respelled definitions. -/
theorem toOption_assemble_respelled (hs : c.options.SubstitutesPrimitives)
    (h : c.SpellsKeysAlike roots) :
    (c.respelled.assemble roots).toOption = (c.assemble roots).toOption := by
  unfold assemble
  rw [reachable_respelled, toOption_bind, toOption_bind, toOption_map, Option.bind_map]
  refine Option.bind_congr fun types htypes => ?_
  have hr := toOption_eq_some_iff.mp htypes
  obtain ⟨names, hnames, -⟩ := bind_eq_ok_iff.mp hr
  have hw : SpelledWithin c.registry names :=
    { closed := Registry.agree_of_closure hnames fun _ _ => rfl
      keys := fun e key hamong => h (.entity e)
        ⟨hamong.get?, (Registry.mem_closure_iff hnames).mp hamong.mem⟩ (Or.inr ⟨e, rfl⟩) key
        (Registry.mem_of_keyField hamong.keyField).1 }
  have ht : StandAmong c.registry names types := fun d hd => by
    obtain ⟨hd, hn⟩ := (mem_reachable_iff hr).mp hd
    exact ⟨(Registry.mem_closure_iff hnames).mpr hn, hd⟩
  have hobjects := toOption_objects_respelled hs hw ht
    (fun owner howner => h owner ((mem_reachable_iff hr).mp howner)) (sortedBy_reachable hr)
  rw [Function.comp_apply, toOption_bind, toOption_bind, hobjects]
  rfl

/-- The fields of an entity with a table have data types, except for relationships. -/
theorem exists_mapMember_of_table {e : Entity} {t : Table} (h : c.table e = .ok t) {f : Field}
    (hf : f ∈ e.fields) (hplain : c.isRelationship f.type = false) :
    ∃ d, c.mapMember f.type = .ok d := by
  obtain ⟨columns, hcolumns, -⟩ := bind_eq_ok_iff.mp (mapError_eq_ok_iff.mp h)
  obtain ⟨col, -, hcol⟩ := exists_column_of_mem_fields hcolumns hf hplain
  obtain ⟨d, hd, -⟩ := bind_eq_ok_iff.mp hcol
  exact ⟨d, hd⟩

/-- The fields of a struct with a composite type have data types. -/
theorem exists_mapMember_of_composite {s : Struct} {t : CompositeType}
    (h : c.composite (.struct s) = .ok t) {f : Field} (hf : f ∈ s.fields) :
    ∃ d, c.mapMember f.type = .ok d := by
  obtain ⟨members, hmembers, -⟩ := bind_eq_ok_iff.mp h
  have hall := mapM_eq_ok_iff.mp (mapError_eq_ok_iff.mp hmembers)
  obtain ⟨m, -, hm⟩ := exists_of_mem_left hall hf
  obtain ⟨d, hd, -⟩ := bind_eq_ok_iff.mp hm
  exact ⟨d, hd⟩

/-- Where there is a catalog, keys are spelled alike: types that have a data type do so, and a
relationship holds no union. -/
theorem spellsKeysAlike_of_assemble (hs : c.options.SubstitutesPrimitives) {k : Catalog}
    (h : c.assemble roots = .ok k) : c.SpellsKeysAlike roots := by
  obtain ⟨types, p, hr, hp, -⟩ := assemble_eq_ok_iff.mp h
  intro owner howner hmode f hf
  have of_mapMember : (∃ d, c.mapMember f.type = .ok d) → c.registry.SpellsKeysAlike f.type := by
    rintro ⟨d, hd⟩
    rw [mapMember, mapMemberAlong_eq] at hd
    exact spellsKeysAlike_of_mapMemberWith hs hd
  cases owner with
  | enumeration e => cases hf
  | struct s =>
    have hmode : c.options.structMode = .type := hmode.resolve_right (by simp)
    obtain ⟨structs, hstructs, -, hplaced⟩ := exists_forall₂_structs hp
    have hmem := ((mem_structs_of_dependencyOrder hr (hstructs hmode)).2 s).mpr howner
    obtain ⟨o, -, hcomposite⟩ := exists_of_mem_left hplaced hmem
    exact of_mapMember (exists_mapMember_of_composite hcomposite.object hf)
  | entity e =>
    obtain ⟨-, -, tables, -, -, htables, -⟩ := objects_eq_ok_iff.mp hp
    have hmem := mem_entities_iff.mpr ((mem_reachable_iff hr).mpr howner)
    obtain ⟨o, -, ho⟩ := exists_of_mem_left (mapM_eq_ok_iff.mp htables) hmem
    cases hrelated : c.isRelationship f.type with
    | false =>
      exact of_mapMember (exists_mapMember_of_table (placedFrom_iff.mp ho).object hf hrelated)
    | true =>
      refine .of_unadorned fun ms hms => ?_
      rw [isRelationship, hms] at hrelated
      cases hrelated

/-- **Forward references are references**, except between the keys of a union: a catalog is
assembled exactly when the same one is assembled of the respelled definitions and the keys of all
unions of entities are spelled alike. -/
theorem assemble_eq_ok_iff_respelled (hs : c.options.SubstitutesPrimitives) {k : Catalog} :
    c.assemble roots = .ok k ↔
      c.respelled.assemble roots = .ok k ∧ c.SpellsKeysAlike roots := by
  constructor
  · intro h
    have hk := spellsKeysAlike_of_assemble hs h
    exact ⟨(toOption_eq_toOption_iff.mp (toOption_assemble_respelled hs hk) k).mpr h, hk⟩
  · rintro ⟨h, hk⟩
    exact (toOption_eq_toOption_iff.mp (toOption_assemble_respelled hs hk) k).mp h

/-! ### Keys spelled in two ways -/

namespace Harbour

/-- Countries. -/
def country : Entity where
  name := "Country"
  moduleName := "app"
  primaryKey := "id"
  fields := [{ name := "id", type := .primitive .int64 }]

/-- A place of a country, known by the country. -/
def place (name : String) (countryType : NativeType) : Entity where
  name := name
  moduleName := "app"
  primaryKey := "id"
  fields := [{ name := "id", type := countryType }]

/-- Sites are at a capital or at a port. -/
def site : Entity where
  name := "Site"
  moduleName := "app"
  primaryKey := "id"
  fields :=
    [{ name := "id", type := .primitive .int64 },
      { name := "place", type := .union [.ref "Capital", .ref "Port"] }]

end Harbour

/-- Sites at capitals and ports, each of which are known by their country in a given spelling. -/
def harbour (capitalKey portKey : NativeType) : Converter where
  registry :=
    { types := [.entity Harbour.country, .entity (Harbour.place "Capital" capitalKey),
        .entity (Harbour.place "Port" portKey), .entity Harbour.site]
      nodup_names := by simp [Definition.name, Harbour.place, Harbour.country, Harbour.site] }
  options := {}

theorem substitutesPrimitives_harbour (capitalKey portKey : NativeType) :
    (harbour capitalKey portKey).options.SubstitutesPrimitives :=
  nofun

theorem reachable_harbour {capitalKey portKey : NativeType}
    (hnames : (harbour capitalKey portKey).registry.closure ["Site"] =
      .ok ["Site", "Capital", "Country", "Port"]) :
    (harbour capitalKey portKey).reachable ["Site"] =
      .ok (["Capital", "Country", "Port", "Site"].filterMap
        (harbour capitalKey portKey).registry.get?) :=
  reachable_eq_ok hnames (by decide) (by decide)

theorem assemble_harbour : ∃ k,
    (harbour (.forward "Country") (.forward "Country")).assemble ["Site"] = .ok k ∧
      k.tables.map (fun t => t.name.name) = ["Capital", "Country", "Port", "Site"] := by
  have hnames : ((harbour (.forward "Country") (.forward "Country")).assemble ["Site"]).toOption.map
      (fun k => k.tables.map fun t => t.name.name) =
        some ["Capital", "Country", "Port", "Site"] := by
    rw [assemble, reachable_harbour (by cbv)]
    decide +kernel
  exact exists_eq_ok_of_toOption hnames

/-- Where both are known by forward references, the catalog is that of references. -/
theorem assemble_harbour_respelled :
    (harbour (.forward "Country") (.forward "Country")).options.SubstitutesPrimitives ∧
      (harbour (.forward "Country") (.forward "Country")).respelled =
        harbour (.ref "Country") (.ref "Country") ∧
      ∃ k, (harbour (.forward "Country") (.forward "Country")).assemble ["Site"] = .ok k ∧
        (harbour (.ref "Country") (.ref "Country")).assemble ["Site"] = .ok k ∧
        (harbour (.forward "Country") (.forward "Country")).SpellsKeysAlike ["Site"] := by
  obtain ⟨k, hk, -⟩ := assemble_harbour
  have hs := substitutesPrimitives_harbour (.forward "Country") (.forward "Country")
  exact ⟨hs, rfl, k, hk, (assemble_eq_ok_iff_respelled hs).mp hk⟩

/-- Where only ports are known by forward references, there is no catalog, although there is one of
references. -/
theorem not_assemble_harbour :
    (harbour (.ref "Country") (.forward "Country")).options.SubstitutesPrimitives ∧
      (harbour (.ref "Country") (.forward "Country")).respelled =
        harbour (.ref "Country") (.ref "Country") ∧
      (∃ k, (harbour (.ref "Country") (.ref "Country")).assemble ["Site"] = .ok k) ∧
      ∀ k, (harbour (.ref "Country") (.forward "Country")).assemble ["Site"] ≠ .ok k := by
  refine ⟨substitutesPrimitives_harbour _ _, rfl, ?_, fun k hk => ?_⟩
  · obtain ⟨k, hk, -⟩ := assemble_harbour
    have hs := substitutesPrimitives_harbour (.forward "Country") (.forward "Country")
    have halike := toOption_assemble_respelled hs (spellsKeysAlike_of_assemble hs hk)
    exact ⟨k, (toOption_eq_toOption_iff.mp halike k).mpr hk⟩
  · have hnone : ((harbour (.ref "Country") (.forward "Country")).assemble ["Site"]).toOption =
        none := by
      rw [assemble, reachable_harbour (by cbv)]
      decide +kernel
    rw [hk] at hnone
    cases hnone

end Converter

end SchemaCatalog
