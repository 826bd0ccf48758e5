import SchemaCatalog.Proofs.Assembly.Definitions
import SchemaCatalog.Proofs.Assembly.Placement
import SchemaCatalog.Proofs.Converter.Table

/-!
# The objects of a catalog

Every table of a catalog is the table of an item, that is of an entity or of an enumeration
whose values are looked up, or it joins the two sides of a relationship (`TableOrigin`).
`tableOrigins` lists these origins in the order of the tables, and `forall₂_tables` says that
the placed tables are those of the origins, one by one. The table of an item is then found
under its name (`table?_of_mem_tableItems`), and every item that a column keys has one
(`mem_tableItems`).
-/

namespace SchemaCatalog

/-- A field of an entity that is a relationship, with its far side. -/
structure Relationship where
  /-- The entity. -/
  owner : Entity
  /-- The field. -/
  field : Field
  /-- The far side. -/
  item : RelatedItem

/-- What a table is made for. -/
inductive TableOrigin where
  /-- The table of an entity, or the lookup table of an enumeration. -/
  | item (i : RelatedItem)
  /-- The join table of a relationship. -/
  | join (r : Relationship)

/-- The module that defines what a table is made for. -/
def TableOrigin.moduleName : TableOrigin → String
  | item i => i.moduleName
  | join r => r.owner.moduleName

namespace Converter

variable {c : Converter} {roots : List String} {types : List Definition} {p : PlacedObjects}

/-- The relationship of a field, if it is one. -/
def relationship? (c : Converter) (e : Entity) (f : Field) : Option Relationship :=
  match c.role f.type with
  | .relationship item => some ⟨e, f, item⟩
  | _ => none

/-- The relationships of entities, in the order of entities and fields. -/
def relationships (c : Converter) (entities : List Entity) : List Relationship :=
  entities.flatMap fun e => e.fields.filterMap (c.relationship? e)

/-- The items with a table of their own: entities, then enumerations that are looked up. -/
def tableItems (c : Converter) (entities : List Entity) : List RelatedItem :=
  entities.map .entity ++ (c.lookupEnums entities).map .enumeration

theorem relationship?_eq_some_iff {e : Entity} {f : Field} {r : Relationship} :
    c.relationship? e f = some r ↔
      c.role f.type = .relationship r.item ∧ r.owner = e ∧ r.field = f := by
  obtain ⟨owner, field, item⟩ := r
  unfold relationship?
  cases c.role f.type <;> simp [and_comm, and_assoc, eq_comm]

/-- **The relationships of some entities** are the fields of them whose role it is to relate. -/
theorem mem_relationships_iff {entities : List Entity} {r : Relationship} :
    r ∈ c.relationships entities ↔
      r.owner ∈ entities ∧ r.field ∈ r.owner.fields ∧
        c.role r.field.type = .relationship r.item := by
  simp only [relationships, List.mem_flatMap, List.mem_filterMap, relationship?_eq_some_iff]
  constructor
  · rintro ⟨e, he, f, hf, hrole, rfl, rfl⟩
    exact ⟨he, hf, hrole⟩
  · rintro ⟨he, hf, hrole⟩
    exact ⟨_, he, _, hf, hrole, rfl, rfl⟩

/-- What the tables for some entities are made for, in order. -/
def tableOrigins (c : Converter) (entities : List Entity) : List TableOrigin :=
  (c.tableItems entities).map .item ++ (c.relationships entities).map .join

/-- The table of an origin. -/
def originTable (c : Converter) : TableOrigin → Except ConvertError Table
  | .item i => c.itemTable i
  | .join r => c.joinTable r.owner r.field.name r.item

/-- An object **stands where** the objects of a module stand, and is what has been made. -/
structure PlacedFrom {α : Type} (c : Converter) (moduleName : String)
    (made : Except ConvertError α) (o : String × α) : Prop where
  /-- The namespace is that of the module. -/
  place : c.namespaceOf moduleName = .ok o.1
  /-- The object is what has been made. -/
  object : made = .ok o.2

/-- An object is placed in the namespace of its module once it is made. -/
theorem placedFrom_iff {α : Type} {moduleName : String} {made : Except ConvertError α}
    {o : String × α} :
    (do let a ← made; c.place moduleName a) = .ok o ↔ c.PlacedFrom moduleName made o := by
  rw [bind_eq_ok_iff]
  constructor
  · rintro ⟨a, ha, h⟩
    obtain ⟨name, hname, h⟩ := bind_eq_ok_iff.mp h
    cases pure_eq_ok_iff.mp h
    exact ⟨hname, ha⟩
  · rintro ⟨hname, ha⟩
    exact ⟨o.2, ha, bind_eq_ok_iff.mpr ⟨o.1, hname, rfl⟩⟩

/-! ### Assembling a catalog -/

/-- A catalog is assembled from the definitions that the roots reach and from their objects. -/
theorem assemble_eq_ok_iff {k : Catalog} :
    c.assemble roots = .ok k ↔
      ∃ types p, c.reachable roots = .ok types ∧ c.objects types = .ok p ∧ c.group p = k := by
  simp only [assemble, bind_eq_ok_iff, pure_eq_ok_iff, exists_and_left]

/-- **The objects of definitions** are enumeration types, composite types, and tables: those of
entities, then lookup tables, then join tables. -/
theorem objects_eq_ok_iff :
    c.objects types = .ok p ↔
      c.enumTypes types = .ok p.enums ∧ c.compositeTypes types = .ok p.structs ∧
        ∃ tables lookups joins,
          c.entityTables (types.filterMap Definition.entity?) = .ok tables ∧
          c.lookupTables (c.nativeEnums types) (types.filterMap Definition.entity?) = .ok lookups ∧
          c.joinTables (types.filterMap Definition.entity?) = .ok joins ∧
          tables ++ lookups ++ joins = p.tables := by
  simp only [objects, bind_eq_ok_iff, pure_eq_ok_iff]
  constructor
  · rintro ⟨enums, henums, structs, hstructs, tables, htables, lookups, hlookups, joins, hjoins,
      rfl⟩
    exact ⟨henums, hstructs, tables, lookups, joins, htables, hlookups, hjoins, rfl⟩
  · rintro ⟨henums, hstructs, tables, lookups, joins, htables, hlookups, hjoins, hall⟩
    exact ⟨_, henums, _, hstructs, tables, htables, lookups, hlookups, joins, hjoins, by rw [hall]⟩

/-! ### Tables and what they are made for -/

/-- The relation between what tables are made for and placed tables. -/
def PlacedTable (c : Converter) (origin : TableOrigin) (o : String × Table) : Prop :=
  c.PlacedFrom origin.moduleName (c.originTable origin) o

/-- The tables of entities are theirs, one by one. -/
theorem forall₂_entityTables {entities : List Entity} {tables : List (String × Table)}
    (h : c.entityTables entities = .ok tables) :
    List.Forall₂ c.PlacedTable (entities.map fun e => .item (.entity e)) tables := by
  rw [List.forall₂_map_left_iff]
  exact (mapM_eq_ok_iff.mp h).imp fun _ _ hplaced => placedFrom_iff.mp hplaced

/-- The lookup tables are those of the enumerations that are looked up, one by one. -/
theorem forall₂_lookupTables {native : List Enumeration} {entities : List Entity}
    {tables : List (String × Table)} (h : c.lookupTables native entities = .ok tables) :
    List.Forall₂ c.PlacedTable ((c.lookupEnums entities).map fun e => .item (.enumeration e))
      tables := by
  rw [List.forall₂_map_left_iff]
  refine (mapM_eq_ok_iff.mp h).imp fun e o hplaced => ?_
  split at hplaced
  · cases hplaced
  · exact placedFrom_iff.mp hplaced

theorem fieldJoin?_eq_ok {e : Entity} {f : Field} {found : Option (String × Table)}
    (h : c.fieldJoin? e f = .ok found) :
    Option.Rel (fun r o => c.PlacedTable (.join r) o) (c.relationship? e f) found := by
  unfold fieldJoin? at h
  unfold relationship?
  generalize c.role f.type = role at h ⊢
  cases role with
  | relationship item =>
    obtain ⟨t, ht, h⟩ := bind_eq_ok_iff.mp h
    obtain ⟨placed, hplaced, h⟩ := bind_eq_ok_iff.mp h
    cases pure_eq_ok_iff.mp h
    refine .some (placedFrom_iff.mp (bind_eq_ok_iff.mpr ⟨t, ?_, hplaced⟩))
    exact mapError_eq_ok_iff.mp ht
  | _ =>
    cases h
    exact .none

/-- The join tables are those of the relationships, one by one. -/
theorem forall₂_joinTables {entities : List Entity} {tables : List (String × Table)}
    (h : c.joinTables entities = .ok tables) :
    List.Forall₂ c.PlacedTable ((c.relationships entities).map .join) tables := by
  obtain ⟨joins, hjoins, h⟩ := bind_eq_ok_iff.mp h
  cases pure_eq_ok_iff.mp h
  have hrelationships : c.relationships entities =
      (entities.flatMap fun e => e.fields.map fun f => (e, f)).filterMap fun p =>
        c.relationship? p.1 p.2 := by
    rw [List.filterMap_flatMap]
    simp only [relationships, List.filterMap_map]
    rfl
  rw [List.forall₂_map_left_iff, hrelationships]
  exact List.rel_filterMap (fun _ _ hjoin => fieldJoin?_eq_ok hjoin) (mapM_eq_ok_iff.mp hjoins)

/-- **The placed tables** are those of the origins, one by one. -/
theorem forall₂_tables (h : c.objects types = .ok p) :
    List.Forall₂ c.PlacedTable (c.tableOrigins (types.filterMap Definition.entity?)) p.tables := by
  obtain ⟨-, -, tables, lookups, joins, htables, hlookups, hjoins, hall⟩ := objects_eq_ok_iff.mp h
  rw [← hall, tableOrigins]
  refine List.rel_append ?_ (forall₂_joinTables hjoins)
  rw [tableItems, List.map_append, List.map_map, List.map_map]
  exact List.rel_append (forall₂_entityTables htables) (forall₂_lookupTables hlookups)

/-! ### Types and what they are made for -/

/-- The enumeration type of an enumeration. -/
def enumType (c : Converter) (e : Enumeration) : Except ConvertError EnumerationType := do
  let n ← c.qualifiedName e.moduleName e.name
  return ⟨n, e.valueLabels⟩

/-- The enumeration type of an enumeration bears its name and has its labels. -/
theorem enumType_eq_ok {e : Enumeration} {u : EnumerationType} (h : c.enumType e = .ok u) :
    c.qualifiedName e.moduleName e.name = .ok u.name ∧ u.values = e.valueLabels := by
  obtain ⟨n, hn, h⟩ := bind_eq_ok_iff.mp h
  cases pure_eq_ok_iff.mp h
  exact ⟨hn, rfl⟩

/-- **The placed enumeration types** are those of the enumerations that become types. -/
theorem forall₂_enums (h : c.objects types = .ok p) :
    List.Forall₂ (fun e o => c.PlacedFrom e.moduleName (c.enumType e) o) (c.nativeEnums types)
      p.enums := by
  obtain ⟨henums, -⟩ := objects_eq_ok_iff.mp h
  refine (mapM_eq_ok_iff.mp henums).imp fun e o ho => placedFrom_iff.mp ?_
  obtain ⟨n, hn, ho⟩ := bind_eq_ok_iff.mp ho
  exact bind_eq_ok_iff.mpr ⟨_, bind_eq_ok_iff.mpr ⟨n, hn, rfl⟩, ho⟩

/-- **The placed composite types** are those of the structs, in an order in which dependencies
come first, if structs are types at all. -/
theorem exists_forall₂_structs (h : c.objects types = .ok p) :
    ∃ structs, (c.options.structMode = .type →
        dependencyOrder (types.filterMap Definition.struct?) = .ok structs) ∧
      (c.options.structMode ≠ .type → structs = []) ∧
      List.Forall₂ (fun s o => c.PlacedFrom s.moduleName (c.composite (.struct s)) o) structs
        p.structs := by
  obtain ⟨-, hcomposites, -⟩ := objects_eq_ok_iff.mp h
  unfold compositeTypes at hcomposites
  split at hcomposites
  · rename_i hmode
    obtain ⟨structs, hstructs, hcomposites⟩ := bind_eq_ok_iff.mp hcomposites
    refine ⟨structs, fun _ => hstructs, fun hne => absurd hmode hne, ?_⟩
    exact (mapM_eq_ok_iff.mp hcomposites).imp fun _ _ ho => placedFrom_iff.mp ho
  · rename_i hmode
    rw [← pure_eq_ok_iff.mp hcomposites]
    exact ⟨[], fun heq => absurd heq hmode, fun _ => rfl, .nil⟩

/-! ### Finding the table of an item -/

theorem mem_tableItems_entity_iff {entities : List Entity} {e : Entity} :
    .entity e ∈ c.tableItems entities ↔ e ∈ entities := by
  simp [tableItems]

theorem mem_tableItems_enumeration_iff {entities : List Entity} {e : Enumeration} :
    .enumeration e ∈ c.tableItems entities ↔ e ∈ c.lookupEnums entities := by
  simp [tableItems]

/-- What a field of a reached definition points to is reached. -/
theorem reachesDefinition_of_mem_items {owner : Definition}
    (howner : c.registry.ReachesDefinition roots owner) {f : Field} (hf : f ∈ owner.fields)
    {item : RelatedItem} (hitem : item ∈ (c.role f.type).items) :
    c.registry.ReachesDefinition roots item.definition := by
  obtain ⟨hget, hmention⟩ := get?_of_mem_items hitem
  have hname := item.name_definition
  exact ⟨hname ▸ hget, howner.reaches hf (hname ▸ hmention)⟩

/-- **Every item that is keyed has a table**: those whose keys a column of a reachable entity
holds, and those at the far side of a relationship of one. -/
theorem mem_tableItems (h : c.reachable roots = .ok types) {e : Entity} (he : .entity e ∈ types)
    {f : Field} (hf : f ∈ e.fields) {item : RelatedItem}
    (hitem : item ∈ c.keyItems f ∨ c.role f.type = .relationship item) :
    item ∈ c.tableItems (types.filterMap Definition.entity?) := by
  have hmem : item ∈ (c.role f.type).items := by
    rcases hitem with hkey | hrole
    · exact mem_items_of_mem_keyItems hkey
    · simp [hrole, FieldRole.items]
  cases item with
  | entity target =>
    rw [mem_tableItems_entity_iff, mem_entities_iff, mem_reachable_iff h]
    exact reachesDefinition_of_mem_items ((mem_reachable_iff h).mp he) hf hmem
  | enumeration target =>
    rw [mem_tableItems_enumeration_iff, mem_lookupEnums_iff]
    exact ⟨e, mem_entities_iff.mpr he, f, hf, hitem⟩

/-- No two items with tables have one name. -/
theorem nodup_tableItems (h : c.reachable roots = .ok types) :
    ((c.tableItems (types.filterMap Definition.entity?)).map RelatedItem.name).Nodup := by
  rw [tableItems, List.map_append, List.map_map, List.map_map, List.nodup_append]
  refine ⟨(sortedBy_entities (sortedBy_reachable h)).nodup_map, c.nodup_lookupEnums _, ?_⟩
  intro name hentity name' hlookup hname
  obtain ⟨e, he, rfl⟩ := List.mem_map.mp hentity
  obtain ⟨e', he', rfl⟩ := List.mem_map.mp hlookup
  -- one name would stand for an entity and for an enumeration
  have hget := ((mem_reachable_iff h).mp (mem_entities_iff.mp he)).1
  obtain ⟨owner, -, f, -, hf⟩ := mem_lookupEnums_iff.mp he'
  have hget' := get?_of_lookup (mem_keyItems_or_relationship_iff.mp hf)
  change e.name = e'.name at hname
  change c.registry.get? e.name = _ at hget
  rw [hname, hget'] at hget
  cases hget

/-- An object that bears a name of its module stands in the namespace of that name. -/
theorem PlacedFrom.place_eq {α : Type} {moduleName named : String} {made : Except ConvertError α}
    {o : String × α} (h : c.PlacedFrom moduleName made o) {n : QualifiedName}
    (hn : c.qualifiedName moduleName named = .ok n) : o.1 = n.namespaceName.getD "" := by
  obtain ⟨target, htarget, hname⟩ := qualifiedName_eq_ok_iff.mp hn
  obtain ⟨target', htarget', hplace⟩ := bind_eq_ok_iff.mp h.place
  rw [htarget] at htarget'
  cases htarget'
  rw [← pure_eq_ok_iff.mp hplace, hname]

/-- A placed table stands in the namespace of its name. -/
theorem place_of_placedTable (hf : c.options.factory.Faithful) {origin : TableOrigin}
    {o : String × Table} (h : c.PlacedTable origin o) : o.1 = o.2.name.namespaceName.getD "" := by
  cases origin with
  | item i => exact h.place_eq (qualifiedName_of_itemTable hf h.object)
  | join r =>
    obtain ⟨named, hn⟩ := (joinTable_eq_ok hf h.object).1
    exact h.place_eq hn

/-- Grouping neither loses a table nor adds one. -/
theorem mem_tables_group {t : Table} : t ∈ (c.group p).tables ↔ ∃ o ∈ p.tables, o.2 = t := by
  obtain ⟨names, hcovers, htables⟩ := (c.grouped_group p).tables
  rw [htables, (PlacedObjects.perm_byPlaces hcovers).mem_iff, List.mem_map]

theorem mem_structs_group {t : CompositeType} :
    t ∈ (c.group p).structs ↔ ∃ o ∈ p.structs, o.2 = t := by
  obtain ⟨names, hcovers, hstructs⟩ := (c.grouped_group p).structs
  rw [hstructs, (PlacedObjects.perm_byPlaces hcovers).mem_iff, List.mem_map]

/-- A table is found in a catalog as in the list of placed tables. -/
theorem table?_group (h : ∀ o ∈ p.tables, o.1 = o.2.name.namespaceName.getD "")
    (n : QualifiedName) :
    (c.group p).table? n = (p.tables.map Prod.snd).find? fun t => t.name = n := by
  obtain ⟨names, hcovers, htables⟩ := (c.grouped_group p).tables
  have hplace : ∀ o ∈ p.tables, decide (o.2.name = n) = true → o.1 = n.namespaceName.getD "" :=
    fun o ho hn => by rw [h o ho, of_decide_eq_true hn]
  rw [Catalog.table?, htables]
  exact PlacedObjects.find?_byPlaces hcovers hplace

/-- **The table of an item** is found under its name. -/
theorem table?_of_mem_tableItems (hf : c.options.factory.Faithful)
    (hr : c.reachable roots = .ok types) (hp : c.objects types = .ok p) {item : RelatedItem}
    (hitem : item ∈ c.tableItems (types.filterMap Definition.entity?)) :
    ∃ t, c.itemTable item = .ok t ∧ (c.group p).table? t.name = some t := by
  have hplaces : ∀ o ∈ p.tables, o.1 = o.2.name.namespaceName.getD "" := by
    intro o ho
    obtain ⟨origin, -, horigin⟩ := exists_of_mem_right (forall₂_tables hp) ho
    exact place_of_placedTable hf horigin
  -- the tables of items come first, and no two of them have one name
  obtain ⟨tables, joins, htables, hitems, -⟩ := exists_of_forall₂_append (forall₂_tables hp)
  rw [List.forall₂_map_left_iff] at hitems
  obtain ⟨o, ho, hplaced⟩ := exists_of_mem_left hitems hitem
  refine ⟨o.2, hplaced.object, ?_⟩
  have hnames : (c.tableItems (types.filterMap Definition.entity?)).map RelatedItem.name =
      tables.map fun o => o.2.name.name := by
    refine map_eq_map_of_forall₂ hitems fun i o' ho' => ?_
    obtain ⟨target, -, hname⟩ :=
      qualifiedName_eq_ok_iff.mp (qualifiedName_of_itemTable hf ho'.object)
    rw [hname]
  have hnodup : ((tables.map Prod.snd).map Table.name).Nodup := by
    refine List.Nodup.of_map QualifiedName.name ?_
    rw [List.map_map, List.map_map]
    exact hnames ▸ nodup_tableItems hr
  rw [table?_group hplaces, htables, List.map_append, List.find?_append,
    find?_eq_some_of_nodup_map hnodup (List.mem_map_of_mem ho), Option.some_or]

/-! ### A small catalog -/

/-- A blog with every source of tables and foreign keys: posts have a parent, a subject that is
a tag or a post, a kind, of which there is only one, and tags. -/
def blog : Converter where
  registry :=
    { types :=
        [.enumeration ⟨"Kind", "app", [("note", .str "note")], none⟩,
          .entity
            { name := "Tag", moduleName := "app", primaryKey := "id"
              fields := [{ name := "id", type := .primitive .int64 }] },
          .entity
            { name := "Post", moduleName := "app", primaryKey := "id"
              fields :=
                [{ name := "id", type := .primitive .int64 },
                  { name := "parent", type := .forward "Post", nullable := true },
                  { name := "subject", type := .union [.ref "Tag", .ref "Post"] },
                  { name := "kind", type := .ref "Kind" },
                  { name := "tags", type := .list (.ref "Tag") }] }]
      nodup_names := by decide }
  options := {}

theorem reachable_blog :
    blog.reachable ["Post"] = .ok (["Kind", "Post", "Tag"].filterMap blog.registry.get?) := by
  have hnames : blog.registry.closure ["Post"] = .ok ["Post", "Tag", "Kind"] := by cbv
  exact reachable_eq_ok hnames (by decide) (by decide)

/-- The blog has a catalog, with six references in its constraints. -/
theorem assemble_blog : ∃ k, blog.assemble ["Post"] = .ok k ∧
    ((k.tables.flatMap Table.constraints).flatMap Constraint.references).length = 6 := by
  have hlength : (blog.assemble ["Post"]).toOption.map (fun k =>
      ((k.tables.flatMap Table.constraints).flatMap Constraint.references).length) = some 6 := by
    rw [assemble, reachable_blog]
    decide +kernel
  exact exists_eq_ok_of_toOption hlength

end Converter

end SchemaCatalog
