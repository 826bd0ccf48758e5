import SchemaCatalog.Proofs.Assembly.DependencyOrder
import SchemaCatalog.Proofs.Assembly.Objects
import SchemaCatalog.Proofs.Assembly.Uses

/-!
# What a catalog contains

`Contents c roots k …` says what the catalog of some roots contains: which entities, lookups,
relationships, structs and enumerations its objects are made from, that each of these gives
exactly one object and no object comes from elsewhere (`MadeFrom`), and how the objects are
grouped and ordered. `exists_contents` says that every assembled catalog has such contents.
-/

namespace SchemaCatalog.Converter

variable {c : Converter} {roots : List String} {k : Catalog}

/-- The objects of one kind in a catalog are **made from** some sources: each source gives one
object, and with qualified names the objects of a namespace are those of the sources whose
module maps to it, in their order. -/
structure MadeFrom {α β : Type} (c : Converter) (k : Catalog) (objects : Namespace → List β)
    (moduleName : α → String) (make : α → Except ConvertError β) (sources : List α) : Prop where
  /-- Each source gives one object, and there is no other. -/
  perm : ∃ made, (k.namespaces.flatMap objects).Perm made ∧
    List.Forall₂ (fun a b => make a = .ok b) sources made
  /-- A namespace has the objects of the sources whose module maps to it, in their order. -/
  placed : c.options.qualifiedNames = true → ∀ n ∈ k.namespaces,
    List.Forall₂ (fun a b => make a = .ok b)
      (sources.filter fun a => (c.namespaceOf (moduleName a)).toOption = some n.name) (objects n)
  /-- Each source has a module that maps to a namespace of the catalog. -/
  covered : c.options.qualifiedNames = true → ∀ a ∈ sources,
    ∃ n ∈ k.namespaces, c.namespaceOf (moduleName a) = .ok n.name

/-- What a catalog contains that is made from some entities, enumerations and structs. -/
structure Contents (c : Converter) (roots : List String) (k : Catalog) (entities : List Entity)
    (regular extensible natives : List Enumeration) (composites : List Struct) : Prop where
  /-- The entities are those that are reached. -/
  mem_entities : ∀ e, e ∈ entities ↔ c.registry.ReachesDefinition roots (.entity e)
  /-- The entities come by name. -/
  sorted_entities : SortedBy Entity.name entities
  /-- The lookups are those that fields of the entities need, regular ones first. -/
  lookups : c.LookupOrder (entities.flatMap Entity.fields) regular extensible
  /-- The structs are those that are reached, if structs are types. -/
  mem_composites : ∀ s, s ∈ composites ↔
    c.options.structMode = .type ∧ c.registry.ReachesDefinition roots (.struct s)
  /-- No struct comes twice. -/
  nodup_composites : composites.Nodup
  /-- The enumerations that become types are those that are reached, have at least two labels
  and are plainly used, if enumerations are types. -/
  mem_natives : ∀ e, e ∈ natives ↔ c.options.enumMode = .type ∧
    c.registry.ReachesDefinition roots (.enumeration e) ∧ 2 ≤ e.distinctCount ∧
    ∃ d, c.registry.ReachesDefinition roots d ∧
      ∃ f ∈ d.fields, PlainlyUses c.registry e f.type
  /-- The enumerations that become types come by name. -/
  sorted_natives : SortedBy Enumeration.name natives
  /-- Tables come from entities, then lookups, then relationships. -/
  tables : c.MadeFrom k Namespace.tables TableOrigin.moduleName c.originTable
    ((entities.map RelatedItem.entity ++
      (regular ++ extensible).map RelatedItem.enumeration).map .item ++
        (c.relationships entities).map .join)
  /-- Composite types come from structs. -/
  structs : c.MadeFrom k Namespace.structs Struct.moduleName (fun s => c.composite (.struct s))
    composites
  /-- Enumeration types come from the enumerations that become types. -/
  enums : c.MadeFrom k Namespace.enums Enumeration.moduleName c.enumType natives
  /-- With qualified names the namespaces differ, and none is empty. -/
  namespaces : c.options.qualifiedNames = true →
    (k.namespaces.map Namespace.name).Nodup ∧ ∀ n ∈ k.namespaces, n.isEmpty = false

/-- Placed objects that are grouped are made from what they have been made from. -/
theorem madeFrom_of_forall₂ {α β : Type} {objects : Namespace → List β} {moduleName : α → String}
    {make : α → Except ConvertError β} {sources : List α} {placed : List (String × β)}
    (h : List.Forall₂ (fun a o => c.PlacedFrom (moduleName a) (make a) o) sources placed)
    (hall : ∃ names, PlacedObjects.Covers names placed ∧
      k.namespaces.flatMap objects = PlacedObjects.byPlaces names placed)
    (hplaced : c.options.qualifiedNames = true → ∀ n ∈ k.namespaces,
      objects n = PlacedObjects.inPlace n.name placed)
    (hcovered : c.options.qualifiedNames = true → ∀ o ∈ placed, ∃ n ∈ k.namespaces, n.name = o.1) :
    c.MadeFrom k objects moduleName make sources where
  perm := by
    obtain ⟨names, hcovers, hobjects⟩ := hall
    refine ⟨placed.map Prod.snd, hobjects ▸ PlacedObjects.perm_byPlaces hcovers, ?_⟩
    exact List.forall₂_map_right_iff.mpr (h.imp fun _ _ ho => ho.object)
  placed hq n hn := by
    rw [hplaced hq n hn, PlacedObjects.inPlace, List.forall₂_map_right_iff]
    -- a source is selected by its module exactly when its object is by its place
    refine (List.rel_filter (fun a o ho => ?_) h).imp fun _ _ ho => ho.object
    change decide ((c.namespaceOf (moduleName a)).toOption = some n.name) = true ↔
      decide (o.1 = n.name) = true
    rw [ho.place, decide_eq_true_iff, decide_eq_true_iff]
    exact Option.some_inj
  covered hq a ha := by
    obtain ⟨o, ho, hplacedFrom⟩ := exists_of_mem_left h ha
    obtain ⟨n, hn, hname⟩ := hcovered hq o ho
    exact ⟨n, hn, hname ▸ hplacedFrom.place⟩

/-- The structs of the composite types are those that are reached, each once. -/
theorem mem_structs_of_dependencyOrder {types : List Definition} {structs : List Struct}
    (hr : c.reachable roots = .ok types)
    (h : dependencyOrder (types.filterMap Definition.struct?) = .ok structs) :
    structs.Nodup ∧ ∀ s, s ∈ structs ↔ c.registry.ReachesDefinition roots (.struct s) := by
  have hsorted := sortedBy_structs (sortedBy_reachable hr)
  have hperm := perm_dependencyOrder hsorted.nodup_map h
  refine ⟨hperm.nodup_iff.mpr hsorted.nodup, fun s => ?_⟩
  rw [hperm.mem_iff, mem_structs_iff, mem_reachable_iff hr]

/-- **What a catalog contains**: exactly the tables of the reached entities, of the enumerations
that their fields look up and of their relationships, and the types of the reached structs and
enumerations for which the settings ask, grouped by module and ordered by name. -/
theorem exists_contents (hf : c.options.factory = .plain) (h : c.assemble roots = .ok k) :
    ∃ entities regular extensible natives composites,
      c.Contents roots k entities regular extensible natives composites := by
  obtain ⟨types, p, hr, hp, rfl⟩ := assemble_eq_ok_iff.mp h
  have hsorted := sortedBy_reachable hr
  have hregistered : ∀ d ∈ types, c.registry.get? d.name = some d :=
    fun d hd => ((mem_reachable_iff hr).mp hd).1
  obtain ⟨regular, extensible, hlookups, horder⟩ :=
    c.lookupEnums_eq (types.filterMap Definition.entity?)
  obtain ⟨structs, hstructs, hnone, hplacedStructs⟩ := exists_forall₂_structs hp
  have htables := forall₂_tables hp
  rw [tableOrigins, tableItems, hlookups] at htables
  have hgrouped := c.grouped_group p
  have hqualified : c.options.qualifiedNames = true → c.group p = p.qualifiedCatalog .plain := by
    intro hq
    rw [group, if_pos hq, hf]
  obtain ⟨hcoversTables, hcoversStructs, hcoversEnums⟩ := p.covers_allPlaces
  have hcovered : ∀ {name}, name ∈ p.allPlaces → c.options.qualifiedNames = true →
      ∃ n ∈ (c.group p).namespaces, n.name = name :=
    fun hname hq => hqualified hq ▸ PlacedObjects.exists_namespace_qualifiedCatalog hname
  have hcontents := fun (hq : c.options.qualifiedNames = true) (n : Namespace)
    (hn : n ∈ (c.group p).namespaces) =>
      PlacedObjects.eq_of_mem_qualifiedCatalog (hqualified hq ▸ hn)
  refine ⟨types.filterMap Definition.entity?, regular, extensible, c.nativeEnums types, structs,
    { mem_entities := fun e => by rw [mem_entities_iff, mem_reachable_iff hr]
      sorted_entities := sortedBy_entities hsorted
      lookups := horder
      mem_composites := fun s => ?_
      nodup_composites := ?_
      mem_natives := fun e => ?_
      sorted_natives := sortedBy_nativeEnums hsorted
      tables := madeFrom_of_forall₂ htables hgrouped.tables (fun hq n hn => (hcontents hq n hn).1)
        fun hq o ho => hcovered (hcoversTables.mem o ho) hq
      structs := madeFrom_of_forall₂ hplacedStructs hgrouped.structs
        (fun hq n hn => (hcontents hq n hn).2.1)
        fun hq o ho => hcovered (hcoversStructs.mem o ho) hq
      enums := madeFrom_of_forall₂ (forall₂_enums hp) hgrouped.enums
        (fun hq n hn => (hcontents hq n hn).2.2)
        fun hq o ho => hcovered (hcoversEnums.mem o ho) hq
      namespaces := fun hq => ?_ }⟩
  · by_cases hmode : c.options.structMode = .type
    · rw [(mem_structs_of_dependencyOrder hr (hstructs hmode)).2, and_iff_right hmode]
    · simp [hnone hmode, hmode]
  · by_cases hmode : c.options.structMode = .type
    · exact (mem_structs_of_dependencyOrder hr (hstructs hmode)).1
    · exact hnone hmode ▸ List.nodup_nil
  · simp only [mem_nativeEnums_iff hregistered, mem_reachable_iff hr]
  · rw [hqualified hq]
    refine ⟨?_, fun n hn => PlacedObjects.isEmpty_of_mem_qualifiedCatalog hn⟩
    rw [PlacedObjects.names_qualifiedCatalog]
    exact nodup_eraseDups _

theorem exists_contents_blog : ∃ k, blog.assemble ["Post"] = .ok k ∧
    ∃ entities regular extensible natives composites,
      blog.Contents ["Post"] k entities regular extensible natives composites := by
  obtain ⟨k, hk, -⟩ := assemble_blog
  exact ⟨k, hk, exists_contents rfl hk⟩

end SchemaCatalog.Converter
