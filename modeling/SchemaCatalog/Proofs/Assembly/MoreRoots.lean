import SchemaCatalog.Proofs.Assembly.Contents

/-!
# Catalogs of more roots

What becomes an object, and of which kind, is decided by all that is reached: an enumeration becomes
a type because some field uses it, and has a lookup table because another one points at it. With
more roots more is reached (`Registry.Reaches.mono`), and none of these decisions is taken back
(`tableOrigins_subset`, `nativeEnums_subset`). As an object depends on what it is made from only
(`PlacedFrom.eq`), the objects of a catalog are among those of the catalog of more roots
(`among_objects`), each in the namespace of the same name (`within_of_subset`).
-/

namespace SchemaCatalog

/-- A catalog is **within** another when all its objects are in the namespaces of the same names of
the other. -/
def Catalog.Within (k k' : Catalog) : Prop :=
  ∀ n ∈ k.namespaces, ∃ n', k'.namespace? n.name = some n' ∧
    n.enums ⊆ n'.enums ∧ n.structs ⊆ n'.structs ∧ n.tables ⊆ n'.tables

namespace PlacedObjects

variable {p p' : PlacedObjects}

/-- Placed objects are **among** others when they stand there at the same places. -/
structure Among (p p' : PlacedObjects) : Prop where
  /-- The enumeration types do. -/
  enums : p.enums ⊆ p'.enums
  /-- The composite types do. -/
  structs : p.structs ⊆ p'.structs
  /-- The tables do. -/
  tables : p.tables ⊆ p'.tables

section Lists

variable {α : Type} {objects objects' : List (String × α)}

theorem inPlace_subset (h : objects ⊆ objects') (name : String) :
    inPlace name objects ⊆ inPlace name objects' :=
  fun _ ha => mem_inPlace_iff.mpr (h (mem_inPlace_iff.mp ha))

theorem places_subset (h : objects ⊆ objects') : places objects ⊆ places objects' := by
  intro name hname
  obtain ⟨a, ha⟩ := mem_places_iff.mp hname
  exact mem_places_iff.mpr ⟨a, h ha⟩

theorem byPlace_subset (h : objects ⊆ objects') : byPlace objects ⊆ byPlace objects' := by
  intro a ha
  obtain ⟨name, hname, ha⟩ := List.mem_flatMap.mp ha
  exact List.mem_flatMap.mpr ⟨name, places_subset h hname, inPlace_subset h name ha⟩

end Lists

namespace Among

variable (h : p.Among p')
include h

theorem allPlaces_subset : p.allPlaces ⊆ p'.allPlaces := fun _ hname =>
  mem_allPlaces_iff.mpr ((mem_allPlaces_iff.mp hname).imp (fun ht => places_subset h.tables ht)
    (Or.imp (fun he => places_subset h.enums he) fun hs => places_subset h.structs hs))

/-- With qualified names, an object that is placed at the same place is in the namespace of the same
name. -/
theorem within_qualifiedCatalog :
    (p.qualifiedCatalog .plain).Within (p'.qualifiedCatalog .plain) := by
  intro n hn
  obtain ⟨htables, hstructs, henums⟩ := eq_of_mem_qualifiedCatalog hn
  have hname : n.name ∈ p.allPlaces := by
    rw [← names_qualifiedCatalog]
    exact List.mem_map_of_mem hn
  obtain ⟨n', hn', hname'⟩ := exists_namespace_qualifiedCatalog (h.allPlaces_subset hname)
  obtain ⟨htables', hstructs', henums'⟩ := eq_of_mem_qualifiedCatalog hn'
  have hfound := find?_eq_some_of_nodup_map p'.nodup_names_qualifiedCatalog hn'
  refine ⟨n', hname' ▸ hfound, ?_, ?_, ?_⟩
  · rw [henums, henums', hname']
    exact inPlace_subset h.enums _
  · rw [hstructs, hstructs', hname']
    exact inPlace_subset h.structs _
  · rw [htables, htables', hname']
    exact inPlace_subset h.tables _

/-- With prefixed names all objects are in the default namespace. -/
theorem within_prefixedCatalog :
    (p.prefixedCatalog .plain).Within (p'.prefixedCatalog .plain) := by
  intro n hn
  rw [List.mem_singleton.mp hn]
  exact ⟨_, rfl, byPlace_subset h.enums, byPlace_subset h.structs, byPlace_subset h.tables⟩

end Among

end PlacedObjects

namespace Converter

variable {c : Converter} {roots roots' : List String} {types types' : List Definition}
  {p p' : PlacedObjects} {k k' : Catalog}

/-! ### What objects are made from -/

section Sources

variable (hsub : types ⊆ types')
include hsub

theorem parts_subset {α : Type} (part? : Definition → Option α) :
    types.filterMap part? ⊆ types'.filterMap part? := by
  intro a ha
  obtain ⟨d, hd, ha⟩ := List.mem_filterMap.mp ha
  exact List.mem_filterMap.mpr ⟨d, hsub hd, ha⟩

/-- **More definitions have more tables**: an enumeration that a field looks up is still looked
up. -/
theorem tableOrigins_subset :
    c.tableOrigins (types.filterMap Definition.entity?) ⊆
      c.tableOrigins (types'.filterMap Definition.entity?) := by
  have hentities := parts_subset hsub Definition.entity?
  intro origin horigin
  rcases List.mem_append.mp horigin with horigin | horigin
  · obtain ⟨item, hitem, rfl⟩ := List.mem_map.mp horigin
    refine List.mem_append_left _ (List.mem_map_of_mem ?_)
    cases item with
    | entity e =>
      exact mem_tableItems_entity_iff.mpr (hentities (mem_tableItems_entity_iff.mp hitem))
    | enumeration e =>
      rw [mem_tableItems_enumeration_iff, mem_lookupEnums_iff] at hitem ⊢
      obtain ⟨owner, howner, hlookup⟩ := hitem
      exact ⟨owner, hentities howner, hlookup⟩
  · obtain ⟨rel, hrel, rfl⟩ := List.mem_map.mp horigin
    refine List.mem_append_right _ (List.mem_map_of_mem ?_)
    obtain ⟨howner, hrole⟩ := mem_relationships_iff.mp hrel
    exact mem_relationships_iff.mpr ⟨hentities howner, hrole⟩

/-- **More definitions have more enumeration types**: an enumeration that a field uses plainly is
still used so. -/
theorem nativeEnums_subset (hget : ∀ d ∈ types', c.registry.get? d.name = some d) :
    c.nativeEnums types ⊆ c.nativeEnums types' := by
  intro e he
  rw [mem_nativeEnums_iff fun d hd => hget d (hsub hd)] at he
  obtain ⟨hmode, he, hcount, owner, howner, huses⟩ := he
  exact (mem_nativeEnums_iff hget).mpr ⟨hmode, hsub he, hcount, owner, hsub howner, huses⟩

end Sources

/-! ### What is made of them -/

/-- What is made from a source, and where it stands, depends on the source only. -/
theorem PlacedFrom.eq {α : Type} {moduleName : String} {made : Except ConvertError α}
    {o o' : String × α} (h : c.PlacedFrom moduleName made o)
    (h' : c.PlacedFrom moduleName made o') : o = o' :=
  Prod.ext (Except.ok.inj (h.place.symm.trans h'.place))
    (Except.ok.inj (h.object.symm.trans h'.object))

/-- More sources make more objects. -/
theorem subset_of_forall₂ {α β : Type} {moduleName : α → String}
    {make : α → Except ConvertError β} {sources sources' : List α}
    {placed placed' : List (String × β)}
    (h : List.Forall₂ (fun a o => c.PlacedFrom (moduleName a) (make a) o) sources placed)
    (h' : List.Forall₂ (fun a o => c.PlacedFrom (moduleName a) (make a) o) sources' placed')
    (hsub : sources ⊆ sources') : placed ⊆ placed' := by
  intro o ho
  obtain ⟨a, ha, hplaced⟩ := exists_of_mem_right h ho
  obtain ⟨o', ho', hplaced'⟩ := exists_of_mem_left h' (hsub ha)
  exact hplaced.eq hplaced' ▸ ho'

/-- The definitions that some roots reach are among those that more roots reach. -/
theorem reachable_subset (hroots : roots ⊆ roots') (hr : c.reachable roots = .ok types)
    (hr' : c.reachable roots' = .ok types') : types ⊆ types' := by
  intro d hd
  obtain ⟨hget, hreach⟩ := (mem_reachable_iff hr).mp hd
  exact (mem_reachable_iff hr').mpr ⟨hget, hreach.mono hroots⟩

/-- **The objects of some roots** are among those of more roots. -/
theorem among_objects (hroots : roots ⊆ roots') (hr : c.reachable roots = .ok types)
    (hr' : c.reachable roots' = .ok types') (hp : c.objects types = .ok p)
    (hp' : c.objects types' = .ok p') : p.Among p' := by
  have hsub := reachable_subset hroots hr hr'
  obtain ⟨structs, hstructs, hnone, hplaced⟩ := exists_forall₂_structs hp
  obtain ⟨structs', hstructs', -, hplaced'⟩ := exists_forall₂_structs hp'
  refine ⟨subset_of_forall₂ (forall₂_enums hp) (forall₂_enums hp') ?_,
    subset_of_forall₂ hplaced hplaced' ?_,
    subset_of_forall₂ (forall₂_tables hp) (forall₂_tables hp') (tableOrigins_subset hsub)⟩
  · exact nativeEnums_subset hsub fun d hd => ((mem_reachable_iff hr').mp hd).1
  · intro s hs
    have hmode : c.options.structMode = .type := by
      by_contra hmode
      rw [hnone hmode] at hs
      cases hs
    obtain ⟨hget, hreach⟩ := ((mem_structs_of_dependencyOrder hr (hstructs hmode)).2 s).mp hs
    exact ((mem_structs_of_dependencyOrder hr' (hstructs' hmode)).2 s).mpr
      ⟨hget, hreach.mono hroots⟩

/-- **Catalogs grow with the roots**: a catalog is within the catalog of more roots, if there is
one. -/
theorem within_of_subset (hf : c.options.factory = .plain) (hroots : roots ⊆ roots')
    (h : c.assemble roots = .ok k) (h' : c.assemble roots' = .ok k') : k.Within k' := by
  obtain ⟨types, p, hr, hp, rfl⟩ := assemble_eq_ok_iff.mp h
  obtain ⟨types', p', hr', hp', rfl⟩ := assemble_eq_ok_iff.mp h'
  have hamong := among_objects hroots hr hr' hp hp'
  unfold group
  rw [hf]
  split
  · exact hamong.within_qualifiedCatalog
  · exact hamong.within_prefixedCatalog

/-- The tags of a blog are in the catalog of its posts and tags. -/
theorem within_blog : ∃ k k', blog.assemble ["Tag"] = .ok k ∧
    blog.assemble ["Post", "Tag"] = .ok k' ∧ (k.tables.length = 1 ∧ k'.tables.length = 4) ∧
      k.Within k' := by
  have hreachable : blog.reachable ["Tag"] = .ok (["Tag"].filterMap blog.registry.get?) := by
    have hnames : blog.registry.closure ["Tag"] = .ok ["Tag"] := by cbv
    exact reachable_eq_ok hnames (by decide) (by decide)
  have hreachable' : blog.reachable ["Post", "Tag"] =
      .ok (["Kind", "Post", "Tag"].filterMap blog.registry.get?) := by
    have hnames : blog.registry.closure ["Post", "Tag"] = .ok ["Post", "Tag", "Kind"] := by cbv
    exact reachable_eq_ok hnames (by decide) (by decide)
  have hlength : (blog.assemble ["Tag"]).toOption.map (fun k => k.tables.length) = some 1 := by
    rw [assemble, hreachable]
    decide +kernel
  have hlength' : (blog.assemble ["Post", "Tag"]).toOption.map (fun k => k.tables.length) =
      some 4 := by
    rw [assemble, hreachable']
    decide +kernel
  obtain ⟨k, hk, hlength⟩ := exists_eq_ok_of_toOption hlength
  obtain ⟨k', hk', hlength'⟩ := exists_eq_ok_of_toOption hlength'
  exact ⟨k, k', hk, hk', ⟨hlength, hlength'⟩, within_of_subset rfl (by decide) hk hk'⟩

end Converter

end SchemaCatalog
