import Mathlib.Data.List.Perm.Basic
import SchemaCatalog.Assembly
import SchemaCatalog.Proofs.Distinct

/-!
# Placing objects in namespaces

A catalog lists its objects place by place. Distinct places that cover a list of objects lose
none of them and double none (`perm_byPlaces`), and keep their order within a place; so the
first object with a property that pins the place is found where it would be found in the list
(`find?_byPlaces`).
-/

namespace SchemaCatalog

namespace PlacedObjects

open List

variable {α : Type} {names : List String} {objects : List (String × α)} {name place : String}

/-- The objects of a list at some places, place by place. -/
def byPlaces (names : List String) (objects : List (String × α)) : List α :=
  names.flatMap fun name => inPlace name objects

/-- Places **cover** a list of objects when they differ and each object has one of them. -/
structure Covers (names : List String) (objects : List (String × α)) : Prop where
  /-- The places differ. -/
  nodup : names.Nodup
  /-- Each object has one of the places. -/
  mem : ∀ o ∈ objects, o.1 ∈ names

theorem mem_places_iff : name ∈ places objects ↔ ∃ a, (name, a) ∈ objects := by
  simp [places]

theorem mem_inPlace_iff {a : α} : a ∈ inPlace name objects ↔ (name, a) ∈ objects := by
  simp [inPlace]

theorem covers_places (objects : List (String × α)) : Covers (places objects) objects where
  nodup := nodup_eraseDups _
  mem o ho := mem_places_iff.mpr ⟨o.2, ho⟩

/-- Objects at another place do not show. -/
theorem inPlace_filter_ne (h : name ≠ place) :
    inPlace name (objects.filter fun o => o.1 ≠ place) = inPlace name objects := by
  unfold inPlace
  rw [List.filter_filter]
  congr 1
  refine List.filter_congr fun o _ => ?_
  by_cases ho : o.1 = name
  · simp [ho, h]
  · simp [ho]

theorem byPlaces_filter_ne (h : place ∉ names) :
    byPlaces names (objects.filter fun o => o.1 ≠ place) = byPlaces names objects := by
  unfold byPlaces
  rw [List.flatMap_def, List.flatMap_def]
  congr 1
  refine List.map_congr_left fun name hname => inPlace_filter_ne fun he => h (he ▸ hname)

/-- **Nothing is lost or doubled**: the objects place by place are the objects. -/
theorem perm_byPlaces (h : Covers names objects) :
    (byPlaces names objects).Perm (objects.map Prod.snd) := by
  induction names generalizing objects with
  | nil =>
    rw [List.eq_nil_iff_forall_not_mem.mpr fun o ho => List.not_mem_nil (h.mem o ho)]
    exact List.Perm.refl _
  | cons place names ih =>
    obtain ⟨hplace, hnodup⟩ := List.nodup_cons.mp h.nodup
    have hrest : Covers names (objects.filter fun o => o.1 ≠ place) := by
      refine ⟨hnodup, fun o ho => ?_⟩
      obtain ⟨ho, hne⟩ := List.mem_filter.mp ho
      exact (List.mem_cons.mp (h.mem o ho)).resolve_left (by simpa using hne)
    calc byPlaces (place :: names) objects
        = inPlace place objects ++ byPlaces names objects := List.flatMap_cons
      _ = inPlace place objects ++ byPlaces names (objects.filter fun o => o.1 ≠ place) := by
          rw [byPlaces_filter_ne hplace]
      _ ~ inPlace place objects ++ (objects.filter fun o => o.1 ≠ place).map Prod.snd :=
          (ih hrest).append_left _
      _ = ((objects.filter fun o => o.1 = place) ++
            objects.filter fun o => o.1 ≠ place).map Prod.snd := by
          rw [List.map_append, inPlace]
      _ ~ objects.map Prod.snd := by
          refine List.Perm.map _ ?_
          simpa using List.filter_append_perm (fun o => decide (o.1 = place)) objects

/-- Within a place the objects keep their order, so that the first one with a property is
found there. -/
theorem find?_inPlace {p : α → Bool} (hp : ∀ o ∈ objects, p o.2 = true → o.1 = place) :
    (inPlace place objects).find? p = (objects.map Prod.snd).find? p := by
  induction objects with
  | nil => rfl
  | cons o objects ih =>
    have ih := ih fun o' ho' => hp o' (List.mem_cons_of_mem _ ho')
    by_cases ho : o.1 = place
    · simp only [inPlace, List.filter_cons, ho, decide_true, ↓reduceIte, List.map_cons,
        List.find?_cons] at ih ⊢
      rw [ih]
    · have hpo : p o.2 = false := by
        rw [Bool.eq_false_iff]
        exact fun h => ho (hp o List.mem_cons_self h)
      simp only [inPlace, List.filter_cons, ho, decide_false, Bool.false_eq_true, ↓reduceIte,
        List.map_cons, List.find?_cons, hpo] at ih ⊢
      exact ih

/-- **The first object with a property** that pins the place is found place by place as in the
list itself. -/
theorem find?_byPlaces (h : Covers names objects) {p : α → Bool}
    (hp : ∀ o ∈ objects, p o.2 = true → o.1 = place) :
    (byPlaces names objects).find? p = (objects.map Prod.snd).find? p := by
  rw [← find?_inPlace hp]
  cases hfound : (inPlace place objects).find? p with
  | none =>
    rw [List.find?_eq_none] at hfound ⊢
    intro a ha hpa
    obtain ⟨name, -, ha⟩ := List.mem_flatMap.mp ha
    have ha := mem_inPlace_iff.mp ha
    obtain rfl : name = place := hp _ ha hpa
    exact hfound a (mem_inPlace_iff.mpr ha) hpa
  | some a =>
    have hplace : place ∈ names :=
      h.mem _ (mem_inPlace_iff.mp (List.mem_of_find?_eq_some hfound))
    -- the names before the pinned place have no object with the property
    clear h
    induction names with
    | nil => cases hplace
    | cons name names ih =>
      rw [byPlaces, List.flatMap_cons, List.find?_append]
      by_cases hname : name = place
      · rw [hname, hfound, Option.some_or]
      · have hnone : (inPlace name objects).find? p = none := by
          rw [List.find?_eq_none]
          exact fun b hb hpb => hname (hp _ (mem_inPlace_iff.mp hb) hpb)
        rw [hnone, Option.none_or]
        exact ih ((List.mem_cons.mp hplace).resolve_left (Ne.symm hname))

/-! ### The order of objects -/

section Order

variable {T : α → α → Prop}

/-- Within a place the objects keep their order. -/
theorem pairwise_inPlace (h : (objects.map Prod.snd).Pairwise T) :
    (inPlace name objects).Pairwise T :=
  h.sublist (List.filter_sublist.map Prod.snd)

/-- **Place by place** the objects keep their order if they stand at one place. -/
theorem pairwise_byPlaces (placeOf : α → String) (hn : names.Nodup)
    (hplace : ∀ o ∈ objects, placeOf o.2 = o.1) (h : (objects.map Prod.snd).Pairwise T) :
    (byPlaces names objects).Pairwise fun a b => placeOf a = placeOf b → T a b := by
  rw [byPlaces, List.pairwise_flatMap]
  refine ⟨fun name _ => (pairwise_inPlace h).imp ?_, hn.imp ?_⟩
  · exact fun hT _ => hT
  -- the objects of different places do not stand at one
  · intro name name' hne a ha b hb heq
    have ha := hplace _ (mem_inPlace_iff.mp ha)
    have hb := hplace _ (mem_inPlace_iff.mp hb)
    exact absurd (ha.symm.trans (heq.trans hb)) hne

end Order

/-! ### The objects of a catalog -/

/-- The places of a catalog with qualified names: first those of tables. -/
def allPlaces (p : PlacedObjects) : List String :=
  (places p.tables ++ places p.enums ++ places p.structs).eraseDups

theorem mem_allPlaces_iff {p : PlacedObjects} :
    name ∈ p.allPlaces ↔
      name ∈ places p.tables ∨ name ∈ places p.enums ∨ name ∈ places p.structs := by
  simp [allPlaces]

/-- Every object stands at a place of the catalog. -/
theorem covers_allPlaces (p : PlacedObjects) :
    Covers p.allPlaces p.tables ∧ Covers p.allPlaces p.structs ∧ Covers p.allPlaces p.enums := by
  have hnodup : p.allPlaces.Nodup := nodup_eraseDups _
  refine ⟨⟨hnodup, fun o ho => ?_⟩, ⟨hnodup, fun o ho => ?_⟩, ⟨hnodup, fun o ho => ?_⟩⟩
  · exact mem_allPlaces_iff.mpr (Or.inl (mem_places_iff.mpr ⟨o.2, ho⟩))
  · exact mem_allPlaces_iff.mpr (Or.inr (Or.inr (mem_places_iff.mpr ⟨o.2, ho⟩)))
  · exact mem_allPlaces_iff.mpr (Or.inr (Or.inl (mem_places_iff.mpr ⟨o.2, ho⟩)))

/-- The objects of a catalog stand place by place, at places that cover them. -/
structure Grouped (p : PlacedObjects) (k : Catalog) : Prop where
  /-- The tables place by place. -/
  tables : ∃ names, Covers names p.tables ∧ k.tables = byPlaces names p.tables
  /-- The composite types place by place. -/
  structs : ∃ names, Covers names p.structs ∧ k.structs = byPlaces names p.structs
  /-- The enumeration types place by place. -/
  enums : ∃ names, Covers names p.enums ∧ k.enums = byPlaces names p.enums

theorem grouped_qualifiedCatalog (f : ObjectFactory) (p : PlacedObjects) :
    p.Grouped (p.qualifiedCatalog f) where
  tables := ⟨p.allPlaces, p.covers_allPlaces.1, List.flatMap_map ..⟩
  structs := ⟨p.allPlaces, p.covers_allPlaces.2.1, List.flatMap_map ..⟩
  enums := ⟨p.allPlaces, p.covers_allPlaces.2.2, List.flatMap_map ..⟩

theorem grouped_prefixedCatalog (f : ObjectFactory) (p : PlacedObjects) :
    p.Grouped (p.prefixedCatalog f) where
  tables := ⟨_, covers_places _, List.flatMap_singleton ..⟩
  structs := ⟨_, covers_places _, List.flatMap_singleton ..⟩
  enums := ⟨_, covers_places _, List.flatMap_singleton ..⟩

/-! ### Namespaces of a catalog with qualified names -/

theorem names_qualifiedCatalog (p : PlacedObjects) :
    (p.qualifiedCatalog .plain).namespaces.map Namespace.name = p.allPlaces := by
  rw [qualifiedCatalog, List.map_map]
  exact List.map_id _

/-- No two namespaces have one name. -/
theorem nodup_names_qualifiedCatalog (p : PlacedObjects) :
    ((p.qualifiedCatalog .plain).namespaces.map Namespace.name).Nodup := by
  rw [names_qualifiedCatalog]
  exact nodup_eraseDups _

/-- There is a namespace where an object is placed. -/
theorem exists_namespace_qualifiedCatalog {p : PlacedObjects} (h : name ∈ p.allPlaces) :
    ∃ n ∈ (p.qualifiedCatalog .plain).namespaces, n.name = name := by
  rw [← names_qualifiedCatalog] at h
  exact List.mem_map.mp h

/-- A namespace has the objects that are placed in it, in order. -/
theorem eq_of_mem_qualifiedCatalog {p : PlacedObjects} {n : Namespace}
    (h : n ∈ (p.qualifiedCatalog .plain).namespaces) :
    n.tables = inPlace n.name p.tables ∧ n.structs = inPlace n.name p.structs ∧
      n.enums = inPlace n.name p.enums := by
  obtain ⟨name, -, rfl⟩ := List.mem_map.mp h
  exact ⟨rfl, rfl, rfl⟩

/-- There is a namespace only where an object is placed. -/
theorem isEmpty_of_mem_qualifiedCatalog {p : PlacedObjects} {n : Namespace}
    (h : n ∈ (p.qualifiedCatalog .plain).namespaces) : n.isEmpty = false := by
  have hname : n.name ∈ p.allPlaces := by
    rw [← names_qualifiedCatalog]
    exact List.mem_map_of_mem h
  have hne : ∀ {β : Type} {objects : List (String × β)}, n.name ∈ places objects →
      (inPlace n.name objects).isEmpty = false := by
    intro β objects hplace
    obtain ⟨a, ha⟩ := mem_places_iff.mp hplace
    exact List.isEmpty_eq_false_iff_exists_mem.mpr ⟨a, mem_inPlace_iff.mpr ha⟩
  obtain ⟨htables, hstructs, henums⟩ := eq_of_mem_qualifiedCatalog h
  rw [Namespace.isEmpty, htables, hstructs, henums]
  rcases mem_allPlaces_iff.mp hname with h | h | h <;> simp [hne h]

end PlacedObjects

namespace Converter

/-- **Grouping** loses and doubles no object, whatever the style of names. -/
theorem grouped_group (c : Converter) (p : PlacedObjects) : p.Grouped (c.group p) := by
  unfold group
  split
  · exact PlacedObjects.grouped_qualifiedCatalog _ p
  · exact PlacedObjects.grouped_prefixedCatalog _ p

/-- A namespace has the composite types of a place, or all of them place by place if names are
prefixed. -/
theorem structs_of_mem_group {c : Converter} {p : PlacedObjects} {n : Namespace}
    (h : n ∈ (c.group p).namespaces) :
    (∃ name, n.structs = PlacedObjects.inPlace name p.structs) ∨
      c.options.qualifiedNames = false ∧ n.structs = PlacedObjects.byPlace p.structs := by
  unfold group at h
  split at h
  · obtain ⟨name, -, rfl⟩ := List.mem_map.mp h
    exact Or.inl ⟨name, rfl⟩
  · rename_i hq
    rw [List.mem_singleton.mp h]
    exact Or.inr ⟨Bool.eq_false_iff.mpr hq, rfl⟩

end Converter

end SchemaCatalog
