import SchemaCatalog.Converter.Role
import SchemaCatalog.Proofs.Registry.Lookup

/-!
# Why a field has its role

`Converter.HasRole c t role` lists, one case per branch, what has to hold of a type for each
role; `hasRole` says that the role of a type is one that it has. The far sides of a role are
its `items`: every item is registered under a name that the type mentions
(`get?_of_mem_items`), so that it is reached whenever the owner of the field is. The column of
a field holds keys of its `keyItems`.
-/

namespace SchemaCatalog

namespace RelatedItem

/-- The definition of an item. -/
def definition : RelatedItem → Definition
  | entity e => .entity e
  | enumeration e => .enumeration e

@[simp]
theorem name_definition : ∀ item : RelatedItem, item.definition.name = item.name
  | entity _ | enumeration _ => rfl

end RelatedItem

/-- The items that a field of a role points to. -/
def FieldRole.items : FieldRole → List RelatedItem
  | relationship item => [item]
  | entity target => [.entity target]
  | discriminated targets => targets.map .entity
  | enumeration e | extensible e => [.enumeration e]
  | value => []

namespace Converter

variable {c : Converter} {t : NativeType}

/-- The far side of a relationship is what the items of a list refer to. -/
theorem relatedItem?_eq_some_iff {item : RelatedItem} :
    c.relatedItem? t = some item ↔
      ∃ i, t = .list i ∧ c.registry.referenced? i.unadorned = some item.definition ∧
        ∀ e, item = .enumeration e → c.options.enumMode = .relation := by
  cases t with
  | list i =>
    unfold relatedItem?
    cases hd : c.registry.referenced? i.unadorned with
    | none => simp [hd]
    | some d => cases d <;> cases item <;> simp [hd, RelatedItem.definition, and_comm]
  | _ => simp [relatedItem?]

/-- A union of entities has members, and they refer to the entities in order. -/
theorem unionEntities?_eq_some_iff {es : List Entity} :
    c.unionEntities? t = some es ↔
      ∃ ms, t = .union ms ∧ ms ≠ [] ∧
        List.Forall₂ (fun m e => c.registry.entity? m = some e) ms es := by
  cases t with
  | union ms =>
    cases ms with
    | nil => simp [unionEntities?]
    | cons m ms =>
      rw [unionEntities?, mapM_eq_some_iff]
      · simp
      · simp
  | _ => simp [unionEntities?]

/-- What has to hold of a type for each role. -/
inductive HasRole (c : Converter) (t : NativeType) : FieldRole → Prop
  /-- A list of entities or, under relations, of an enumeration. -/
  | relationship {item : RelatedItem} :
    c.relatedItem? t.unadorned = some item → HasRole c t (.relationship item)
  /-- A reference to an entity. -/
  | entity {e : Entity} :
    c.registry.referenced? t.unadorned = some (.entity e) → HasRole c t (.entity e)
  /-- A reference to an enumeration with labels enough. -/
  | enumeration {e : Enumeration} :
    c.registry.referenced? t.unadorned = some (.enumeration e) → c.isSmall e = false →
      HasRole c t (.enumeration e)
  /-- A reference to an enumeration with too few labels. -/
  | small {e : Enumeration} :
    c.registry.referenced? t.unadorned = some (.enumeration e) → c.isSmall e = true →
      HasRole c t (.extensible e)
  /-- A union of an enumeration and strings. -/
  | extensible {e : Enumeration} :
    c.registry.extensible? t.unadorned = some e → HasRole c t (.extensible e)
  /-- A union of entities. -/
  | discriminated {es : List Entity} :
    c.registry.extensible? t.unadorned = none → c.unionEntities? t.unadorned = some es →
      HasRole c t (.discriminated es)
  /-- Any other type. -/
  | value : HasRole c t .value

/-- **The role of a type is one that it has.** -/
theorem hasRole (c : Converter) (t : NativeType) : c.HasRole t (c.role t) := by
  dsimp only [role]
  split
  · exact .relationship ‹_›
  · split
    · exact .entity ‹_›
    · split
      · exact .small ‹_› ‹_›
      · exact .enumeration ‹_› (Bool.eq_false_iff.mpr ‹_›)
    · split
      · exact .extensible ‹_›
      · split
        · exact .discriminated ‹_› ‹_›
        · exact .value

theorem isRelationship_iff :
    c.isRelationship t = true ↔ ∃ item, c.role t = .relationship item := by
  rw [isRelationship, Option.isSome_iff_exists]
  constructor
  · rintro ⟨item, h⟩
    exact ⟨item, by simp [role, h]⟩
  · rintro ⟨item, h⟩
    have hrole := h ▸ c.hasRole t
    cases hrole with
    | relationship hrel => exact ⟨item, hrel⟩

/-- An enumeration is at the far side of a relationship under relations only. -/
theorem enumMode_of_relationship {e : Enumeration}
    (h : c.role t = .relationship (.enumeration e)) : c.options.enumMode = .relation := by
  have hrole := h ▸ c.hasRole t
  cases hrole with
  | relationship hrel =>
    obtain ⟨-, -, -, hmode⟩ := relatedItem?_eq_some_iff.mp hrel
    exact hmode e rfl

/-- **Items are mentioned**: the far side of a role is registered under its name, and the type
mentions that name. -/
theorem get?_of_mem_items {item : RelatedItem} (h : item ∈ (c.role t).items) :
    c.registry.get? item.name = some item.definition ∧ item.name ∈ t.mentions := by
  rw [← item.name_definition, ← t.mentions_unadorned]
  -- every item has been looked up for a part of the type
  have of_referenced : ∀ {u : NativeType} {d : Definition},
      c.registry.referenced? u = some d →
        (∀ name ∈ u.mentions, name ∈ t.unadorned.mentions) →
        c.registry.get? d.name = some d ∧ d.name ∈ t.unadorned.mentions := by
    intro u d hd hu
    obtain ⟨hget, hmentions⟩ := Registry.get?_of_referenced? hd
    exact ⟨hget, hu d.name (by simp [hmentions])⟩
  have hrole := c.hasRole t
  generalize c.role t = role at hrole h
  cases hrole with
  | relationship hrel =>
    obtain ⟨i, hi, hd, -⟩ := relatedItem?_eq_some_iff.mp hrel
    cases List.mem_singleton.mp h
    refine of_referenced hd fun name hname => ?_
    rwa [hi, NativeType.mentions, ← i.mentions_unadorned]
  | entity hd | enumeration hd | small hd =>
    cases List.mem_singleton.mp h
    exact of_referenced hd fun _ => id
  | extensible he =>
    obtain ⟨ms, hms, m, hm, hme⟩ := Registry.extensible?_eq_some he
    cases List.mem_singleton.mp h
    refine of_referenced (Registry.enumeration?_eq_some_iff.mp hme) fun name hname => ?_
    exact hms ▸ NativeType.mem_mentionsAll_iff.mpr ⟨m, hm, hname⟩
  | discriminated _ hes =>
    obtain ⟨ms, hms, -, hall⟩ := unionEntities?_eq_some_iff.mp hes
    obtain ⟨e, he, rfl⟩ := List.mem_map.mp h
    obtain ⟨m, hm, hme⟩ := exists_of_mem_right hall he
    refine of_referenced (Registry.entity?_eq_some_iff.mp hme) fun name hname => ?_
    exact hms ▸ NativeType.mem_mentionsAll_iff.mpr ⟨m, hm, hname⟩
  | value => cases h

/-- The items whose keys the column of a field holds. -/
def keyItems (c : Converter) (f : Field) : List RelatedItem :=
  match c.role f.type with
  | .entity target => [.entity target]
  | .discriminated targets => targets.map .entity
  | .extensible e => [.enumeration e]
  | .enumeration e => if c.options.enumMode = .relation then [.enumeration e] else []
  | .relationship _ | .value => []

theorem mem_items_of_mem_keyItems {f : Field} {item : RelatedItem} (h : item ∈ c.keyItems f) :
    item ∈ (c.role f.type).items := by
  unfold keyItems at h
  split at h <;> simp_all [FieldRole.items]

/-- A relationship has no column, so that no column holds keys of its far side. -/
theorem isRelationship_of_mem_keyItems {f : Field} {item : RelatedItem}
    (h : item ∈ c.keyItems f) : c.isRelationship f.type = false := by
  rw [Bool.eq_false_iff, ne_eq, isRelationship_iff]
  rintro ⟨item', hrole⟩
  rw [keyItems, hrole] at h
  cases h

end Converter

end SchemaCatalog
