import Mathlib.Logic.Relation
import SchemaCatalog.Proofs.Registry.Agreement

/-!
# Keys that mention each other

The key of an entity mentions another entity when the type of the key field does, at whatever depth
(`KeyMentions`). A type leads to the types of the keys of the entities that it mentions (`LeadsTo`).
Where no key mentions its own entity, not even by way of other keys (`KeysAcyclic`), no type of keys
leads back to itself (`KeysAcyclic.not_leadsTo`), although different entities may have keys of one
type.
-/

namespace SchemaCatalog.Registry

open Relation (ReflTransGen TransGen)

variable {r : Registry} {x y e : Entity} {t k k' : NativeType}

/-- The key of an entity **mentions** another entity when both are registered and the type of the
first one's key field mentions the second one, below whatever annotations, lists and unions. -/
structure KeyMentions (r : Registry) (x y : Entity) : Prop where
  /-- The first entity is registered. -/
  mem_left : .entity x ∈ r.types
  /-- The second entity is registered. -/
  mem_right : .entity y ∈ r.types
  /-- The key field of the first one mentions the second one. -/
  mentions : ∃ key, x.keyField? = some key ∧ key.type.Mentions y.name

/-- Keys are **acyclic** when no entity is mentioned by its own key, nor by way of other keys. -/
def KeysAcyclic (r : Registry) : Prop := ∀ e, ¬ TransGen r.KeyMentions e e

/-- Keys are acyclic where entities have ranks that fall from a key to what it mentions. -/
theorem keysAcyclic_of_rank (rank : Entity → Nat)
    (h : ∀ x y, r.KeyMentions x y → rank y < rank x) : r.KeysAcyclic := by
  have hfalls : ∀ {x y}, TransGen r.KeyMentions x y → rank y < rank x := by
    intro x y hxy
    induction hxy with
    | single hstep => exact h _ _ hstep
    | tail _ hstep ih => exact (h _ _ hstep).trans ih
  exact fun e hcycle => (hfalls hcycle).false

/-- A type **leads to** the types of the keys of the entities that it mentions. -/
def LeadsTo (r : Registry) (t k : NativeType) : Prop :=
  ∃ e key, r.KeyTypeAmong t.mentions e key ∧ key.type = k

theorem LeadsTo.mem_keyTypes (h : r.LeadsTo t k) : k ∈ r.keyTypes := by
  obtain ⟨e, key, hkey, rfl⟩ := h
  exact hkey.mem_keyTypes

/-- What a part of a type leads to, the type leads to. -/
theorem LeadsTo.mono (h : r.LeadsTo t k) {t' : NativeType} (hsub : t.mentions ⊆ t'.mentions) :
    r.LeadsTo t' k := by
  obtain ⟨e, key, hkey, rfl⟩ := h
  exact ⟨e, key, ⟨hsub hkey.mem, hkey.get?, hkey.keyField⟩, rfl⟩

/-- What types lead to by way of others, keys mention by way of others. -/
theorem exists_keyMentions_of_leadsTo (h : TransGen r.LeadsTo t k) :
    ∃ x y key, t.Mentions x.name ∧ .entity x ∈ r.types ∧ ReflTransGen r.KeyMentions x y ∧
      .entity y ∈ r.types ∧ y.keyField? = some key ∧ key.type = k := by
  induction h with
  | single h =>
    obtain ⟨x, key, hx, rfl⟩ := h
    have hmem := (get?_eq_some_iff.mp hx.get?).1
    exact ⟨x, x, key, NativeType.mentions_iff.mpr hx.mem, hmem, .refl, hmem,
      keyField_eq_ok_iff.mp hx.keyField, rfl⟩
  | tail _ h ih =>
    obtain ⟨x, y, key, hmentions, hx, hxy, hy, hkey, rfl⟩ := ih
    -- the type that leads on is that of the key of `y`, so that the key of `y` mentions `z`
    obtain ⟨z, key', hz, rfl⟩ := h
    have hmem := (get?_eq_some_iff.mp hz.get?).1
    have hyz : r.KeyMentions y z := ⟨hy, hmem, key, hkey, NativeType.mentions_iff.mpr hz.mem⟩
    exact ⟨x, z, key', hmentions, hx, hxy.tail hyz, hmem, keyField_eq_ok_iff.mp hz.keyField, rfl⟩

/-- **Where keys are acyclic, no type of keys leads back to itself.** -/
theorem KeysAcyclic.not_leadsTo (h : r.KeysAcyclic) (k : NativeType) :
    ¬ TransGen r.LeadsTo k k := by
  intro hcycle
  obtain ⟨x, y, key, hmentions, hx, hxy, hy, hkey, rfl⟩ := exists_keyMentions_of_leadsTo hcycle
  exact h y (.head' ⟨hy, hx, key, hkey, hmentions⟩ hxy)

end SchemaCatalog.Registry
