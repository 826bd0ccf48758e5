import SchemaCatalog.Proofs.Result
import SchemaCatalog.Sample

/-!
# What can be drawn

A sampler **can draw** a value when it does so from some stream of numbers at some position
(`Sampler.CanDraw`). A law about all that can be drawn holds whatever the source of randomness
yields. What a sequence can draw is taken apart into what its steps can draw
(`CanDraw.exists_of_bind`), and `Registry.CanDraw` says the same of the records of an entity: each
field has a value that can be drawn for it (`exists_of_canDraw`).
-/

namespace SchemaCatalog

/-- What is chosen from a list is one of its elements. -/
theorem Draw.mem_of_choose? {α : Type} {as : List α} {a : α} {d : Draws}
    (h : (choose? as d).1 = some a) : a ∈ as := by
  unfold choose? at h
  split at h
  · cases h
  · exact List.mem_of_getElem? h

namespace Sampler

variable {α β : Type} {a b : α}

/-- A sampler **can draw** a value when it does so from some stream. -/
def CanDraw (x : Sampler α) (a : α) : Prop := ∃ d d', x d = .ok (a, d')

theorem canDraw_pure_iff : CanDraw (pure a) b ↔ b = a := by
  constructor
  · rintro ⟨d, d', h⟩
    cases h
    rfl
  · rintro rfl
    exact ⟨Draws.ofSeed 0, _, rfl⟩

theorem canDraw_lift_iff {x : Draw α} : CanDraw (lift x) a ↔ ∃ d, (x d).1 = a := by
  constructor
  · rintro ⟨d, d', h⟩
    have hx : x d = (a, d') := Except.ok.inj h
    exact ⟨d, congrArg Prod.fst hx⟩
  · rintro ⟨d, rfl⟩
    exact ⟨d, _, rfl⟩

/-- What is drawn is put into a form. -/
theorem canDraw_lift_map_iff {x : Draw α} {f : α → β} {b : β} :
    CanDraw (lift (do let a ← x; return f a)) b ↔ ∃ a, CanDraw (lift x) a ∧ b = f a := by
  simp only [canDraw_lift_iff]
  constructor
  · rintro ⟨d, rfl⟩
    exact ⟨_, ⟨d, rfl⟩, rfl⟩
  · rintro ⟨_, ⟨d, rfl⟩, rfl⟩
    exact ⟨d, rfl⟩

/-- A failure draws nothing. -/
theorem not_canDraw_fail {e : ConvertError} : ¬ CanDraw (fail e) a := by
  rintro ⟨d, d', h⟩
  cases h

/-- Errors that name the entity do not change what is drawn. -/
theorem canDraw_nameOwner_iff {owner : String} {x : Sampler α} :
    CanDraw (nameOwner owner x) a ↔ CanDraw x a := by
  have same : ∀ d d', nameOwner owner x d = .ok (a, d') ↔ x d = .ok (a, d') :=
    fun d d' => mapError_eq_ok_iff
  simp only [CanDraw, same]

/-- What a sequence can draw is drawn after something that its first step can draw. -/
theorem CanDraw.exists_of_bind {x : Sampler α} {f : α → Sampler β} {b : β}
    (h : CanDraw (x >>= f) b) : ∃ a, CanDraw x a ∧ CanDraw (f a) b := by
  obtain ⟨d, d'', h⟩ := h
  have hsteps : (x d >>= fun p => f p.1 p.2) = .ok (b, d'') := h
  obtain ⟨⟨a, d'⟩, hx, hf⟩ := bind_eq_ok_iff.mp hsteps
  exact ⟨a, ⟨d, d', hx⟩, ⟨d', d'', hf⟩⟩

/-- What a step draws, put into a form. -/
theorem CanDraw.exists_of_map {x : Sampler α} {f : α → β} {b : β}
    (h : CanDraw (do let a ← x; return f a) b) : ∃ a, CanDraw x a ∧ b = f a := by
  obtain ⟨a, ha, hb⟩ := h.exists_of_bind
  exact ⟨a, ha, canDraw_pure_iff.mp hb⟩

/-- What is drawn again and again is drawn one by one. -/
theorem forall_of_canDraw_replicate {x : Sampler α} :
    ∀ {n : Nat} {as : List α}, (replicate n x).CanDraw as →
      as.length = n ∧ ∀ a ∈ as, x.CanDraw a
  | 0, as, h => by
    rw [canDraw_pure_iff.mp h]
    exact ⟨rfl, nofun⟩
  | n + 1, as, h => by
    obtain ⟨a, ha, h⟩ := h.exists_of_bind
    obtain ⟨as', has, rfl⟩ := h.exists_of_map
    obtain ⟨hlength, hall⟩ := forall_of_canDraw_replicate has
    exact ⟨congrArg Nat.succ hlength, List.forall_mem_cons.mpr ⟨ha, hall⟩⟩

/-- What a step can draw for every element of a list is drawn one by one. -/
theorem forall₂_of_canDraw_mapM {f : α → Sampler β} :
    ∀ {as : List α} {bs : List β}, CanDraw (as.mapM f) bs →
      List.Forall₂ (fun a b => CanDraw (f a) b) as bs
  | [], bs, h => by
    rw [List.mapM_nil] at h
    rw [canDraw_pure_iff.mp h]
    exact .nil
  | a :: as, bs, h => by
    rw [List.mapM_cons] at h
    obtain ⟨b, hb, h⟩ := h.exists_of_bind
    obtain ⟨bs', hbs, rfl⟩ := h.exists_of_map
    exact .cons hb (forall₂_of_canDraw_mapM hbs)

end Sampler

open Sampler

/-- A record of an entity **can be drawn** from definitions when some sample of them draws it, at
some position. -/
def Registry.CanDraw (registry : Registry) (e : Entity) (r : Record) : Prop :=
  ∃ (s : Sample) (index : Nat), s.registry = registry ∧ (s.record e index).CanDraw r

namespace Sample

variable {s : Sample} {e : Entity} {index : Nat}

/-- Filling in fields sets the values of these fields and of no others. -/
theorem exists_of_canDraw_fill {fs : List Field} (hn : (fs.map Field.name).Nodup) {r r' : Record}
    (h : (s.fill e index r fs).CanDraw r') :
    (∀ name, name ∉ fs.map Field.name → r'.get? name = r.get? name) ∧
      ∀ f ∈ fs, ∃ v, r'.get? f.name = some v ∧ (s.fieldValue e index f).CanDraw v := by
  induction fs generalizing r with
  | nil =>
    obtain rfl := canDraw_pure_iff.mp h
    exact ⟨fun _ _ => rfl, nofun⟩
  | cons f fs ih =>
    rw [List.map_cons, List.nodup_cons] at hn
    obtain ⟨v, hv, h⟩ := h.exists_of_bind
    obtain ⟨hother, hfields⟩ := ih hn.2 h
    have hset : ∀ name,
        (r.set f.name v).get? name = if name = f.name then some v else r.get? name :=
      fun name => OrderedMap.get?_insert r.fields f.name name v
    refine ⟨fun name hname => ?_, List.forall_mem_cons.mpr ⟨⟨v, ?_, hv⟩, hfields⟩⟩
    · rw [List.map_cons, List.mem_cons, not_or] at hname
      rw [hother name hname.2, hset, if_neg hname.1]
    -- the fields that follow have other names
    · rw [hother f.name hn.1, hset, if_pos rfl]

end Sample

/-- **A record that can be drawn** has a value for each field, one that can be drawn for it. -/
theorem Registry.CanDraw.exists_fieldValue {registry : Registry} {e : Entity} {r : Record}
    (h : registry.CanDraw e r) (hn : (e.fields.map Field.name).Nodup) :
    ∃ (s : Sample) (index : Nat), s.registry = registry ∧
      ∀ f ∈ e.fields, ∃ v, r.get? f.name = some v ∧ (s.fieldValue e index f).CanDraw v := by
  obtain ⟨s, index, hs, hr⟩ := h
  exact ⟨s, index, hs, (Sample.exists_of_canDraw_fill hn hr).2⟩

end SchemaCatalog
