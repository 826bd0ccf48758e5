import Mathlib.Logic.Function.Iterate
import SchemaCatalog.Proofs.Converter.Failure

/-!
# Conversions that end

The data type of a reference to an entity is that of the entity's key, so that mapping a type goes
on with types of keys (`mapMemberWith`). `mapMember` stops with an error where it would come back
to a type of keys that it is following already; a conversion without such an error ends (`Ends`).

Whether it ends does not depend on this check: a type ends exactly when keys are followed to some
depth only, so that what deeper ones are mapped to does not matter (`ends_mapMember_iff`). Then
following keys without any check comes to the same data type or error. All types end, with one bound
on the depth, where keys are acyclic (`ends_mapMember`, `iterate_mapMemberWith_eq`): each type of
keys on a path is another one.
-/

namespace SchemaCatalog

open Relation (TransGen)

/-- An error is **cyclic** when, below all wrappings, it is that of a key which refers back to
itself. -/
def ConvertError.Cyclic (err : ConvertError) : Prop :=
  ∃ subject, err.root = .unsupported subject .cyclicKey

theorem not_cyclic_of_direct : ∀ err : ConvertError, err.Direct → ¬ err.Cyclic := by
  rintro err hdirect ⟨subject, hroot⟩
  cases err with
  | within _ _ => exact hdirect
  | unsupported _ cause =>
    cases hroot
    exact hdirect
  | _ => cases hroot

/-- A conversion **ends** when it does not come back to a key that it is following already. -/
def Ends {α : Type} (x : Except ConvertError α) : Prop := FailsOnly (fun err => ¬ err.Cyclic) x

theorem FailsOnly.ends {α : Type} {x : Except ConvertError α}
    (h : FailsOnly ConvertError.Direct x) : Ends x :=
  h.mono not_cyclic_of_direct

/-- A conversion **completes** another one when it has the same outcome if the other one ends. -/
def Completes {α : Type} (x y : Except ConvertError α) : Prop := Ends x → y = x

/-- Anything completes what comes back to a key. -/
theorem completes_of_cyclicKey {α : Type} {subject : String} {y : Except ConvertError α} :
    Completes (.error (.unsupported subject .cyclicKey)) y :=
  fun hends => absurd ⟨subject, rfl⟩ (hends _ rfl)

namespace Converter

variable {c : Converter} {t : NativeType}

theorem passesSteps_completes : PassesSteps Completes where
  refl _ _ := rfl
  bind {_ _ x y f g} hxy hfg hends := by
    have hx : Ends x := fun err herr => hends err (bind_eq_error_iff.mpr (.inl herr))
    rw [hxy hx]
    refine bind_congr_of_ok fun a ha => hfg a fun err herr => ?_
    exact hends err (bind_eq_error_iff.mpr (.inr ⟨a, ha, herr⟩))

/-! ### Depths -/

/-- Following keys without a check completes following some types of keys, at most once each, when
it goes deeper than there are such types. -/
theorem completes_mapMemberAlong (rest : NativeType → Except ConvertError DataType)
    {keys : List NativeType} {depth : Nat} (hdepth : keys.length < depth) (t : NativeType) :
    Completes (c.mapMemberAlong keys t) (c.mapMemberWith^[depth] rest t) := by
  obtain ⟨depth, rfl⟩ := Nat.exists_eq_succ_of_ne_zero (Nat.ne_zero_of_lt hdepth)
  rw [mapMemberAlong_eq, Nat.succ_eq_add_one, Function.iterate_succ_apply']
  refine mapMemberWith_related passesSteps_completes (fun key => ?_) t
  unfold keyAlong
  split
  · rename_i hkey
    -- one step of the depth is taken for each key that is left out from here on
    have hless := length_otherKeys_lt hkey
    exact completes_mapMemberAlong rest (by omega) key
  · exact completes_of_cyclicKey
termination_by keys.length
decreasing_by exact length_otherKeys_lt ‹_›

/-- Following keys to a depth ends when what is put in the place of the deeper ones ends. -/
theorem ends_iterate {rest : NativeType → Except ConvertError DataType} (h : ∀ k, Ends (rest k))
    (depth : Nat) (t : NativeType) : Ends (c.mapMemberWith^[depth] rest t) := by
  induction depth generalizing t with
  | zero => exact h t
  | succ depth ih =>
    rw [Function.iterate_succ_apply']
    exact failsOnly_mapMemberWith not_cyclic_of_direct fun k _ => ih k

/-- **A type ends exactly when keys are followed to some depth only**, so that nothing depends on
what deeper ones are mapped to. -/
theorem ends_mapMember_iff : Ends (c.mapMember t) ↔
    ∃ depth, ∀ rest, c.mapMemberWith^[depth] rest t = c.mapMember t := by
  constructor
  · exact fun h => ⟨_, fun rest => completes_mapMemberAlong rest (Nat.lt_succ_self _) t h⟩
  · rintro ⟨depth, h⟩
    -- nothing depends on the deeper keys, so that they may be given any error that is not cyclic
    rw [← h fun k => .error (.unknownType k.display)]
    exact ends_iterate (fun k => (FailsOnly.error trivial).ends) depth t

/-! ### Acyclic keys -/

theorem ends_mapMemberAlong (h : c.registry.KeysAcyclic) {keys : List NativeType} {t : NativeType}
    (hkeys : ∀ k, TransGen c.registry.LeadsTo t k → k ∈ keys) : Ends (c.mapMemberAlong keys t) := by
  rw [mapMemberAlong_eq]
  refine failsOnly_mapMemberWith not_cyclic_of_direct fun key hkey => ?_
  have hmem := hkeys key (.single hkey)
  rw [keyAlong, if_pos hmem]
  -- the key does not lead back to itself, so that it is not missed from here on
  refine ends_mapMemberAlong h fun k hk => List.mem_filter.mpr ⟨hkeys k (.head hkey hk), ?_⟩
  refine decide_eq_true fun hback => h.not_leadsTo key ?_
  rwa [hback] at hk
termination_by keys.length
decreasing_by exact length_otherKeys_lt hmem

/-- **Where keys are acyclic, every type ends.** -/
theorem ends_mapMember (h : c.registry.KeysAcyclic) (t : NativeType) : Ends (c.mapMember t) := by
  refine ends_mapMemberAlong h fun k hk => ?_
  obtain ⟨_, -, hlast⟩ := Relation.TransGen.tail'_iff.mp hk
  exact hlast.mem_keyTypes

/-- Where keys are acyclic, no type has keys that are followed deeper than there are types of
keys. -/
theorem iterate_mapMemberWith_eq (h : c.registry.KeysAcyclic) {depth : Nat}
    (hdepth : c.registry.keyTypes.length < depth)
    (rest : NativeType → Except ConvertError DataType) :
    c.mapMemberWith^[depth] rest = c.mapMember :=
  funext fun t => completes_mapMemberAlong rest hdepth t (ends_mapMember h t)

end Converter

end SchemaCatalog
