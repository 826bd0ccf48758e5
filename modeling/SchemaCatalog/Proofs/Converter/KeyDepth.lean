import Mathlib.Data.Nat.Find
import SchemaCatalog.Proofs.Converter.Member

/-!
# How deep keys are followed

`mapMember` follows each type of keys at most once on a path, so that it compares types of keys.
`mapWithin` compares none and follows keys to a given depth only. The two find the same data types
(`mapMember_eq_ok_iff`): a type of keys that has a data type has one at a least depth, what is
followed from it has one at a smaller depth, and so no type of keys is met twice.
-/

namespace SchemaCatalog.Converter

variable {c : Converter} {t : NativeType} {d : DataType} {depth : Nat}

/-- The data type of the type of a field, following keys of registered entities to a depth. -/
def mapWithin (c : Converter) : Nat → NativeType → Except ConvertError DataType
  | 0, t => .error (.unsupported t.display .cyclicKey)
  | depth + 1, t =>
    c.mapMemberWith
      (fun key =>
        if key ∈ c.registry.keyTypes then c.mapWithin depth key
        else .error (.unsupported key.display .cyclicKey))
      t

/-- A greater depth changes no result. -/
theorem mapWithin_mono {depth' : Nat} (hle : depth ≤ depth') (h : c.mapWithin depth t = .ok d) :
    c.mapWithin depth' t = .ok d := by
  induction depth generalizing depth' t d with
  | zero => cases h
  | succ depth ih =>
    obtain ⟨depth', rfl⟩ := Nat.exists_eq_succ_of_ne_zero (Nat.ne_zero_of_lt hle)
    refine mapMemberWith_mono (fun key d hd => ?_) h
    split at hd
    · rw [if_pos ‹_›]
      exact ih (Nat.le_of_succ_le_succ hle) hd
    · cases hd

/-- What is found along some types of keys is found within a depth of one more than there are. -/
theorem mapWithin_of_mapMemberAlong {keys : List NativeType} (hkeys : keys ⊆ c.registry.keyTypes)
    {t : NativeType} {d : DataType} (h : c.mapMemberAlong keys t = .ok d) :
    c.mapWithin (keys.length + 1) t = .ok d := by
  rw [mapMemberAlong_eq] at h
  refine mapMemberWith_mono (fun key d hd => ?_) h
  unfold keyAlong at hd
  split at hd
  · rename_i hkey
    rw [if_pos (hkeys hkey)]
    have hothers : otherKeys key keys ⊆ c.registry.keyTypes :=
      fun k hk => hkeys (List.mem_filter.mp hk).1
    exact mapWithin_mono (length_otherKeys_lt hkey) (mapWithin_of_mapMemberAlong hothers hd)
  · cases hd
termination_by keys.length
decreasing_by exact length_otherKeys_lt ‹_›

/-- What is found within a depth is found along some types of keys, when no other type of keys is
found within a smaller one. -/
theorem mapMemberAlong_of_mapWithin {keys : List NativeType}
    (hkeys : ∀ k ∈ c.registry.keyTypes, k ∉ keys → ∀ n < depth, ∀ d, c.mapWithin n k ≠ .ok d)
    (h : c.mapWithin depth t = .ok d) : c.mapMemberAlong keys t = .ok d := by
  induction depth using Nat.strong_induction_on generalizing keys t d with
  | _ depth ih =>
  cases depth with
  | zero => cases h
  | succ depth =>
    rw [mapMemberAlong_eq]
    refine mapMemberWith_mono (fun key d hd => ?_) h
    split at hd
    · rename_i hmem
      have hkey : key ∈ keys := by
        by_contra hkey
        exact hkeys key hmem hkey depth depth.lt_succ_self d hd
      rw [keyAlong, if_pos hkey]
      -- go on from the least depth at which this key is found: no key met from there is this one
      classical
      have hex : ∃ n d, c.mapWithin n key = .ok d := ⟨depth, d, hd⟩
      have hle : Nat.find hex ≤ depth := Nat.find_min' hex ⟨d, hd⟩
      obtain ⟨d', hd'⟩ := Nat.find_spec hex
      have hsame := mapWithin_mono hle hd'
      rw [hd] at hsame
      cases hsame
      refine ih _ (Nat.lt_succ_of_le hle) (fun k hk hother n hn d'' hd'' => ?_) hd'
      by_cases heq : k = key
      · exact Nat.find_min hex hn ⟨d'', heq ▸ hd''⟩
      · have hk' : k ∉ keys := fun h => hother (List.mem_filter.mpr ⟨h, decide_eq_true heq⟩)
        exact hkeys k hk hk' n (by omega) d'' hd''
    · cases hd

/-- **A data type is found exactly when it is found within some depth.** -/
theorem mapMember_eq_ok_iff : c.mapMember t = .ok d ↔ ∃ depth, c.mapWithin depth t = .ok d := by
  constructor
  · exact fun h => ⟨_, mapWithin_of_mapMemberAlong (List.Subset.refl _) h⟩
  · rintro ⟨depth, h⟩
    exact mapMemberAlong_of_mapWithin (fun k hk hne => absurd hk hne) h

end SchemaCatalog.Converter
