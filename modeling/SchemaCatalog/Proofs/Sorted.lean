import Mathlib.Data.List.Perm.Basic
import SchemaCatalog.Proofs.Distinct

/-!
# Lists sorted by name

A catalog lists definitions in the order of their names. `SortedBy key as` says that the keys
of a list increase strictly; such a list is determined by its members (`SortedBy.ext`).
`sortedBy_mergeSort` and `sortedBy_distinct` are the two ways in which sorted lists arise:
by sorting elements of distinct keys, and by dropping repeated keys from what is sorted.
-/

namespace SchemaCatalog

variable {α β : Type} {key : α → String} {as bs : List α}

/-- A list is **sorted by** a key when the keys of its elements increase strictly. -/
def SortedBy (key : α → String) (as : List α) : Prop := as.Pairwise fun a b => key a < key b

instance (key : α → String) (as : List α) : Decidable (SortedBy key as) :=
  inferInstanceAs (Decidable (as.Pairwise fun a b => key a < key b))

namespace SortedBy

theorem nodup_map (h : SortedBy key as) : (as.map key).Nodup :=
  List.pairwise_map.mpr (h.imp String.ne_of_lt)

theorem nodup (h : SortedBy key as) : as.Nodup := h.nodup_map.of_map key

/-- **A sorted list is determined by its members.** -/
theorem ext (ha : SortedBy key as) (hb : SortedBy key bs) (h : ∀ a, a ∈ as ↔ a ∈ bs) : as = bs := by
  -- equal members make a permutation, and only one permutation is sorted
  have hperm : as.Perm bs := (List.perm_ext_iff_of_nodup ha.nodup hb.nodup).mpr h
  exact hperm.eq_of_pairwise (fun _ _ _ _ hab hba => absurd hba (String.lt_asymm hab)) ha hb

theorem filter (h : SortedBy key as) (p : α → Bool) : SortedBy key (as.filter p) :=
  List.Pairwise.filter p h

/-- The parts that a function finds in some elements are sorted when they keep the keys. -/
theorem filterMap (h : SortedBy key as) {part? : α → Option β} {key' : β → String}
    (hkey : ∀ a b, part? a = some b → key' b = key a) : SortedBy key' (as.filterMap part?) := by
  refine List.Pairwise.filterMap part? (fun a a' haa' b hb b' hb' => ?_) h
  rw [hkey a b hb, hkey a' b' hb']
  exact haa'

end SortedBy

/-- Distinct keys that increase increase strictly. -/
theorem sortedBy_of_pairwise_le (h : as.Pairwise fun a b => key a ≤ key b)
    (hn : (as.map key).Nodup) : SortedBy key as := by
  refine (h.and (List.pairwise_map.mp hn)).imp fun {a b} ⟨hle, hne⟩ => ?_
  rw [← String.not_le]
  exact fun hge => hne (String.le_antisymm hle hge)

theorem pairwise_le_mergeSort (key : α → String) (as : List α) :
    (as.mergeSort fun a b => key a ≤ key b).Pairwise fun a b => key a ≤ key b := by
  have h : (as.mergeSort fun a b => key a ≤ key b).Pairwise fun a b =>
      decide (key a ≤ key b) = true := by
    refine List.pairwise_mergeSort (fun a b d hab hbd => ?_) (fun a b => ?_) as
    · exact decide_eq_true (String.le_trans (of_decide_eq_true hab) (of_decide_eq_true hbd))
    · simpa using String.le_total (key a) (key b)
  simpa using h

/-- Elements of distinct keys are sorted by sorting them. -/
theorem sortedBy_mergeSort (hn : (as.map key).Nodup) :
    SortedBy key (as.mergeSort fun a b => key a ≤ key b) :=
  sortedBy_of_pairwise_le (pairwise_le_mergeSort key as)
    (((List.mergeSort_perm as _).map key).nodup_iff.mpr hn)

/-- Sorted elements without those whose key has been seen. -/
theorem sortedBy_distinct (key : α → String) (as : List α) :
    SortedBy key
      ((as.mergeSort fun a b => key a ≤ key b).eraseDupsBy fun a b => key a == key b) := by
  refine sortedBy_of_pairwise_le ((pairwise_le_mergeSort key as).sublist (eraseDupsBy_sublist _)) ?_
  refine List.pairwise_map.mpr ((pairwise_eraseDupsBy _).imp fun {a b} h hab => ?_)
  simp [hab] at h

end SchemaCatalog
