import Mathlib.Data.List.Nodup
import Mathlib.Data.Set.Function

/-!
# Lists without repetitions

`eraseDupsBy` keeps of the elements that a test identifies the first one: what is left is a
sublist (`eraseDupsBy_sublist`) in which the test identifies no two elements
(`pairwise_eraseDupsBy`), and which still has an element for each of the list
(`exists_mem_eraseDupsBy`). Functions that identify no elements commute with it
(`eraseDups_map_of_injOn`). Without repetitions, the pairs of an element and a later one are an
order (`pair_sublist_trans`). Where no key stands twice, a key finds its element
(`find?_eq_some_of_nodup_map`).
-/

namespace SchemaCatalog

universe u

variable {α : Type u} {test : α → α → Bool}

theorem eraseDupsBy_sublist : ∀ as : List α, (as.eraseDupsBy test).Sublist as
  | [] => List.Sublist.slnil
  | a :: as => by
    rw [List.eraseDupsBy_cons]
    exact ((eraseDupsBy_sublist _).trans List.filter_sublist).cons_cons a
termination_by as => as.length
decreasing_by exact Nat.lt_succ_of_le (List.length_filter_le _ _)

theorem pairwise_eraseDupsBy :
    ∀ as : List α, (as.eraseDupsBy test).Pairwise fun a b => test b a = false
  | [] => List.Pairwise.nil
  | a :: as => by
    rw [List.eraseDupsBy_cons]
    refine List.Pairwise.cons (fun b hb => ?_) (pairwise_eraseDupsBy _)
    simpa using (List.mem_filter.mp ((eraseDupsBy_sublist _).mem hb)).2
termination_by as => as.length
decreasing_by exact Nat.lt_succ_of_le (List.length_filter_le _ _)

/-- For every element the list without repetitions has one that the test identifies with it. -/
theorem exists_mem_eraseDupsBy (hrefl : ∀ a, test a a = true) :
    ∀ {as : List α} {a : α}, a ∈ as → ∃ b ∈ as.eraseDupsBy test, test a b = true
  | b :: as, a, ha => by
    rw [List.eraseDupsBy_cons]
    cases hab : test a b with
    | true => exact ⟨b, List.mem_cons_self, hab⟩
    | false =>
      have hmem : a ∈ as.filter fun d => test d b = false := by
        rcases List.mem_cons.mp ha with rfl | ha
        · rw [hrefl] at hab
          cases hab
        · exact List.mem_filter.mpr ⟨ha, by simpa using hab⟩
      obtain ⟨d, hd, had⟩ := exists_mem_eraseDupsBy hrefl hmem
      exact ⟨d, List.mem_cons_of_mem _ hd, had⟩
termination_by as => as.length
decreasing_by exact Nat.lt_succ_of_le (List.length_filter_le _ _)

theorem nodup_eraseDups [BEq α] [LawfulBEq α] (as : List α) : as.eraseDups.Nodup := by
  have h : as.eraseDups.Pairwise fun a b => (b == a) = false := pairwise_eraseDupsBy as
  refine h.imp fun hab heq => ?_
  rw [heq, beq_self_eq_true] at hab
  cases hab

/-- One element is left where all are one. -/
theorem eraseDups_of_forall_eq [BEq α] [LawfulBEq α] {as : List α} {a : α}
    (h : ∀ b ∈ as, b = a) (hne : as ≠ []) : as.eraseDups = [a] := by
  obtain ⟨b, as, rfl⟩ := List.exists_cons_of_ne_nil hne
  obtain rfl := h b List.mem_cons_self
  have hrest : as.filter (fun d => !d == b) = [] := by
    refine List.filter_eq_nil_iff.mpr fun d hd => ?_
    simp [h d (List.mem_cons_of_mem _ hd)]
  rw [List.eraseDups_cons, hrest]
  rfl

/-- All elements are left where none stands twice. -/
theorem length_eraseDups_eq_iff [BEq α] [LawfulBEq α] {as : List α} :
    as.eraseDups.length = as.length ↔ as.Nodup := by
  constructor
  · intro h
    have heq : as.eraseDups = as := (eraseDupsBy_sublist as).eq_of_length h
    exact heq ▸ nodup_eraseDups as
  · intro h
    have hperm := (List.perm_ext_iff_of_nodup (nodup_eraseDups as) h).mpr fun a =>
      List.mem_eraseDups
    exact hperm.length_eq

/-- Two elements are left where two elements differ. -/
theorem two_le_length_eraseDups_iff [BEq α] [LawfulBEq α] {as : List α} :
    2 ≤ as.eraseDups.length ↔ ∃ a ∈ as, ∃ b ∈ as, a ≠ b := by
  have hmem : ∀ {a}, a ∈ as.eraseDups ↔ a ∈ as := List.mem_eraseDups
  have hnodup := nodup_eraseDups as
  simp only [← hmem]
  generalize as.eraseDups = kept at hnodup
  match kept with
  | [] => simp
  | [a] => simp
  | a :: b :: kept =>
    have hne : a ≠ b := fun h => (List.nodup_cons.mp hnodup).1 (h ▸ List.mem_cons_self)
    refine iff_of_true (by simp) ⟨a, List.mem_cons_self, b, ?_, hne⟩
    exact List.mem_cons_of_mem _ List.mem_cons_self

/-- A function that identifies no two elements commutes with erasing repetitions. -/
theorem eraseDups_map_of_injOn [BEq α] [LawfulBEq α] {β : Type u} [BEq β] [LawfulBEq β]
    {f : α → β} :
    ∀ {as : List α}, Set.InjOn f {a | a ∈ as} → (as.map f).eraseDups = as.eraseDups.map f
  | [], _ => rfl
  | a :: as, h => by
    have hsub : Set.InjOn f {b | b ∈ as.filter fun b => !b == a} :=
      h.mono fun b hb => List.mem_cons_of_mem _ (List.mem_filter.mp hb).1
    have hfilter : as.filter ((fun b => !b == f a) ∘ f) = as.filter fun b => !b == a := by
      refine List.filter_congr fun b hb => ?_
      rw [Function.comp_apply, Bool.eq_iff_iff]
      simp [h.eq_iff (List.mem_cons_of_mem a hb) List.mem_cons_self]
    rw [List.map_cons, List.eraseDups_cons, List.eraseDups_cons, List.map_cons, List.filter_map,
      hfilter, eraseDups_map_of_injOn hsub]
termination_by as => as.length
decreasing_by exact Nat.lt_succ_of_le (List.length_filter_le _ _)

/-! ### Which element stands first -/

section First

variable {as : List α} {a b d : α}

/-- One of two different elements stands before the other. -/
theorem pair_sublist_or (ha : a ∈ as) (hb : b ∈ as) (hne : a ≠ b) :
    [a, b].Sublist as ∨ [b, a].Sublist as := by
  induction as with
  | nil => cases ha
  | cons x as ih =>
    rcases List.mem_cons.mp ha with rfl | ha'
    · have hb' : b ∈ as := (List.mem_cons.mp hb).resolve_left hne.symm
      exact .inl ((List.singleton_sublist.mpr hb').cons_cons a)
    · rcases List.mem_cons.mp hb with rfl | hb'
      · exact .inr ((List.singleton_sublist.mpr ha').cons_cons b)
      · exact (ih ha' hb').imp (.cons x) (.cons x)

/-- Without repetitions, what stands before an element stands before all that come after it. -/
theorem pair_sublist_trans (hn : as.Nodup) (hab : [a, b].Sublist as) (hbd : [b, d].Sublist as) :
    [a, d].Sublist as := by
  induction as with
  | nil => cases hab
  | cons x as ih =>
    obtain ⟨hx, hn⟩ := List.nodup_cons.mp hn
    cases hbd with
    | cons_cons _ hd =>
      -- the second element is the head, and nothing stands before the head
      cases hab with
      | cons _ hab => exact absurd (hab.subset (.tail _ (.head _))) hx
      | cons_cons _ hb => exact absurd (List.singleton_sublist.mp hb) hx
    | cons _ hbd =>
      cases hab with
      | cons _ hab => exact (ih hn hab hbd).cons x
      | cons_cons _ hb =>
        exact (List.singleton_sublist.mpr (hbd.subset (.tail _ (.head _)))).cons_cons a

end First

theorem find?_eq_some_of_nodup_map {κ : Type} [DecidableEq κ] {key : α → κ} {as : List α} {a : α}
    (h : (as.map key).Nodup) (ha : a ∈ as) : (as.find? fun b => key b = key a) = some a := by
  obtain ⟨b, hb⟩ : ∃ b, (as.find? fun b => key b = key a) = some b :=
    Option.isSome_iff_exists.mp (List.find?_isSome.mpr ⟨a, ha, by simp⟩)
  have hkey : key b = key a := by simpa using List.find?_some hb
  rw [hb, List.inj_on_of_nodup_map h (List.mem_of_find?_eq_some hb) ha hkey]

end SchemaCatalog
