import Mathlib.Data.List.Nodup
import Mathlib.Data.List.Perm.Basic
import SchemaCatalog.Assembly.DependencyOrder
import SchemaCatalog.Proofs.Result

/-!
# Structs in the order of their dependencies

A visit only adds structs at the end of what is listed, and none whose name stands on the path
from the start of the search (`Grown`). So a visit that comes to an end has listed the struct
once (`grown_visit`), and a whole search lists every struct of the given ones exactly once
(`perm_dependencyOrder`). What a listed struct mentions is listed too, and not after it (`Settled`):
so a struct stands before another only if it does not mention it (`pairwise_dependencyOrder`).
-/

namespace SchemaCatalog

variable {structs listed listed' : List Struct} {path : List String} {s : Struct}

/-! ### What a visit does -/

/-- The step of a visit for a name that the struct mentions: the struct of that name is visited
below this one, unless it is this one. -/
def Struct.visitMention (structs : List Struct) (depth : Nat) (path : List String) (s : Struct)
    (listed : List Struct) (name : String) : Except ConvertError (List Struct) :=
  if name = s.name then .ok listed
  else
    match structs.find? fun t => t.name = name with
    | some t => t.visit structs depth (s.name :: path) listed
    | none => .ok listed

/-- **A visit that succeeds** finds the struct listed, or lists it after visiting what it
mentions. -/
theorem visit_eq_ok {depth : Nat} (h : s.visit structs depth path listed = .ok listed') :
    (∃ l ∈ listed, l.name = s.name) ∧ listed' = listed ∨
      ∃ d next, depth = d + 1 ∧ (∀ l ∈ listed, l.name ≠ s.name) ∧ s.name ∉ path ∧
        s.mentions.foldlM (s.visitMention structs d path) listed = .ok next ∧
        listed' = next ++ [s] := by
  cases depth with
  | zero => cases h
  | succ d =>
    unfold Struct.visit at h
    split at h
    · rename_i hany
      cases h
      exact Or.inl ⟨by simpa using hany, rfl⟩
    · rename_i hany
      split at h
      · cases h
      · rename_i hpath
        obtain ⟨next, hnext, rfl⟩ := map_eq_ok_iff.mp h
        exact Or.inr ⟨d, next, rfl, by simpa using hany, by simpa using hpath, hnext, rfl⟩

/-- The step for a mentioned name visits a struct of that name, or does nothing because the name
is that of the struct itself or of none. -/
theorem visitMention_eq_ok {depth : Nat} {name : String}
    (h : s.visitMention structs depth path listed name = .ok listed') :
    (name = s.name ∨ ∀ t ∈ structs, t.name ≠ name) ∧ listed' = listed ∨
      ∃ t ∈ structs, t.name = name ∧
        t.visit structs depth (s.name :: path) listed = .ok listed' := by
  unfold Struct.visitMention at h
  split at h
  · cases h
    exact Or.inl ⟨Or.inl ‹_›, rfl⟩
  · split at h
    · rename_i t ht
      exact Or.inr ⟨t, List.mem_of_find?_eq_some ht, by simpa using List.find?_some ht, h⟩
    · rename_i hnone
      cases h
      exact Or.inl ⟨Or.inr (by simpa using hnone), rfl⟩

/-! ### Every struct once -/

/-- What a visit below a path does to the list: it **grows** by structs of the given ones, none
of them on the path and none twice. -/
structure Grown (structs : List Struct) (path : List String) (listed listed' : List Struct) :
    Prop where
  /-- What was listed stays in its place. -/
  isPrefix : listed <+: listed'
  /-- What is added is one of the structs, and not under way. -/
  mem : ∀ t ∈ listed', t ∈ listed ∨ t ∈ structs ∧ t.name ∉ path
  /-- No struct is added twice. -/
  nodup : (listed.map Struct.name).Nodup → (listed'.map Struct.name).Nodup

namespace Grown

theorem refl (structs : List Struct) (path : List String) (listed : List Struct) :
    Grown structs path listed listed :=
  ⟨List.prefix_refl _, fun _ ht => Or.inl ht, id⟩

theorem trans {next : List Struct} (h : Grown structs path listed listed')
    (h' : Grown structs path listed' next) : Grown structs path listed next where
  isPrefix := h.isPrefix.trans h'.isPrefix
  mem t ht := (h'.mem t ht).elim (h.mem t) Or.inr
  nodup := h'.nodup ∘ h.nodup

/-- After all that a struct mentions, the struct itself is added. -/
theorem snoc (h : Grown structs (s.name :: path) listed listed') (hs : s ∈ structs)
    (hpath : s.name ∉ path) (hlisted : ∀ l ∈ listed, l.name ≠ s.name) :
    Grown structs path listed (listed' ++ [s]) where
  isPrefix := h.isPrefix.trans (List.prefix_append ..)
  mem t ht := by
    rcases List.mem_append.mp ht with ht | ht
    · exact (h.mem t ht).imp_right fun ⟨hmem, hnot⟩ => ⟨hmem, fun hp => hnot (.tail _ hp)⟩
    · rw [List.mem_singleton.mp ht]
      exact Or.inr ⟨hs, hpath⟩
  nodup hn := by
    rw [List.map_append, List.map_singleton, ← List.concat_eq_append]
    refine (h.nodup hn).concat fun hmem => ?_
    obtain ⟨t, ht, hname⟩ := List.mem_map.mp hmem
    rcases h.mem t ht with ht | ⟨-, hnot⟩
    · exact hlisted t ht hname
    · exact hnot (hname ▸ List.mem_cons_self)

end Grown

/-- **A visit** of a struct lists it, after adding other structs. -/
theorem grown_visit {depth : Nat} (hs : s ∈ structs)
    (h : s.visit structs depth path listed = .ok listed') :
    Grown structs path listed listed' ∧ ∃ l ∈ listed', l.name = s.name := by
  induction depth generalizing path s listed listed' with
  | zero => cases h
  | succ depth ih =>
    rcases visit_eq_ok h with ⟨hmem, rfl⟩ | ⟨d, next, hd, hlisted, hpath, hnext, rfl⟩
    · exact ⟨.refl .., hmem⟩
    · cases hd
      -- each mentioned name is visited below the path that ends in this struct
      have hgrown : Grown structs (s.name :: path) listed next := by
        refine foldlM_induction (I := fun _ next => Grown structs (s.name :: path) listed next)
          (fun name rest b b' hb hstep => ?_) (.refl ..) hnext
        rcases visitMention_eq_ok hstep with ⟨-, rfl⟩ | ⟨t, ht, -, hvisit⟩
        · exact hb
        · exact hb.trans (ih ht hvisit).1
      exact ⟨hgrown.snoc hs hpath hlisted, s, by simp, rfl⟩

/-- **A search** lists each of the structs exactly once. -/
theorem perm_dependencyOrder (hn : (structs.map Struct.name).Nodup)
    (h : dependencyOrder structs = .ok listed) : listed.Perm structs := by
  obtain ⟨hgrown, hcovers⟩ : Grown structs [] [] listed ∧
      ∀ s ∈ structs, s ∈ [] ∨ ∃ l ∈ listed, l.name = s.name := by
    -- each struct is still to be visited or has been listed
    refine foldlM_induction (I := fun rest next => rest ⊆ structs ∧ Grown structs [] [] next ∧
      ∀ s ∈ structs, s ∈ rest ∨ ∃ l ∈ next, l.name = s.name)
      (fun s rest b b' ⟨hrest, hb, hcovers⟩ hstep => ?_)
      ⟨List.Subset.refl _, .refl .., fun s hs => Or.inl hs⟩ h |>.2
    obtain ⟨hs, hrest⟩ := List.cons_subset.mp hrest
    obtain ⟨hvisit, hlisted⟩ := grown_visit hs hstep
    refine ⟨hrest, hb.trans hvisit, fun t ht => ?_⟩
    rcases hcovers t ht with hmem | ⟨l, hl, hname⟩
    · rcases List.mem_cons.mp hmem with rfl | hmem
      · exact Or.inr hlisted
      · exact Or.inl hmem
    · exact Or.inr ⟨l, hvisit.isPrefix.subset hl, hname⟩
  have hmem : ∀ t ∈ listed, t ∈ structs := fun t ht => ((hgrown.mem t ht).resolve_left nofun).1
  have hnodup : (listed.map Struct.name).Nodup := hgrown.nodup List.nodup_nil
  refine (List.perm_ext_iff_of_nodup hnodup.of_map hn.of_map).mpr fun t => ⟨hmem t, fun ht => ?_⟩
  obtain ⟨l, hl, hname⟩ := (hcovers t ht).resolve_left nofun
  exact List.inj_on_of_nodup_map hn (hmem l hl) ht hname ▸ hl

/-! ### Dependencies first -/

/-- What is listed is **settled**: all structs that listed ones mention are listed, and none of
them after one that mentions it. -/
structure Settled (structs listed : List Struct) : Prop where
  /-- What a listed struct mentions is listed. -/
  closed : ∀ l ∈ listed, ∀ t ∈ structs, t.name ∈ l.mentions → ∃ l' ∈ listed, l'.name = t.name
  /-- No struct stands before one that it mentions. -/
  pairwise : listed.Pairwise fun a b => b.name ∉ a.mentions

namespace Settled

theorem nil (structs : List Struct) : Settled structs [] := ⟨nofun, .nil⟩

/-- A struct is added once all others that it mentions are listed. -/
theorem snoc (h : Settled structs listed) (hs : s ∈ structs)
    (hlisted : ∀ l ∈ listed, l.name ≠ s.name)
    (hmentions : ∀ t ∈ structs, t.name ∈ s.mentions → t.name = s.name ∨
      ∃ l ∈ listed, l.name = t.name) : Settled structs (listed ++ [s]) where
  closed l hl t ht hmention := by
    rcases List.mem_append.mp hl with hl | hl
    · obtain ⟨l', hl', hname⟩ := h.closed l hl t ht hmention
      exact ⟨l', List.mem_append_left _ hl', hname⟩
    · rw [List.mem_singleton.mp hl] at hmention
      rcases hmentions t ht hmention with hself | ⟨l', hl', hname⟩
      · exact ⟨s, by simp, hself.symm⟩
      · exact ⟨l', List.mem_append_left _ hl', hname⟩
  pairwise := by
    refine List.pairwise_append.mpr ⟨h.pairwise, List.pairwise_singleton _ _, ?_⟩
    intro l hl s' hs' hmention
    rw [List.mem_singleton.mp hs'] at hmention
    -- a listed struct that mentioned this one would have had it listed already
    obtain ⟨l', hl', hname⟩ := h.closed l hl s hs hmention
    exact hlisted l' hl' hname

end Settled

/-- **A visit settles** what it lists. -/
theorem settled_visit {depth : Nat} (hs : s ∈ structs)
    (h : s.visit structs depth path listed = .ok listed') (hlisted : Settled structs listed) :
    Settled structs listed' := by
  induction depth generalizing path s listed listed' with
  | zero => cases h
  | succ depth ih =>
    rcases visit_eq_ok h with ⟨-, rfl⟩ | ⟨d, next, hd, hnew, -, hnext, rfl⟩
    · exact hlisted
    · cases hd
      -- a struct that is mentioned is to be visited, or is this one, or has been listed
      obtain ⟨hnext_settled, hgrown, hdone⟩ : Settled structs next ∧
          Grown structs (s.name :: path) listed next ∧ ∀ t ∈ structs, t.name ∈ s.mentions →
            t.name ∈ [] ∨ t.name = s.name ∨ ∃ l ∈ next, l.name = t.name := by
        refine foldlM_induction (I := fun rest next => Settled structs next ∧
          Grown structs (s.name :: path) listed next ∧ ∀ t ∈ structs, t.name ∈ s.mentions →
            t.name ∈ rest ∨ t.name = s.name ∨ ∃ l ∈ next, l.name = t.name)
          (fun name rest b b' ⟨hb, hgrown, hdone⟩ hstep => ?_)
          ⟨hlisted, .refl .., fun t _ ht => Or.inl ht⟩ hnext
        rcases visitMention_eq_ok hstep with ⟨hskip, rfl⟩ | ⟨u, hu, rfl, hvisit⟩
        · refine ⟨hb, hgrown, fun t ht hmention => ?_⟩
          rcases hdone t ht hmention with hrest | hdone
          · rcases List.mem_cons.mp hrest with rfl | hrest
            · exact Or.inr (Or.inl (hskip.resolve_right fun hnone => hnone t ht rfl))
            · exact Or.inl hrest
          · exact Or.inr hdone
        · obtain ⟨hstep_grown, hu_listed⟩ := grown_visit hu hvisit
          refine ⟨ih hu hvisit hb, hgrown.trans hstep_grown, fun t ht hmention => ?_⟩
          rcases hdone t ht hmention with hrest | hself | ⟨l, hl, hname⟩
          · rcases List.mem_cons.mp hrest with hname | hrest
            · exact Or.inr (Or.inr (hname ▸ hu_listed))
            · exact Or.inl hrest
          · exact Or.inr (Or.inl hself)
          · exact Or.inr (Or.inr ⟨l, hstep_grown.isPrefix.subset hl, hname⟩)
      have hnot_listed : ∀ l ∈ next, l.name ≠ s.name := by
        intro l hl hname
        rcases hgrown.mem l hl with hl | ⟨-, hpath⟩
        · exact hnew l hl hname
        · exact hpath (hname ▸ List.mem_cons_self)
      exact hnext_settled.snoc hs hnot_listed
        fun t ht hmention => (hdone t ht hmention).resolve_left nofun

/-- **No struct stands before one that it mentions.** -/
theorem pairwise_dependencyOrder (h : dependencyOrder structs = .ok listed) :
    listed.Pairwise fun a b => b.name ∉ a.mentions := by
  have hsettled : [] ⊆ structs ∧ Settled structs listed :=
    foldlM_induction (I := fun rest next => rest ⊆ structs ∧ Settled structs next)
      (fun s rest b b' ⟨hrest, hb⟩ hstep =>
        ⟨(List.cons_subset.mp hrest).2, settled_visit (List.cons_subset.mp hrest).1 hstep hb⟩)
      ⟨List.Subset.refl _, .nil structs⟩ h
  exact hsettled.2.pairwise

end SchemaCatalog
