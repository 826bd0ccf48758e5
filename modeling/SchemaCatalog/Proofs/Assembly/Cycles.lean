import Mathlib.Data.List.Perm.Subperm
import Mathlib.Logic.Relation
import SchemaCatalog.Proofs.Assembly.DependencyOrder
import SchemaCatalog.Proofs.Registry.Lookup

/-!
# Structs that need each other

A struct needs another one of a list when one of its fields mentions it (`Needs`). The search for an
order of dependencies fails only at a struct that is under way: each struct on the path to it needs
the next one (`UnderWay`), so that the struct needs itself by way of others
(`exists_cycle_of_visit`). A path without repetitions is no longer than the list, so the bound on
its length is never what ends a search (`visit_eq_of_lt`). In an order that is found every struct
comes after the ones that it needs (`pair_sublist_of_needs`), which no cycle allows. So there is an
order exactly when no struct needs itself by way of others (`dependencyOrder_iff_acyclic`).
-/

namespace SchemaCatalog

open Relation (TransGen)

/-- A struct **needs** another one of a list when the type of one of its fields mentions it, at
whatever depth. -/
def Needs (structs : List Struct) (s t : Struct) : Prop :=
  s ∈ structs ∧ t ∈ structs ∧ s ≠ t ∧ ∃ f ∈ s.fields, f.type.Mentions t.name

variable {structs listed : List Struct} {path : List String} {s t : Struct} {depth : Nat}

theorem Struct.mem_mentions_iff {name : String} :
    name ∈ s.mentions ↔ ∃ f ∈ s.fields, f.type.Mentions name := by
  rw [Struct.mentions, List.mem_flatMap]
  simp only [NativeType.mentions_iff]

/-! ### The path of a search -/

theorem visit_succ :
    s.visit structs (depth + 1) path listed =
      if listed.any fun l => l.name = s.name then .ok listed
      else if path.contains s.name then .error (.circular s.name)
      else (s.mentions.foldlM (s.visitMention structs depth path) listed).map (· ++ [s]) :=
  rfl

/-- The step for a name that a struct mentions does nothing, or visits a struct that is needed. -/
theorem visitMention_cases (hs : s ∈ structs) {name : String} (hname : name ∈ s.mentions) :
    (∀ depth listed, s.visitMention structs depth path listed name = .ok listed) ∨
      ∃ t, Needs structs s t ∧ ∀ depth listed, s.visitMention structs depth path listed name =
        t.visit structs depth (s.name :: path) listed := by
  unfold Struct.visitMention
  by_cases hself : name = s.name
  · exact .inl fun _ _ => if_pos hself
  · cases hfind : structs.find? fun t => t.name = name with
    | none => exact .inl fun _ _ => if_neg hself
    | some t =>
      obtain rfl : t.name = name := by simpa using List.find?_some hfind
      have hne : s ≠ t := fun h => hself (h ▸ rfl)
      exact .inr ⟨t, ⟨hs, List.mem_of_find?_eq_some hfind, hne, Struct.mem_mentions_iff.mp hname⟩,
        fun _ _ => if_neg hself⟩

/-- A struct is **under way** at the end of a path when the path leads to it along needs and repeats
no name. -/
structure UnderWay (structs : List Struct) (path : List String) (s : Struct) : Prop where
  /-- The struct is one of the list. -/
  mem : s ∈ structs
  /-- No struct is on the path twice. -/
  nodup : path.Nodup
  /-- Each struct on the path needs this one, perhaps by way of others. -/
  needs : ∀ name ∈ path, ∃ t ∈ structs, t.name = name ∧ TransGen (Needs structs) t s

namespace UnderWay

theorem start (hs : s ∈ structs) : UnderWay structs [] s := ⟨hs, List.nodup_nil, nofun⟩

/-- A struct that is not on the path leads on to what it needs. -/
theorem step (h : UnderWay structs path s) (hpath : s.name ∉ path) (hneeds : Needs structs s t) :
    UnderWay structs (s.name :: path) t where
  mem := hneeds.2.1
  nodup := List.nodup_cons.mpr ⟨hpath, h.nodup⟩
  needs name hname := by
    rcases List.mem_cons.mp hname with rfl | hname
    · exact ⟨s, h.mem, rfl, .single hneeds⟩
    · obtain ⟨u, hu, hu_name, hus⟩ := h.needs name hname
      exact ⟨u, hu, hu_name, hus.tail hneeds⟩

/-- The path is no longer than the list. -/
theorem length_le (h : UnderWay structs path s) : path.length ≤ structs.length := by
  have hsub : path ⊆ structs.map Struct.name := fun name hname => by
    obtain ⟨u, hu, hu_name, -⟩ := h.needs name hname
    exact List.mem_map.mpr ⟨u, hu, hu_name⟩
  simpa using (h.nodup.subperm hsub).length_le

end UnderWay

/-- **The bound on the length of the path is not met**: greater bounds make no difference. -/
theorem visit_eq_of_lt {depth' : Nat} (h : UnderWay structs path s)
    (hdepth : structs.length < path.length + depth)
    (hdepth' : structs.length < path.length + depth') :
    s.visit structs depth path listed = s.visit structs depth' path listed := by
  induction depth generalizing depth' path s listed with
  | zero => exact absurd h.length_le (by omega)
  | succ depth ih =>
    cases depth' with
    | zero => exact absurd h.length_le (by omega)
    | succ depth' =>
      rw [visit_succ, visit_succ]
      by_cases hpath : path.contains s.name
      · rw [if_pos hpath, if_pos hpath]
      · have hmentions : s.mentions.foldlM (s.visitMention structs depth path) listed =
            s.mentions.foldlM (s.visitMention structs depth' path) listed := by
          refine foldlM_congr (fun name hname next => ?_) listed
          rcases visitMention_cases h.mem hname with hskip | ⟨t, hneeds, hvisit⟩
          · rw [hskip, hskip]
          · rw [hvisit, hvisit]
            refine ih (h.step (by simpa using hpath) hneeds) ?_ ?_ <;>
              simp only [List.length_cons] <;> omega
        rw [hmentions]

/-- **A visit fails only at a cycle**: the error names a struct that needs itself, by way of
others. -/
theorem exists_cycle_of_visit (hn : (structs.map Struct.name).Nodup) (h : UnderWay structs path s)
    (hdepth : structs.length < path.length + depth) {e : ConvertError}
    (he : s.visit structs depth path listed = .error e) :
    ∃ t, e = .circular t.name ∧ TransGen (Needs structs) t t := by
  induction depth generalizing path s listed with
  | zero => exact absurd h.length_le (by omega)
  | succ depth ih =>
    rw [visit_succ] at he
    split at he
    · cases he
    · split at he
      · rename_i hpath
        cases he
        -- the struct of this name on the path is this one, and leads to it
        obtain ⟨t, ht, hname, hcycle⟩ := h.needs s.name (by simpa using hpath)
        obtain rfl : t = s := List.inj_on_of_nodup_map hn ht h.mem hname
        exact ⟨t, rfl, hcycle⟩
      · rename_i hpath
        obtain ⟨name, hname, next, he⟩ := exists_of_foldlM_eq_error (map_eq_error_iff.mp he)
        rcases visitMention_cases h.mem hname with hskip | ⟨t, hneeds, hvisit⟩
        · cases (hskip depth next).symm.trans he
        · rw [hvisit] at he
          exact ih (h.step (by simpa using hpath) hneeds)
            (by simp only [List.length_cons]; omega) he

/-! ### Orders and cycles -/

/-- In an order that is found a struct comes after the ones that it needs. -/
theorem pair_sublist_of_needs (hn : (structs.map Struct.name).Nodup)
    (h : dependencyOrder structs = .ok listed) (hneeds : Needs structs s t) :
    [t, s].Sublist listed := by
  obtain ⟨hs, ht, hne, hmention⟩ := hneeds
  have hperm := perm_dependencyOrder hn h
  rcases pair_sublist_or (hperm.mem_iff.mpr ht) (hperm.mem_iff.mpr hs) hne.symm with hts | hst
  · exact hts
  · have hnot := List.pairwise_iff_forall_sublist.mp (pairwise_dependencyOrder h) hst
    exact absurd (Struct.mem_mentions_iff.mpr hmention) hnot

/-- Where an order is found no struct needs itself by way of others. -/
theorem not_transGen_needs_self (hn : (structs.map Struct.name).Nodup)
    (h : dependencyOrder structs = .ok listed) (s : Struct) : ¬ TransGen (Needs structs) s s := by
  have hnodup : listed.Nodup :=
    (perm_dependencyOrder hn h).nodup_iff.mpr (hn.of_map Struct.name)
  -- along needs, what comes later in the order leads to what comes earlier
  have hbefore : ∀ {t}, TransGen (Needs structs) s t → [t, s].Sublist listed := by
    intro t ht
    induction ht with
    | single hneeds => exact pair_sublist_of_needs hn h hneeds
    | tail _ hneeds ih => exact pair_sublist_trans hnodup (pair_sublist_of_needs hn h hneeds) ih
  exact fun hcycle => List.nodup_iff_sublist.mp hnodup s (hbefore hcycle)

/-- **There is an order exactly when there is no cycle.** For structs of distinct names: the search
does not depend on the bound on the length of the path; it finds an order exactly when no struct
needs itself by way of others; the order lists the given structs, each after the ones that it needs;
and otherwise the error names a struct on a cycle. -/
theorem dependencyOrder_iff_acyclic (hn : (structs.map Struct.name).Nodup) :
    (∀ depth, structs.length < depth →
      structs.foldlM (fun listed s => s.visit structs depth [] listed) [] =
        dependencyOrder structs) ∧
    ((∃ listed, dependencyOrder structs = .ok listed) ↔
      ∀ s, ¬ TransGen (Needs structs) s s) ∧
    (∀ listed, dependencyOrder structs = .ok listed →
      listed.Perm structs ∧ ∀ s t, Needs structs s t → [t, s].Sublist listed) ∧
    ∀ e, dependencyOrder structs = .error e →
      ∃ s, e = .circular s.name ∧ TransGen (Needs structs) s s := by
  have herror : ∀ e, dependencyOrder structs = .error e →
      ∃ s, e = .circular s.name ∧ TransGen (Needs structs) s s := by
    intro e he
    obtain ⟨s, hs, listed, he⟩ := exists_of_foldlM_eq_error he
    exact exists_cycle_of_visit hn (.start hs) (by simp) he
  refine ⟨fun depth hdepth => ?_, ⟨?_, fun hacyclic => ?_⟩, fun listed h => ?_, herror⟩
  · exact foldlM_congr (fun s hs listed =>
      visit_eq_of_lt (.start hs) (by simpa using hdepth) (by simp)) []
  · rintro ⟨listed, h⟩
    exact not_transGen_needs_self hn h
  · cases h : dependencyOrder structs with
    | ok listed => exact ⟨listed, rfl⟩
    | error e =>
      obtain ⟨s, -, hcycle⟩ := herror e h
      exact absurd hcycle (hacyclic s)
  · exact ⟨perm_dependencyOrder hn h, fun s t => pair_sublist_of_needs hn h⟩

/-! ### A manuscript -/

namespace Manuscript

/-- Notes have a text. -/
def note : Struct where
  name := "Note"
  moduleName := "app"
  fields := [{ name := "text", type := .primitive .string }]

/-- Chapters consist of chapters, and may have notes. -/
def chapter : Struct where
  name := "Chapter"
  moduleName := "app"
  fields :=
    [{ name := "parts", type := .list (.forward "Chapter") },
      { name := "notes", type := .union [.ref "Note", .primitive .string] }]

/-- Papers have chapters and a note. -/
def paper : Struct where
  name := "Paper"
  moduleName := "app"
  fields :=
    [{ name := "chapters", type := .list (.ref "Chapter") },
      { name := "note", type := .annotated (.ref "Note") [] }]

/-- Reviews have replies. -/
def review : Struct where
  name := "Review"
  moduleName := "app"
  fields := [{ name := "replies", type := .list (.ref "Reply") }]

/-- Replies belong to a review. -/
def reply : Struct where
  name := "Reply"
  moduleName := "app"
  fields := [{ name := "review", type := .forward "Review" }]

end Manuscript

open Manuscript

/-- Papers come after chapters, and these after notes, although chapters mention themselves; reviews
and replies need each other. -/
theorem dependencyOrder_iff_acyclic_manuscript :
    ([paper, chapter, note].map Struct.name).Nodup ∧
      dependencyOrder [paper, chapter, note] = .ok [note, chapter, paper] ∧
      (∀ s, ¬ TransGen (Needs [paper, chapter, note]) s s) ∧
      [note, paper].Sublist [note, chapter, paper] ∧
      ([paper, review, reply].map Struct.name).Nodup ∧
      ∃ s, dependencyOrder [paper, review, reply] = .error (.circular s.name) ∧
        TransGen (Needs [paper, review, reply]) s s := by
  have hn : ([paper, chapter, note].map Struct.name).Nodup := by decide
  have hn' : ([paper, review, reply].map Struct.name).Nodup := by decide
  have horder : dependencyOrder [paper, chapter, note] = .ok [note, chapter, paper] := by rfl
  have hneeds : Needs [paper, chapter, note] paper note := by
    have hne : paper ≠ note := fun h => absurd (congrArg Struct.name h) (by decide)
    exact ⟨by simp, by simp, hne, _, List.mem_cons_of_mem _ List.mem_cons_self, .annotated .ref⟩
  obtain ⟨-, hacyclic, hsorted, -⟩ := dependencyOrder_iff_acyclic hn
  obtain ⟨-, -, -, hcycle⟩ := dependencyOrder_iff_acyclic hn'
  have herror : (dependencyOrder [paper, review, reply]).toOption.isNone = true := by rfl
  obtain ⟨e, he⟩ := exists_eq_error_of_toOption (Option.isNone_iff_eq_none.mp herror)
  obtain ⟨s, rfl, hs⟩ := hcycle e he
  exact ⟨hn, horder, hacyclic.mp ⟨_, horder⟩, (hsorted _ horder).2 _ _ hneeds, hn', s, he, hs⟩

end SchemaCatalog
