import Mathlib.Data.Set.Finite.List
import Mathlib.Order.WellFoundedSet
import SchemaCatalog.Proofs.Assembly.Cycles

/-!
# Which of two structs comes first

A visit that comes to an end has listed just what its struct reaches along needs, besides what was
listed before (`mem_visit_iff`). So where two structs end up in the order of dependencies depends on
the first struct of the list that reaches one of them. If it reaches only one of them, this one
comes first; if it reaches both, the structs that it needs decide in the same way, in the order in
which its fields mention them (`MetFirst`). For structs of which neither reaches the other this
tells exactly which one comes first (`pair_sublist_iff_metFirst`). The order of the list is kept
when no struct before the first one reaches the second; otherwise it need not be.
-/

namespace SchemaCatalog

open Relation (ReflTransGen TransGen)

variable {structs listed listed' final us : List Struct} {path : List String} {s t u : Struct}
  {depth : Nat}

/-! ### What a struct needs, in order -/

/-- The structs of a list that a struct needs, in the order in which its fields mention them. -/
def Struct.needed (structs : List Struct) (s : Struct) : List Struct :=
  s.mentions.filterMap fun name =>
    if name = s.name then none else structs.find? fun t => t.name = name

/-- The list of what a struct needs has all of it, and nothing else. -/
theorem mem_needed_iff (hn : (structs.map Struct.name).Nodup) (hs : s ∈ structs) :
    t ∈ s.needed structs ↔ Needs structs s t := by
  rw [Struct.needed, List.mem_filterMap]
  constructor
  · rintro ⟨name, hname, ht⟩
    split at ht
    · cases ht
    · rename_i hne
      obtain rfl : t.name = name := by simpa using List.find?_some ht
      refine ⟨hs, List.mem_of_find?_eq_some ht, ?_, Struct.mem_mentions_iff.mp hname⟩
      exact fun hst => hne (hst ▸ rfl)
  · rintro ⟨-, ht, hne, hmention⟩
    refine ⟨t.name, Struct.mem_mentions_iff.mpr hmention, ?_⟩
    rw [if_neg fun hname => hne (List.inj_on_of_nodup_map hn hs ht hname.symm)]
    exact find?_eq_some_of_nodup_map hn ht

/-- The names that a struct mentions are visited by visiting what it needs. -/
theorem foldlM_visitMention :
    s.mentions.foldlM (s.visitMention structs depth path) listed =
      (s.needed structs).foldlM
        (fun listed t => t.visit structs depth (s.name :: path) listed) listed := by
  rw [Struct.needed, List.foldlM_filterMap]
  congr 1
  funext listed name
  unfold Struct.visitMention
  split
  · rfl
  · cases structs.find? fun t => t.name = name <;> rfl

/-! ### What a visit lists -/

/-- What is added by a visit is reached from the struct that is visited. -/
theorem mem_or_reaches_of_visit (hn : (structs.map Struct.name).Nodup) (hs : s ∈ structs)
    (h : s.visit structs depth path listed = .ok listed') :
    ∀ t ∈ listed', t ∈ listed ∨ ReflTransGen (Needs structs) s t := by
  induction depth generalizing path s listed listed' with
  | zero => cases h
  | succ depth ih =>
    rcases visit_eq_ok h with ⟨-, rfl⟩ | ⟨d, next, hd, -, -, hnext, rfl⟩
    · exact fun t ht => .inl ht
    · cases hd
      rw [foldlM_visitMention] at hnext
      have hadded : ∀ t ∈ next, t ∈ listed ∨ ReflTransGen (Needs structs) s t := by
        refine (foldlM_induction (I := fun rest next => rest ⊆ s.needed structs ∧
          ∀ t ∈ next, t ∈ listed ∨ ReflTransGen (Needs structs) s t)
          (fun u rest b b' ⟨hrest, hb⟩ hvisit => ?_)
          ⟨List.Subset.refl _, fun t ht => .inl ht⟩ hnext).2
        obtain ⟨hu, hrest⟩ := List.cons_subset.mp hrest
        have hneeds : Needs structs s u := (mem_needed_iff hn hs).mp hu
        refine ⟨hrest, fun t ht => ?_⟩
        rcases ih hneeds.2.1 hvisit t ht with ht | ht
        · exact hb t ht
        · exact .inr (.head hneeds ht)
      intro t ht
      rcases List.mem_append.mp ht with ht | ht
      · exact hadded t ht
      · rw [List.mem_singleton.mp ht]
        exact .inr .refl

/-- What a listed struct reaches is listed. -/
theorem Settled.mem_of_reaches (h : Settled structs listed) (hsub : listed ⊆ structs)
    (hn : (structs.map Struct.name).Nodup) (hs : s ∈ listed)
    (hreaches : ReflTransGen (Needs structs) s t) : t ∈ listed := by
  induction hreaches with
  | refl => exact hs
  | tail _ hneeds ih =>
    obtain ⟨-, ht, -, hmention⟩ := hneeds
    obtain ⟨l, hl, hname⟩ := h.closed _ ih _ ht (Struct.mem_mentions_iff.mpr hmention)
    exact List.inj_on_of_nodup_map hn (hsub hl) ht hname ▸ hl

/-- A list of structs that is **complete** holds some of the given ones, and all that these need,
none of it after them. -/
structure Complete (structs listed : List Struct) : Prop extends Settled structs listed where
  /-- Only the given structs are listed. -/
  subset : listed ⊆ structs

theorem Complete.nil (structs : List Struct) : Complete structs [] :=
  ⟨.nil structs, List.nil_subset _⟩

/-- **What a visit lists** is what was listed before and what the struct reaches. -/
theorem mem_visit_iff (hn : (structs.map Struct.name).Nodup) (hs : s ∈ structs)
    (hlisted : Complete structs listed) (h : s.visit structs depth path listed = .ok listed') :
    Complete structs listed' ∧
      ∀ t, t ∈ listed' ↔ t ∈ listed ∨ ReflTransGen (Needs structs) s t := by
  obtain ⟨hgrown, l, hl, hname⟩ := grown_visit hs h
  have hsub : listed' ⊆ structs :=
    fun t ht => (hgrown.mem t ht).elim (fun ht => hlisted.subset ht) And.left
  have hcomplete : Complete structs listed' := ⟨settled_visit hs h hlisted.toSettled, hsub⟩
  refine ⟨hcomplete, fun t => ⟨mem_or_reaches_of_visit hn hs h t, ?_⟩⟩
  rintro (ht | hreaches)
  · exact hgrown.isPrefix.subset ht
  · have hmem : s ∈ listed' := List.inj_on_of_nodup_map hn (hsub hl) hs hname ▸ hl
    exact hcomplete.mem_of_reaches hsub hn hmem hreaches

/-- What is listed when structs are visited one after the other stays in its place. -/
theorem prefix_of_visits (hus : us ⊆ structs)
    (h : us.foldlM (fun listed u => u.visit structs depth path listed) listed = .ok final) :
    listed <+: final := by
  refine (foldlM_induction (I := fun rest next => rest ⊆ structs ∧ listed <+: next)
    (fun u rest b b' ⟨hrest, hb⟩ hvisit => ?_) ⟨hus, List.prefix_refl _⟩ h).2
  obtain ⟨hu, hrest⟩ := List.cons_subset.mp hrest
  exact ⟨hrest, hb.trans (grown_visit hu hvisit).1.isPrefix⟩

/-- Visiting structs one after the other begins with a visit of the first one. -/
theorem exists_visit_of_visits (hn : (structs.map Struct.name).Nodup) (hus : u :: us ⊆ structs)
    (hlisted : Complete structs listed)
    (h : (u :: us).foldlM (fun listed u => u.visit structs depth path listed) listed = .ok final) :
    ∃ next, u.visit structs depth path listed = .ok next ∧
      us.foldlM (fun listed u => u.visit structs depth path listed) next = .ok final ∧
      Complete structs next ∧ (∀ t, t ∈ next ↔ t ∈ listed ∨ ReflTransGen (Needs structs) u t) ∧
        next <+: final := by
  rw [List.foldlM_cons] at h
  obtain ⟨next, hnext, h⟩ := bind_eq_ok_iff.mp h
  obtain ⟨hu, hus⟩ := List.cons_subset.mp hus
  obtain ⟨hcomplete, hmem⟩ := mem_visit_iff hn hu hlisted hnext
  exact ⟨next, hnext, h, hcomplete, hmem, prefix_of_visits hus h⟩

/-! ### Which struct is met first -/

/-- Of two structs the first is **met first** from some structs when, of these, the first one that
reaches one of the two reaches only this one, or it reaches both and this one is met first from what
it needs. -/
inductive MetFirst (structs : List Struct) (s t : Struct) : List Struct → Prop
  /-- A struct is reached that does not reach the other one. -/
  | only {u : Struct} {us : List Struct} : ReflTransGen (Needs structs) u s →
    ¬ ReflTransGen (Needs structs) u t → MetFirst structs s t (u :: us)
  /-- Both are reached, and what is needed decides. -/
  | both {u : Struct} {us : List Struct} : ReflTransGen (Needs structs) u s →
    ReflTransGen (Needs structs) u t → MetFirst structs s t (u.needed structs) →
      MetFirst structs s t (u :: us)
  /-- Neither is reached, and the structs that follow decide. -/
  | neither {u : Struct} {us : List Struct} : ¬ ReflTransGen (Needs structs) u s →
    ¬ ReflTransGen (Needs structs) u t → MetFirst structs s t us → MetFirst structs s t (u :: us)

/-- A struct is met first from a list in which no struct before it reaches the other one. -/
theorem metFirst_of_not_reaches (hs : s ∈ us) (hst : ¬ ReflTransGen (Needs structs) s t)
    (hbefore : ∀ u, [u, s].Sublist us → ¬ ReflTransGen (Needs structs) u t) :
    MetFirst structs s t us := by
  induction us with
  | nil => cases hs
  | cons u us ih =>
    rcases List.mem_cons.mp hs with rfl | hs
    · exact .only .refl hst
    · have hut : ¬ ReflTransGen (Needs structs) u t :=
        hbefore u ((List.singleton_sublist.mpr hs).cons_cons u)
      by_cases hus : ReflTransGen (Needs structs) u s
      · exact .only hus hut
      · exact .neither hus hut (ih hs fun v hv => hbefore v (hv.cons u))

/-- One of two structs is met first if one of them is reached at all, and if one is met first from
what is needed by a struct that reaches both. -/
theorem metFirst_or_of_exists
    (hbelow : ∀ u ∈ us, ReflTransGen (Needs structs) u s → ReflTransGen (Needs structs) u t →
      MetFirst structs s t (u.needed structs) ∨ MetFirst structs t s (u.needed structs))
    (hreaches : ∃ u ∈ us, ReflTransGen (Needs structs) u s ∨ ReflTransGen (Needs structs) u t) :
    MetFirst structs s t us ∨ MetFirst structs t s us := by
  induction us with
  | nil =>
    obtain ⟨u, hu, -⟩ := hreaches
    cases hu
  | cons u us ih =>
    by_cases hus : ReflTransGen (Needs structs) u s
    · by_cases hut : ReflTransGen (Needs structs) u t
      · exact (hbelow u (.head _) hus hut).imp (.both hus hut) (.both hut hus)
      · exact .inl (.only hus hut)
    · by_cases hut : ReflTransGen (Needs structs) u t
      · exact .inr (.only hut hus)
      · have hrest : ∃ u ∈ us,
            ReflTransGen (Needs structs) u s ∨ ReflTransGen (Needs structs) u t := by
          obtain ⟨v, hv, hreaches⟩ := hreaches
          rcases List.mem_cons.mp hv with rfl | hv
          · exact absurd hreaches (not_or.mpr ⟨hus, hut⟩)
          · exact ⟨v, hv, hreaches⟩
        have hone := ih (fun v hv => hbelow v (.tail _ hv)) hrest
        exact hone.imp (.neither hus hut) (.neither hut hus)

/-- Without cycles needs come to an end. -/
theorem wellFounded_needs (hacyclic : ∀ s, ¬ TransGen (Needs structs) s s) :
    WellFounded fun t s => Needs structs s t := by
  let below : Struct → Struct → Prop := fun t s => TransGen (Needs structs) s t
  have : IsStrictOrder Struct below :=
    { irrefl := hacyclic, trans := fun _ _ _ hab hbc => hbc.trans hab }
  have hfinite : {s | s ∈ structs}.WellFoundedOn below := (List.finite_toSet structs).wellFoundedOn
  refine (Set.wellFoundedOn_iff.mp hfinite).mono fun t s hneeds => ?_
  exact ⟨.single hneeds, hneeds.2.1, hneeds.1⟩

/-- A struct that reaches two others, of which the first does not reach the second, needs structs
from which one of the two is met first. -/
theorem metFirst_needed_or (hn : (structs.map Struct.name).Nodup)
    (hacyclic : ∀ s, ¬ TransGen (Needs structs) s s) (hst : ¬ ReflTransGen (Needs structs) s t)
    (u : Struct) (hus : ReflTransGen (Needs structs) u s) (hut : ReflTransGen (Needs structs) u t) :
    MetFirst structs s t (u.needed structs) ∨ MetFirst structs t s (u.needed structs) := by
  induction u using (wellFounded_needs hacyclic).induction with
  | _ u ih =>
    obtain rfl | ⟨v, hneeds, hvs⟩ := hus.cases_head
    · exact absurd hut hst
    · have hneeded : ∀ {w}, w ∈ u.needed structs ↔ Needs structs u w := mem_needed_iff hn hneeds.1
      exact metFirst_or_of_exists (fun w hw => ih w (hneeded.mp hw))
        ⟨v, hneeded.mpr hneeds, .inl hvs⟩

/-- **What is met first is listed first.** -/
theorem pair_sublist_of_metFirst (hn : (structs.map Struct.name).Nodup)
    (hts : ¬ ReflTransGen (Needs structs) t s) (hmet : MetFirst structs s t us)
    (hus : us ⊆ structs) (hlisted : Complete structs listed) (hs : s ∉ listed) (ht : t ∉ listed)
    (h : us.foldlM (fun listed u => u.visit structs depth path listed) listed = .ok final)
    (hfinal : t ∈ final) : [s, t].Sublist final := by
  induction hmet generalizing depth path listed final with
  | @only u us hus_s hus_t =>
    obtain ⟨next, -, -, -, hmem, rest, rfl⟩ := exists_visit_of_visits hn hus hlisted h
    -- the first struct is listed by now, and the second comes later
    have hsnext : s ∈ next := (hmem s).mpr (.inr hus_s)
    have htnext : t ∉ next := fun ht' => ((hmem t).mp ht').elim ht hus_t
    have htrest : t ∈ rest := (List.mem_append.mp hfinal).resolve_left htnext
    exact (List.singleton_sublist.mpr hsnext).append (List.singleton_sublist.mpr htrest)
  | @both u us hus_s hus_t _ ih =>
    obtain ⟨next, hnext, -, -, hmem, hprefix⟩ := exists_visit_of_visits hn hus hlisted h
    have hu : u ∈ structs := hus (.head _)
    rcases visit_eq_ok hnext with ⟨⟨l, hl, hname⟩, -⟩ | ⟨d, below, rfl, -, -, hbelow, rfl⟩
    · -- a struct that is listed reaches only what is listed
      obtain rfl := List.inj_on_of_nodup_map hn (hlisted.subset hl) hu hname
      exact absurd (hlisted.mem_of_reaches hlisted.subset hn hl hus_s) hs
    · rw [foldlM_visitMention] at hbelow
      have hneeded : u.needed structs ⊆ structs :=
        fun v hv => ((mem_needed_iff hn hu).mp hv).2.1
      have htu : t ≠ u := fun htu => hts (htu ▸ hus_s)
      have htbelow : t ∈ below := by simpa [htu] using (hmem t).mpr (.inr hus_t)
      have hpair : [s, t].Sublist below := ih hneeded hlisted hs ht hbelow htbelow
      exact (hpair.trans (List.sublist_append_left _ _)).trans hprefix.sublist
  | @neither u us hus_s hus_t _ ih =>
    obtain ⟨next, -, hrest, hcomplete, hmem, -⟩ := exists_visit_of_visits hn hus hlisted h
    have hsnext : s ∉ next := fun hs' => ((hmem s).mp hs').elim hs hus_s
    have htnext : t ∉ next := fun ht' => ((hmem t).mp ht').elim ht hus_t
    exact ih (List.cons_subset.mp hus).2 hcomplete hsnext htnext hrest hfinal

/-- **Which of two independent structs comes first.** In the order of dependencies of structs of
distinct names, one of two structs that do not reach each other stands before the other exactly when
it is met first; so it does when no struct before it in the list reaches the other one. -/
theorem pair_sublist_iff_metFirst (hn : (structs.map Struct.name).Nodup)
    (h : dependencyOrder structs = .ok listed) (hs : s ∈ structs) (ht : t ∈ structs)
    (hst : ¬ ReflTransGen (Needs structs) s t) (hts : ¬ ReflTransGen (Needs structs) t s) :
    ([s, t].Sublist listed ↔ MetFirst structs s t structs) ∧
      ((∀ u, [u, s].Sublist structs → ¬ ReflTransGen (Needs structs) u t) →
        [s, t].Sublist listed) := by
  have hperm := perm_dependencyOrder hn h
  have hnodup : listed.Nodup := hperm.nodup_iff.mpr (hn.of_map Struct.name)
  have hacyclic : ∀ u, ¬ TransGen (Needs structs) u u := not_transGen_needs_self hn h
  have hfirst : MetFirst structs s t structs → [s, t].Sublist listed := fun hmet =>
    pair_sublist_of_metFirst hn hts hmet (List.Subset.refl _) (.nil structs) nofun nofun h
      (hperm.mem_iff.mpr ht)
  have hsecond : MetFirst structs t s structs → [t, s].Sublist listed := fun hmet =>
    pair_sublist_of_metFirst hn hst hmet (List.Subset.refl _) (.nil structs) nofun nofun h
      (hperm.mem_iff.mpr hs)
  refine ⟨⟨fun hpair => ?_, hfirst⟩, fun hbefore => hfirst (metFirst_of_not_reaches hs hst hbefore)⟩
  have hone : MetFirst structs s t structs ∨ MetFirst structs t s structs :=
    metFirst_or_of_exists (fun u _ => metFirst_needed_or hn hacyclic hst u) ⟨s, hs, .inl .refl⟩
  refine hone.resolve_right fun hmet => ?_
  -- otherwise the first struct would stand before itself
  exact List.nodup_iff_sublist.mp hnodup s (pair_sublist_trans hnodup hpair (hsecond hmet))

/-! ### A songbook -/

/-- A struct that mentions nothing reaches no other one. -/
theorem eq_of_reaches_of_mentions (hs : s.mentions = [])
    (h : ReflTransGen (Needs structs) s t) : s = t := by
  refine h.cases_head.resolve_right ?_
  rintro ⟨u, ⟨-, -, -, hmention⟩, -⟩
  have hname := Struct.mem_mentions_iff.mpr hmention
  rw [hs] at hname
  cases hname

namespace Songbook

/-- Albums have a cover, and are by a band. -/
def album : Struct where
  name := "Album"
  moduleName := "music"
  fields := [{ name := "cover", type := .ref "Cover" }, { name := "band", type := .ref "Band" }]

/-- Bands have a name. -/
def band : Struct where
  name := "Band"
  moduleName := "music"
  fields := [{ name := "name", type := .primitive .string }]

/-- Covers are of a colour. -/
def cover : Struct where
  name := "Cover"
  moduleName := "music"
  fields := [{ name := "colour", type := .primitive .string }]

/-- Venues are in a town. -/
def venue : Struct where
  name := "Venue"
  moduleName := "music"
  fields := [{ name := "town", type := .primitive .string }]

end Songbook

open Songbook

/-- The structs of a songbook, by name. -/
def songbook : List Struct := [album, band, cover, venue]

theorem dependencyOrder_songbook : dependencyOrder songbook = .ok [cover, band, album, venue] := by
  rfl

theorem not_reaches_songbook (hs : s.mentions = []) (hst : s.name ≠ t.name) :
    ¬ ReflTransGen (Needs songbook) s t :=
  fun h => hst (congrArg Struct.name (eq_of_reaches_of_mentions hs h))

theorem not_reaches_venue : ¬ ReflTransGen (Needs songbook) album venue := by
  intro h
  rcases h.cases_head with heq | ⟨u, hneeds, hu⟩
  · exact absurd (congrArg Struct.name heq) (by decide)
  · have hneeded : u ∈ album.needed songbook :=
      (mem_needed_iff (by decide) (.head _)).mpr hneeds
    have hlist : album.needed songbook = [cover, band] := by rfl
    rw [hlist, List.mem_pair] at hneeded
    rcases hneeded with rfl | rfl <;> exact not_reaches_songbook rfl (by decide) hu

/-- The cover of an album is met before its band. Venues come after bands, since the only struct
before bands is that of albums, which reaches no venue. -/
theorem pair_sublist_iff_metFirst_songbook :
    (songbook.map Struct.name).Nodup ∧
      dependencyOrder songbook = .ok [cover, band, album, venue] ∧
      ¬ ReflTransGen (Needs songbook) cover band ∧ ¬ ReflTransGen (Needs songbook) band cover ∧
      MetFirst songbook cover band songbook ∧
      [band, venue].Sublist [cover, band, album, venue] := by
  have hn : (songbook.map Struct.name).Nodup := by decide
  have hmem : band ∈ songbook ∧ cover ∈ songbook ∧ venue ∈ songbook := by simp [songbook]
  have hcover : ¬ ReflTransGen (Needs songbook) cover band := not_reaches_songbook rfl (by decide)
  have hband : ¬ ReflTransGen (Needs songbook) band cover := not_reaches_songbook rfl (by decide)
  have hvenue : ∀ u, [u, band].Sublist songbook → ¬ ReflTransGen (Needs songbook) u venue := by
    intro u hu
    have hnames := hu.map Struct.name
    have hmem : u ∈ [album, band, cover, venue] := hu.subset (.head _)
    simp only [List.mem_cons, List.not_mem_nil, or_false] at hmem
    rcases hmem with rfl | rfl | rfl | rfl
    · exact not_reaches_venue
    all_goals exact absurd hnames (by decide)
  have hfirst := (pair_sublist_iff_metFirst hn dependencyOrder_songbook hmem.2.1 hmem.1 hcover
    hband).1.mp (.cons_cons _ (.cons_cons _ (List.nil_sublist _)))
  have hsecond := (pair_sublist_iff_metFirst hn dependencyOrder_songbook hmem.1 hmem.2.2
    (not_reaches_songbook rfl (by decide)) (not_reaches_songbook rfl (by decide))).2 hvenue
  exact ⟨hn, dependencyOrder_songbook, hcover, hband, hfirst, hsecond⟩

/-- The band of an album stands before the cover in the list, and after it in the order, although
neither of them reaches the other. -/
theorem not_pair_sublist_songbook :
    ¬ ∀ structs listed : List Struct, (structs.map Struct.name).Nodup →
      dependencyOrder structs = .ok listed → ∀ s t, [s, t].Sublist structs →
        ¬ ReflTransGen (Needs structs) s t → ¬ ReflTransGen (Needs structs) t s →
          [s, t].Sublist listed := by
  intro h
  have hpair : [band, cover].Sublist [cover, band, album, venue] :=
    h songbook _ (by decide) dependencyOrder_songbook band cover
      (.cons _ (.cons_cons _ (.cons_cons _ (List.nil_sublist _))))
      (not_reaches_songbook rfl (by decide)) (not_reaches_songbook rfl (by decide))
  have hnames : ["Band", "Cover"].Sublist ["Cover", "Band", "Album", "Venue"] :=
    hpair.map Struct.name
  exact absurd hnames (by decide)

end SchemaCatalog
