import SchemaCatalog.Proofs.Registry.Lookup
import SchemaCatalog.Registry.Closure

/-!
# Reachable names

`Registry.Reaches roots name` says that a name is a root or is mentioned by the definition of
a name that is reached. `closure` is a search with a list of names seen and a list of names to
visit; `Search` is the invariant of its states. One step keeps it (`Search.skip`,
`Search.visit`), hence a whole search does (`Search.run`), and so the closure lists the
reachable names, each once (`mem_closure_iff`, `nodup_closure`).
-/

namespace SchemaCatalog.Registry

/-- A name is **reached** from some roots when it is one of them or is mentioned by the
definition of a name that is reached. -/
inductive Reaches (r : Registry) (roots : List String) : String → Prop
  /-- Roots are reached. -/
  | root {name : String} : name ∈ roots → Reaches r roots name
  /-- What the definition of a reached name mentions is reached. -/
  | mention {name other : String} {d : Definition} :
    Reaches r roots name → r.get? name = some d → other ∈ d.mentions → Reaches r roots other

/-- A definition is **reached** when it is registered under a name that is reached. -/
def ReachesDefinition (r : Registry) (roots : List String) (d : Definition) : Prop :=
  r.get? d.name = some d ∧ r.Reaches roots d.name

/-- The invariant of a search that has seen some names and has others to visit: what the
definition of a seen name mentions is seen or to be visited. -/
structure Search (r : Registry) (roots seen names : List String) : Prop where
  /-- No name is seen twice. -/
  nodup : seen.Nodup
  /-- Seen names are registered. -/
  registered : ∀ n ∈ seen, ∃ d, r.get? n = some d
  /-- Only reachable names are seen or to be visited. -/
  reaches : ∀ n, n ∈ seen ∨ n ∈ names → r.Reaches roots n
  /-- All roots are seen or to be visited. -/
  covers : ∀ n ∈ roots, n ∈ seen ∨ n ∈ names
  /-- All that a seen name mentions is seen or to be visited. -/
  closed : ∀ n ∈ seen, ∀ d, r.get? n = some d → ∀ m ∈ d.mentions, m ∈ seen ∨ m ∈ names

variable {r : Registry} {roots seen names rest result : List String} {name : String}

namespace Search

theorem start (r : Registry) (roots : List String) : Search r roots [] roots where
  nodup := List.nodup_nil
  registered := nofun
  reaches n hn := .root (by simpa using hn)
  covers n hn := Or.inr hn
  closed := nofun

/-- A name that has been seen is passed over. -/
theorem skip (h : Search r roots seen (name :: rest)) (hs : name ∈ seen) :
    Search r roots seen rest := by
  have move : ∀ {n}, n ∈ seen ∨ n ∈ name :: rest → n ∈ seen ∨ n ∈ rest := by
    rintro n (hn | hn)
    · exact Or.inl hn
    · rcases List.mem_cons.mp hn with rfl | hn
      · exact Or.inl hs
      · exact Or.inr hn
  exact
    { nodup := h.nodup
      registered := h.registered
      reaches := fun n hn => h.reaches n (hn.imp_right (List.mem_cons_of_mem _))
      covers := fun n hn => move (h.covers n hn)
      closed := fun n hn d hd m hm => move (h.closed n hn d hd m hm) }

/-- A new name is seen, and what its definition mentions is to be visited. -/
theorem visit {d : Definition} (h : Search r roots seen (name :: rest)) (hs : name ∉ seen)
    (hd : r.get? name = some d) : Search r roots (seen ++ [name]) (d.mentions ++ rest) := by
  have hname : r.Reaches roots name := h.reaches name (Or.inr List.mem_cons_self)
  have move : ∀ {n}, n ∈ seen ∨ n ∈ name :: rest →
      n ∈ seen ++ [name] ∨ n ∈ d.mentions ++ rest := by
    rintro n (hn | hn)
    · exact Or.inl (List.mem_append_left _ hn)
    · rcases List.mem_cons.mp hn with rfl | hn
      · exact Or.inl (List.mem_append_right _ List.mem_cons_self)
      · exact Or.inr (List.mem_append_right _ hn)
  refine ⟨?_, fun n hn => ?_, fun n hn => ?_, fun n hn => move (h.covers n hn),
    fun n hn d' hd' m hm => ?_⟩
  · rw [← List.concat_eq_append]
    exact h.nodup.concat hs
  · rcases List.mem_append.mp hn with hn | hn
    · exact h.registered n hn
    · exact ⟨d, List.mem_singleton.mp hn ▸ hd⟩
  · rcases hn with hn | hn <;> rcases List.mem_append.mp hn with hn | hn
    · exact h.reaches n (Or.inl hn)
    · exact List.mem_singleton.mp hn ▸ hname
    · exact .mention hname hd hn
    · exact h.reaches n (Or.inr (List.mem_cons_of_mem _ hn))
  · rcases List.mem_append.mp hn with hn | hn
    · exact move (h.closed n hn d' hd' m hm)
    · rw [List.mem_singleton.mp hn, hd] at hd'
      cases hd'
      exact Or.inr (List.mem_append_left _ hm)

/-- A search that ends has nothing left to visit. -/
theorem run (h : Search r roots seen names) (hr : r.closureFrom seen names = .ok result) :
    Search r roots result [] := by
  -- the invariant is kept along the recursion of the search
  fun_induction closureFrom r seen names with
  | case1 seen =>
    cases hr
    exact h
  | case2 seen name rest hs ih => exact ih (h.skip (by simpa using hs)) hr
  | case3 => cases hr
  | case4 seen name rest hs d hd ih => exact ih (h.visit (by simpa using hs) hd) hr

end Search

theorem search_closure (h : r.closure roots = .ok names) : Search r roots names [] :=
  (Search.start r roots).run h

theorem nodup_closure (h : r.closure roots = .ok names) : names.Nodup :=
  (search_closure h).nodup

/-- **The closure lists the reachable names.** -/
theorem mem_closure_iff (h : r.closure roots = .ok names) :
    name ∈ names ↔ r.Reaches roots name := by
  have hs := search_closure h
  constructor
  · exact fun hn => hs.reaches name (Or.inl hn)
  · intro hn
    induction hn with
    | root hn => simpa using hs.covers _ hn
    | mention _ hd hm ih => simpa using hs.closed _ ih _ hd _ hm

/-- What a field of a definition that is reached mentions is reached. -/
theorem ReachesDefinition.reaches {owner : Definition} (howner : r.ReachesDefinition roots owner)
    {f : Field} (hfield : f ∈ owner.fields) (hname : name ∈ f.type.mentions) :
    r.Reaches roots name :=
  .mention howner.2 howner.1 (mem_mentions_iff.mpr ⟨f, hfield, hname⟩)

/-- What a type refers to is reached, if what it mentions is. -/
theorem reachesDefinition_of_referenced? {t : NativeType} {d : Definition}
    (hreach : ∀ name ∈ t.mentions, r.Reaches roots name) (h : r.referenced? t = some d) :
    r.ReachesDefinition roots d := by
  obtain ⟨hget, hmentions⟩ := get?_of_referenced? h
  exact ⟨hget, hreach _ (hmentions ▸ List.mem_singleton_self _)⟩

/-- Nothing is reached from no roots. -/
theorem not_reaches_nil : ¬ r.Reaches [] name := by
  intro h
  induction h with
  | root h => cases h
  | mention _ _ _ ih => exact ih

/-- More roots reach more names. -/
theorem Reaches.mono {roots' : List String} (hsub : roots ⊆ roots') (h : r.Reaches roots name) :
    r.Reaches roots' name := by
  induction h with
  | root hn => exact .root (hsub hn)
  | mention _ hd hm ih => exact .mention ih hd hm

/-- What is reached depends on the definitions of what is reached only. -/
theorem reaches_congr {r' : Registry} {roots' : List String} (hroots : ∀ n, n ∈ roots ↔ n ∈ roots')
    (hget : ∀ n, r.Reaches roots n → r.get? n = r'.get? n) :
    r.Reaches roots name ↔ r'.Reaches roots' name := by
  constructor
  · intro h
    induction h with
    | root hn => exact .root ((hroots _).mp hn)
    | mention hn hd hm ih => exact .mention ih (hget _ hn ▸ hd) hm
  · intro h
    induction h with
    | root hn => exact .root ((hroots _).mpr hn)
    | mention _ hd hm ih => exact .mention ih ((hget _ ih).trans hd) hm

/-- **When there is a closure**: all reachable names have to be registered. -/
theorem exists_closure_iff :
    (∃ names, r.closure roots = .ok names) ↔ ∀ n, r.Reaches roots n → ∃ d, r.get? n = some d := by
  constructor
  · rintro ⟨names, h⟩ n hn
    exact (search_closure h).registered n ((mem_closure_iff h).mpr hn)
  · intro hall
    have hrun : ∀ seen names, Search r roots seen names →
        ∃ result, r.closureFrom seen names = .ok result := by
      intro seen names h
      fun_induction closureFrom r seen names with
      | case1 seen => exact ⟨seen, rfl⟩
      | case2 seen name rest hs ih => exact ih (h.skip (by simpa using hs))
      -- the only failure: a name to visit is reachable, hence registered
      | case3 seen name rest hs hd =>
        obtain ⟨d, hd'⟩ := hall name (h.reaches name (Or.inr List.mem_cons_self))
        rw [hd] at hd'
        cases hd'
      | case4 seen name rest hs d hd ih => exact ih (h.visit (by simpa using hs) hd)
    exact hrun [] roots (Search.start r roots)

end SchemaCatalog.Registry
