import SchemaCatalog.Registry

/-!
# The types reachable from some roots

`closure roots` lists the names that the roots mention directly or indirectly, roots
included, in the order in which a depth-first search first meets them. The search keeps a
list of names to visit; every visit of a new name uses up one of the finitely many names of
the registry, so that it ends also when definitions mention each other in a cycle.
-/

namespace SchemaCatalog.Registry

/-- The number of registered names that have not been seen. -/
def unseen (r : Registry) (seen : List String) : Nat :=
  (r.names.filter fun n => !seen.contains n).length

theorem mem_names_of_get? {r : Registry} {name : String} {d : Definition}
    (h : r.get? name = some d) : name ∈ r.names := by
  have hd := List.mem_of_find?_eq_some h
  have hn := List.find?_some h
  exact List.mem_map.2 ⟨d, hd, by simpa using hn⟩

theorem unseen_append_lt {r : Registry} {seen : List String} {name : String}
    (hr : name ∈ r.names) (hs : seen.contains name = false) :
    r.unseen (seen ++ [name]) < r.unseen seen := by
  unfold unseen
  generalize r.names = names at hr
  induction names with
  | nil => simp at hr
  | cons n ns ih =>
    have hle : (ns.filter fun m => !(seen ++ [name]).contains m).length
        ≤ (ns.filter fun m => !seen.contains m).length := by
      rw [← List.countP_eq_length_filter, ← List.countP_eq_length_filter]
      refine List.countP_mono_left fun m _ hm => ?_
      simp only [Bool.not_eq_true', List.contains_eq_mem, List.mem_append, List.mem_singleton,
        decide_eq_false_iff_not, not_or] at hm ⊢
      exact hm.1
    simp only [List.contains_eq_mem, decide_eq_false_iff_not] at hs
    by_cases hn : n = name
    · subst hn
      simp only [List.contains_eq_mem] at hle
      simp [hs]
      simpa using Nat.lt_succ_of_le hle
    · have hmem : name ∈ ns := by
        rcases List.mem_cons.1 hr with h | h
        · exact absurd h.symm hn
        · exact h
      have := ih hmem
      simp only [List.contains_eq_mem] at this
      by_cases hm : n ∈ seen
      · simpa [hm, hn] using this
      · simpa [hm, hn] using this

/-- Continues a search that has seen some names with a list of names to visit. -/
def closureFrom (r : Registry) (seen : List String) : List String →
    Except ConvertError (List String)
  | [] => .ok seen
  | name :: rest =>
    if _hs : seen.contains name then closureFrom r seen rest
    else
      match _h : r.get? name with
      | none => .error (.unknownType name)
      | some d => closureFrom r (seen ++ [name]) (d.mentions ++ rest)
termination_by names => (r.unseen seen, names.length)
decreasing_by
  · exact Prod.Lex.right _ (by simp)
  · exact Prod.Lex.left _ _
      (unseen_append_lt (mem_names_of_get? _h) (by simpa using _hs))

/-- The names reachable from the roots, in order of discovery. -/
def closure (r : Registry) (roots : List String) : Except ConvertError (List String) :=
  r.closureFrom [] roots

end SchemaCatalog.Registry
