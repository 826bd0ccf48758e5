/-!
# Repeated names

The columns of a table, the members of a composite type, the constraints of a table and the
target namespaces of modules must differ. `firstRepeated?` finds the element of a list that an
error names; `firstRepeated?_eq_none_iff` says that there is one unless the list has no
duplicates.
-/

namespace SchemaCatalog

universe u

variable {α : Type u} [DecidableEq α]

/-- The first element of a list that has been seen or stands before in the list. -/
def firstRepeatedAfter? (seen : List α) : List α → Option α
  | [] => none
  | a :: as => if a ∈ seen then some a else firstRepeatedAfter? (a :: seen) as

/-- The first element of a list that stands in it a second time. -/
def firstRepeated? (as : List α) : Option α := firstRepeatedAfter? [] as

theorem firstRepeatedAfter?_eq_none_iff {seen as : List α} :
    firstRepeatedAfter? seen as = none ↔ as.Nodup ∧ ∀ a ∈ as, a ∉ seen := by
  induction as generalizing seen with
  | nil => simp [firstRepeatedAfter?]
  | cons a as ih =>
    by_cases ha : a ∈ seen
    · simp [firstRepeatedAfter?, ha]
    · rw [firstRepeatedAfter?, if_neg ha, ih, List.nodup_cons]
      constructor
      · rintro ⟨hnodup, hseen⟩
        refine ⟨⟨fun hmem => hseen a hmem List.mem_cons_self, hnodup⟩, fun b hb => ?_⟩
        rcases List.mem_cons.1 hb with rfl | hb
        · exact ha
        · exact fun hs => hseen b hb (List.mem_cons_of_mem _ hs)
      · rintro ⟨⟨hmem, hnodup⟩, hseen⟩
        refine ⟨hnodup, fun b hb hs => ?_⟩
        rcases List.mem_cons.1 hs with rfl | hs
        · exact hmem hb
        · exact hseen b (List.mem_cons_of_mem _ hb) hs

/-- **No repetition**: nothing is found exactly in lists without duplicates. -/
theorem firstRepeated?_eq_none_iff {as : List α} : firstRepeated? as = none ↔ as.Nodup := by
  simp [firstRepeated?, firstRepeatedAfter?_eq_none_iff]

end SchemaCatalog
