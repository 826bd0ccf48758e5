import Mathlib.Logic.Basic
import SchemaCatalog.DataType.Widening

/-!
# What a common type keeps

What two different data types share with their common type, all data types of a list share with
theirs (`eq_of_common?`). So it is with the name in a data type: a data type that is known by name,
or an array of it, refers to that name (`named?`), and data types with a name are not widened, so
that a common type refers to what each of the types refers to (`named?_of_common?`).

Most data types are plain: they have no parts and do not depend on what is declared. Widening makes
plain data types only, so that a common type that is not plain is the one that it started from
(`eq_or_isPlain_of_common?`).
-/

namespace SchemaCatalog.DataType

variable {a b d : DataType}

section Kept

variable {β : Type*} {f : DataType → β}
  (hf : ∀ {a b d : DataType}, joinDistinct? a b = some d → f a = f d ∧ f b = f d)
include hf

theorem eq_of_join? (h : join? a b = some d) : f a = f d ∧ f b = f d := by
  unfold join? at h
  split at h
  · rename_i hab
    cases h
    exact ⟨rfl, by rw [hab]⟩
  · exact hf h

theorem eq_of_foldlM_join? {ts : List DataType} {t : DataType} (h : ts.foldlM join? t = some d) :
    f t = f d ∧ ∀ u ∈ ts, f u = f d := by
  induction ts generalizing t with
  | nil =>
    cases h
    exact ⟨rfl, nofun⟩
  | cons u ts ih =>
    rw [List.foldlM_cons] at h
    obtain ⟨next, hnext, h⟩ := Option.bind_eq_some_iff.mp h
    obtain ⟨hd, hts⟩ := ih h
    obtain ⟨ht, hu⟩ := eq_of_join? hf hnext
    exact ⟨ht.trans hd, List.forall_mem_cons.mpr ⟨hu.trans hd, hts⟩⟩

/-- **What widening keeps, the common type of a list shares with each of its types.** -/
theorem eq_of_common? {ts : List DataType} (h : common? ts = .ok d) :
    ts ≠ [] ∧ ∀ t ∈ ts, f t = f d := by
  unfold common? at h
  split at h
  · cases h
  · split at h
    · rename_i hfold
      cases h
      obtain ⟨ht, hts⟩ := eq_of_foldlM_join? hf hfold
      exact ⟨List.cons_ne_nil _ _, List.forall_mem_cons.mpr ⟨ht, hts⟩⟩
    · cases h

end Kept

/-! ### Names -/

/-- The name that a data type **refers to**, be it as the items of an array. -/
def named? : DataType → Option QualifiedName
  | userDefined name => some name
  | array element => element.named?
  | _ => none

@[simp]
theorem named?_array (element : DataType) : (array element).named? = element.named? := rfl

/-- Only data types without a name are widened. -/
theorem named?_of_joinDistinct? (h : joinDistinct? a b = some d) :
    a.named? = d.named? ∧ b.named? = d.named? := by
  cases a <;> cases b <;> cases h <;> exact ⟨rfl, rfl⟩

/-- **A common type refers to what each of the types refers to.** -/
theorem named?_of_common? {ts : List DataType} (h : common? ts = .ok d) :
    ts ≠ [] ∧ ∀ t ∈ ts, t.named? = d.named? :=
  eq_of_common? named?_of_joinDistinct? h

/-! ### Parts -/

/-- Whether a data type is **plain**: no array, no list of labels, and not known by name. -/
def isPlain : DataType → Bool
  | array _ | enumeration _ | userDefined _ => false
  | _ => true

theorem named?_of_isPlain (h : d.isPlain = true) : d.named? = none := by
  cases d <;> first | rfl | cases h

/-- A data type with the data types inside it, **at any depth**. -/
def parts : DataType → List DataType
  | array element => array element :: element.parts
  | d => [d]

theorem mem_parts_self (d : DataType) : d ∈ d.parts := by
  cases d <;> exact List.mem_cons_self

theorem mem_parts_array {element : DataType} :
    d ∈ (array element).parts ↔ d = array element ∨ d ∈ element.parts :=
  List.mem_cons

/-- The parts of a part are parts. -/
theorem parts_subset_of_mem_parts (h : a ∈ d.parts) : a.parts ⊆ d.parts := by
  induction d with
  | array element ih =>
    rcases mem_parts_array.mp h with rfl | h
    · exact List.Subset.refl _
    · exact List.subset_cons_of_subset _ (ih h)
  | _ =>
    rw [List.mem_singleton.mp h]
    exact List.Subset.refl _

/-- A plain data type is its only part. -/
theorem eq_of_mem_parts_of_isPlain (hd : d.isPlain = true) (h : a ∈ d.parts) : a = d := by
  cases d with
  | array element => cases hd
  | _ => exact List.mem_singleton.mp h

/-- Widening makes plain data types only. -/
theorem isPlain_of_joinDistinct? (h : joinDistinct? a b = some d) : d.isPlain = true := by
  cases a <;> cases b <;> cases h <;> rfl

theorem eq_or_isPlain_of_join? (h : join? a b = some d) : d = a ∨ d.isPlain = true := by
  unfold join? at h
  split at h
  · exact Or.inl (Option.some.inj h).symm
  · exact Or.inr (isPlain_of_joinDistinct? h)

theorem eq_or_isPlain_of_foldlM_join? {ts : List DataType} {t : DataType}
    (h : ts.foldlM join? t = some d) : d = t ∨ d.isPlain = true := by
  induction ts generalizing t with
  | nil => exact Or.inl (Option.some.inj h).symm
  | cons u ts ih =>
    rw [List.foldlM_cons] at h
    obtain ⟨next, hnext, h⟩ := Option.bind_eq_some_iff.mp h
    rcases ih h with rfl | hplain
    · exact eq_or_isPlain_of_join? hnext
    · exact Or.inr hplain

/-- **A common type** is the first of the types or plain. -/
theorem eq_or_isPlain_of_common? {t : DataType} {ts : List DataType}
    (h : common? (t :: ts) = .ok d) : d = t ∨ d.isPlain = true := by
  unfold common? at h
  dsimp only at h
  split at h
  · rename_i hfold
    cases h
    exact eq_or_isPlain_of_foldlM_join? hfold
  · cases h

end SchemaCatalog.DataType
