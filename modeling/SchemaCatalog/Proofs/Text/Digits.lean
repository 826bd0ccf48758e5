import Mathlib.Data.List.Basic
import Mathlib.Data.List.TakeDrop

/-!
# Decimal digits

The text of an integer is a minus sign, if it is negative, and the digits of its amount
(`toList_toString`), which are read up to the first character that is none (`span_isDigit_append`).
-/

namespace SchemaCatalog.Text

theorem ne_of_isDigit {d c : Char} (hd : d.isDigit = true) (hc : c.isDigit = false) : d ≠ c := by
  rintro rfl
  rw [hd] at hc
  cases hc

/-- The digits at the start of a text are those up to what is no digit. -/
theorem span_isDigit_append {ds rest : List Char} (hds : ∀ c ∈ ds, c.isDigit = true)
    (hrest : ∀ c ∈ rest.head?, c.isDigit = false) :
    (ds ++ rest).span Char.isDigit = (ds, rest) := by
  have hstop : rest.span Char.isDigit = ([], rest) := by
    cases rest with
    | nil => rfl
    | cons c cs =>
      have hc : c.isDigit = false := hrest c rfl
      simp [List.span_eq_takeWhile_dropWhile, hc]
  rw [List.span_eq_takeWhile_dropWhile] at hstop ⊢
  obtain ⟨htake, hdrop⟩ := Prod.mk.inj hstop
  rw [List.takeWhile_append_of_pos hds, List.dropWhile_append_of_pos hds, htake, hdrop,
    List.append_nil]

theorem isDigit_of_mem_toDigits {n : Nat} : ∀ c ∈ Nat.toDigits 10 n, c.isDigit = true :=
  fun _ hc => Nat.isDigit_of_mem_toDigits (by decide) (by decide) hc

/-- The digits of a number start with a digit. -/
theorem exists_toDigits_eq (n : Nat) :
    ∃ d ds, Nat.toDigits 10 n = d :: ds ∧ d.isDigit = true := by
  cases h : Nat.toDigits 10 n with
  | nil => exact absurd h Nat.toDigits_ne_nil
  | cons d ds => exact ⟨d, ds, rfl, isDigit_of_mem_toDigits d (h ▸ List.mem_cons_self)⟩

theorem toList_toString (i : Int) :
    (toString i).toList = (if i < 0 then ['-'] else []) ++ Nat.toDigits 10 i.natAbs := by
  cases i <;> simp [toString, Int.repr]

/-- The text of an integer starts with a minus sign or a digit. -/
theorem exists_toList_toString (i : Int) :
    ∃ c cs, (toString i).toList = c :: cs ∧ (c = '-' ∨ c.isDigit = true) := by
  rw [toList_toString]
  by_cases hi : i < 0
  · exact ⟨'-', _, by rw [if_pos hi]; rfl, Or.inl rfl⟩
  · obtain ⟨d, ds, hds, hd⟩ := exists_toDigits_eq i.natAbs
    exact ⟨d, ds, by rw [if_neg hi, hds]; rfl, Or.inr hd⟩

end SchemaCatalog.Text
