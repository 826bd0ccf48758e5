import SchemaCatalog.Proofs.Registry.Lookup

/-!
# Extensible enumerations

An enumeration is extended by a union of one reference to it with strings (`Registry.Extends`). The
registry finds it by passing over the strings: the members that are left are the one reference, or
else there is no such enumeration. So the order of the members does not matter
(`extensible?_congr_perm`), and all that it takes for an extension is seen but one thing, that there
is a string to extend the enumeration with: a union of a single reference passes as one too
(`extensible?_eq_some_iff_extends`).
-/

namespace SchemaCatalog.Registry

open NativeType (nonStrings)

/-- The union of some members **extends** an enumeration when one of them refers to it, no other one
refers to an enumeration, and these others, of which there is at least one, are strings. -/
structure Extends (r : Registry) (e : Enumeration) (ms : List NativeType) : Prop where
  /-- Of the members one refers to an enumeration, and this is the one. -/
  sole : ∃ m, (ms.filter fun m => (r.enumeration? m).isSome) = [m] ∧ r.enumeration? m = some e
  /-- There is a string. -/
  exists_string : ∃ s ∈ ms, s.unadorned = .primitive .string
  /-- Each member that refers to no enumeration is a string. -/
  strings : ∀ s ∈ ms, r.enumeration? s = none → s.unadorned = .primitive .string

variable {r : Registry} {e : Enumeration} {t m : NativeType} {ms ms' : List NativeType}

/-- A reference to an enumeration is no string. -/
theorem unadorned_ne_of_enumeration? (h : r.enumeration? t = some e) :
    t.unadorned ≠ .primitive .string := by
  intro hstring
  have hprimitive := isPrimitive_unadorned_of_referenced? (enumeration?_eq_some_iff.mp h)
  rw [hstring] at hprimitive
  cases hprimitive

/-- Where members are strings or refer to an enumeration, those that are no strings do the
latter. -/
theorem filter_enumeration?
    (h : ∀ s ∈ ms, r.enumeration? s = none → s.unadorned = .primitive .string) :
    (ms.filter fun m => (r.enumeration? m).isSome) = nonStrings ms := by
  refine List.filter_congr fun s hs => ?_
  cases he : r.enumeration? s with
  | none => simp [h s hs he]
  | some e => simp [unadorned_ne_of_enumeration? he]

/-- A string is found among the members unless none of them is one. -/
theorem exists_string_of_nonStrings_ne (h : nonStrings ms ≠ ms) :
    ∃ s ∈ ms, s.unadorned = .primitive .string := by
  by_contra hnone
  refine h (List.filter_eq_self.mpr fun s hs => ?_)
  simpa using fun hstring => hnone ⟨s, hs, hstring⟩

/-- The union of a single reference to an enumeration has no strings to extend it with. -/
theorem not_extends_singleton (hm : r.enumeration? m = some e) : ¬ r.Extends e [m] := by
  intro h
  obtain ⟨s, hs, hstring⟩ := h.exists_string
  rw [List.mem_singleton] at hs
  exact unadorned_ne_of_enumeration? hm (hs ▸ hstring)

/-- A union is found to extend what its only member that is no string refers to, as it does unless
there is no other member. -/
theorem extensible?_union_iff_extends :
    r.extensible? (.union ms) = some e ↔
      r.Extends e ms ∨ ∃ m, ms = [m] ∧ r.enumeration? m = some e := by
  rw [extensible?_union_eq_some_iff]
  constructor
  · rintro ⟨m, hsole, hm⟩
    have hstrings : ∀ s ∈ ms, r.enumeration? s = none → s.unadorned = .primitive .string := by
      intro s hs hnone
      by_contra hstring
      have hmem : s ∈ nonStrings ms := List.mem_filter.mpr ⟨hs, by simpa using hstring⟩
      rw [hsole, List.mem_singleton] at hmem
      cases (hmem ▸ hnone).symm.trans hm
    by_cases hall : nonStrings ms = ms
    · exact .inr ⟨m, hall.symm.trans hsole, hm⟩
    · have hfilter := filter_enumeration? hstrings
      exact .inl ⟨⟨m, hfilter.trans hsole, hm⟩, exists_string_of_nonStrings_ne hall, hstrings⟩
  · rintro (h | ⟨m, rfl, hm⟩)
    · obtain ⟨m, hsole, hm⟩ := h.sole
      exact ⟨m, (filter_enumeration? h.strings).symm.trans hsole, hm⟩
    · refine ⟨m, List.filter_eq_self.mpr fun s hs => ?_, hm⟩
      rw [List.mem_singleton.mp hs]
      simpa using unadorned_ne_of_enumeration? hm

/-- Whether a union extends an enumeration does not depend on the order of its members. -/
theorem extensible?_congr_perm (h : ms.Perm ms') :
    r.extensible? (.union ms) = r.extensible? (.union ms') := by
  have hmono : ∀ {as bs : List NativeType}, as.Perm bs → ∀ e,
      r.extensible? (.union as) = some e → r.extensible? (.union bs) = some e := by
    intro as bs hperm e he
    obtain ⟨m, hsole, hm⟩ := extensible?_union_eq_some_iff.mp he
    have hleft : [m].Perm (nonStrings bs) := hsole ▸ hperm.filter _
    exact extensible?_union_eq_some_iff.mpr ⟨m, List.perm_singleton.mp hleft.symm, hm⟩
  exact Option.ext fun e => ⟨hmono h e, hmono h.symm e⟩

/-- **Which types are extensible enumerations**: exactly the unions that extend the enumeration, and
the unions of a single reference to it; the order of the members does not matter. -/
theorem extensible?_eq_some_iff_extends (r : Registry) :
    (∀ t e, r.extensible? t = some e ↔
      ∃ ms, t = .union ms ∧ (r.Extends e ms ∨ ∃ m, ms = [m] ∧ r.enumeration? m = some e)) ∧
    ∀ ms ms', ms.Perm ms' → r.extensible? (.union ms) = r.extensible? (.union ms') := by
  refine ⟨fun t e => ⟨fun h => ?_, ?_⟩, fun ms ms' => extensible?_congr_perm⟩
  · obtain ⟨ms, rfl, -⟩ := extensible?_eq_some h
    exact ⟨ms, rfl, extensible?_union_iff_extends.mp h⟩
  · rintro ⟨ms, rfl, h⟩
    exact extensible?_union_iff_extends.mpr h

/-! ### A tea room -/

/-- The teas on the menu. -/
def tea : Enumeration where
  name := "Tea"
  moduleName := "menu"
  members := [("green", .str "green"), ("black", .str "black")]

/-- A tea room. -/
def teaRoom : Registry where
  types := [.enumeration tea]
  nodup_names := by decide

/-- What may be ordered: a brand, a tea of the menu, or anything else. -/
def orders : List NativeType :=
  [.boundedString 16, .forward "Tea", .annotated (.annotated (.primitive .string) []) [.timeZone]]

/-- A tea is ordered by its name or in other words, in whatever order the members are written. -/
theorem extensible?_eq_some_iff_extends_teaRoom :
    teaRoom.Extends tea orders ∧ teaRoom.extensible? (.union orders) = some tea ∧
      orders.reverse.Perm orders ∧ teaRoom.extensible? (.union orders.reverse) = some tea := by
  have hextends : teaRoom.Extends tea orders :=
    ⟨⟨.forward "Tea", rfl, rfl⟩, ⟨.boundedString 16, .head _, rfl⟩, by
      simp [orders, enumeration?, referenced?, NativeType.referencedName?, NativeType.boundedString,
        NativeType.unadorned, teaRoom, get?, tea, Definition.name, Definition.enumeration?]⟩
  obtain ⟨hiff, hperm⟩ := extensible?_eq_some_iff_extends teaRoom
  have hunion := (hiff (.union orders) tea).mpr ⟨orders, rfl, .inl hextends⟩
  have hreverse : orders.reverse.Perm orders := List.reverse_perm orders
  exact ⟨hextends, hunion, hreverse, (hperm _ _ hreverse).trans hunion⟩

/-- A union of teas only passes as an extension of the menu, although nothing extends it. -/
theorem not_extends_teaRoom :
    ¬ ∀ ms e, teaRoom.extensible? (.union ms) = some e ↔ teaRoom.Extends e ms :=
  fun h => not_extends_singleton rfl ((h [.ref "Tea"] tea).mp rfl)

end SchemaCatalog.Registry
