import SchemaCatalog.Proofs.Assembly.Definitions

/-!
# Which enumerations become enumeration types

`PlainlyUses r e t` says that a type mentions an enumeration other than through an extensible
enumeration; `plainEnums` lists the names of these (`mem_plainEnums_iff`). The enumeration types
of a catalog are those of the enumerations with labels enough that some field uses so
(`mem_nativeEnums_iff`), by name.
-/

namespace SchemaCatalog

/-- A type **plainly uses** an enumeration when it mentions it other than through an extensible
enumeration. -/
inductive PlainlyUses (r : Registry) (e : Enumeration) : NativeType → Prop
  /-- A reference to the enumeration. -/
  | reference {t : NativeType} : r.enumeration? t = some e → PlainlyUses r e t
  /-- Annotations do not matter. -/
  | annotated {base : NativeType} {as : List Annotation} :
    PlainlyUses r e base → PlainlyUses r e (.annotated base as)
  /-- The items of a list use it. -/
  | list {item : NativeType} : PlainlyUses r e item → PlainlyUses r e (.list item)
  /-- A member of a union uses it, and the union is no extensible enumeration. -/
  | union {members : List NativeType} {m : NativeType} :
    r.extensible? (.union members) = none → m ∈ members → PlainlyUses r e m →
      PlainlyUses r e (.union members)

namespace Converter

variable {c : Converter} {types : List Definition} {name : String}

/-- A name that a reference lists is that of the enumeration it refers to. -/
theorem mem_toList_enumeration?_iff {t : NativeType}
    (ht : ∀ e, PlainlyUses c.registry e t → c.registry.enumeration? t = some e) :
    name ∈ ((c.registry.enumeration? t).map Enumeration.name).toList ↔
      ∃ e, e.name = name ∧ PlainlyUses c.registry e t := by
  rw [Option.mem_toList, Option.map_eq_some_iff]
  refine exists_congr fun e => ?_
  rw [and_comm]
  exact and_congr_right fun _ => ⟨.reference, ht e⟩

mutual

/-- **The plain enumerations** of a type are the names of those it plainly uses. -/
theorem mem_plainEnums_iff : ∀ {t : NativeType},
    name ∈ c.plainEnums t ↔ ∃ e, e.name = name ∧ PlainlyUses c.registry e t
  | .annotated base as => by
    rw [plainEnums, mem_plainEnums_iff (t := base)]
    refine exists_congr fun e => and_congr_right fun _ => ⟨.annotated, fun h => ?_⟩
    cases h with
    | reference he => cases he
    | annotated h => exact h
  | .list item => by
    rw [plainEnums, mem_plainEnums_iff (t := item)]
    refine exists_congr fun e => and_congr_right fun _ => ⟨.list, fun h => ?_⟩
    cases h with
    | reference he => cases he
    | list h => exact h
  | .union members => by
    rw [plainEnums]
    cases hextensible : c.registry.extensible? (.union members) with
    | some e' =>
      rw [if_pos (Option.isSome_some)]
      refine iff_of_false List.not_mem_nil ?_
      rintro ⟨e, -, h⟩
      cases h with
      | reference he => cases he
      | union hnone => rw [hnone] at hextensible; cases hextensible
    | none =>
      rw [if_neg (by simp), mem_plainEnumsAll_iff]
      constructor
      · rintro ⟨m, hm, e, hname, h⟩
        exact ⟨e, hname, .union hextensible hm h⟩
      · rintro ⟨e, hname, h⟩
        cases h with
        | reference he => cases he
        | union _ hm h => exact ⟨_, hm, e, hname, h⟩
  | .ref _ | .forward _ => by
    rw [plainEnums]
    refine mem_toList_enumeration?_iff fun e h => ?_
    cases h with
    | reference he => exact he
  | .primitive _ | .literal _ | .custom _ _ => by
    rw [plainEnums]
    refine iff_of_false List.not_mem_nil ?_
    rintro ⟨e, -, h⟩
    cases h with
    | reference he => cases he

theorem mem_plainEnumsAll_iff : ∀ {ts : List NativeType},
    name ∈ c.plainEnumsAll ts ↔ ∃ t ∈ ts, ∃ e, e.name = name ∧ PlainlyUses c.registry e t
  | [] => by simp [plainEnumsAll]
  | t :: ts => by
    rw [plainEnumsAll, List.mem_append, mem_plainEnums_iff, mem_plainEnumsAll_iff,
      List.exists_mem_cons_iff]

end

/-- What is plainly used is registered under its name. -/
theorem get?_of_plainlyUses {t : NativeType} {e : Enumeration}
    (h : PlainlyUses c.registry e t) : c.registry.get? e.name = some (.enumeration e) := by
  induction h with
  | reference he => exact (Registry.get?_of_referenced? (Registry.enumeration?_eq_some_iff.mp he)).1
  | annotated _ ih | list _ ih | union _ _ _ ih => exact ih

/-- **Which enumerations become enumeration types**: those with at least two labels that some
field uses plainly, if enumerations are types at all. -/
theorem mem_nativeEnums_iff (ht : ∀ d ∈ types, c.registry.get? d.name = some d) {e : Enumeration} :
    e ∈ c.nativeEnums types ↔ c.options.enumMode = .type ∧ .enumeration e ∈ types ∧
      2 ≤ e.distinctCount ∧ ∃ d ∈ types, ∃ f ∈ d.fields, PlainlyUses c.registry e f.type := by
  unfold nativeEnums
  split
  · rename_i hmode
    have hsmall : (!c.isSmall e) = true ↔ 2 ≤ e.distinctCount := by
      rw [isSmall, hmode, Bool.not_eq_true']
      simp only [decide_true, Bool.true_or, Bool.true_and, decide_eq_false_iff_not, Nat.not_lt]
    rw [List.mem_filter, mem_enumerations_iff, isNative, Bool.and_eq_true, hsmall,
      and_iff_right hmode]
    refine and_congr_right fun he => and_congr_right fun _ => ?_
    -- within the registry the name of an enumeration is that enumeration
    have huses : ∀ t, e.name ∈ c.plainEnums t ↔ PlainlyUses c.registry e t := by
      intro t
      rw [mem_plainEnums_iff]
      refine ⟨fun ⟨e', hname, h⟩ => ?_, fun h => ⟨e, rfl, h⟩⟩
      have hget := get?_of_plainlyUses h
      rw [hname, show c.registry.get? e.name = _ from ht _ he] at hget
      cases hget
      exact h
    simp [huses]
  · rename_i hmode
    simp [hmode]

/-- Which enumerations become types depends on the definitions and on how enumerations are
represented. -/
theorem nativeEnums_of_registry {c' : Converter} (hregistry : c'.registry = c.registry)
    (hmode : c'.options.enumMode = c.options.enumMode) : c'.nativeEnums = c.nativeEnums := by
  have hsmall : ∀ e, c'.isSmall e = c.isSmall e := fun e => by rw [isSmall, isSmall, hmode]
  have hplain : ∀ t name, (c'.plainEnums t).contains name = (c.plainEnums t).contains name := by
    intro t name
    rw [Bool.eq_iff_iff, List.contains_iff_mem, List.contains_iff_mem, mem_plainEnums_iff,
      mem_plainEnums_iff, hregistry]
  have hnative : c'.isNative = c.isNative := by
    funext types e
    simp only [isNative, hsmall, hplain]
  funext types
  rw [nativeEnums, nativeEnums, hmode, hnative]

theorem sortedBy_nativeEnums (h : SortedBy Definition.name types) :
    SortedBy Enumeration.name (c.nativeEnums types) := by
  unfold nativeEnums
  split
  · exact (sortedBy_enumerations h).filter _
  · exact List.Pairwise.nil

end Converter

end SchemaCatalog
