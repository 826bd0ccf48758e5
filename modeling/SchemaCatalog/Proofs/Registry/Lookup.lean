import SchemaCatalog.Proofs.Distinct
import SchemaCatalog.Proofs.Result
import SchemaCatalog.Registry

/-!
# Looking up definitions

A name stands for at most one definition of a registry, the one that bears it
(`get?_eq_some_iff`), and a reference refers to the definition of the name it mentions
(`referenced?_eq_some_iff`). What a type refers to as an entity or as an enumeration is read
off from that. The names that are listed for a type are those that it mentions at some depth
(`NativeType.mentions_iff`). The enumeration of an extensible enumeration is what the only member of
a union that is no string refers to (`extensible?_union_eq_some_iff`).
-/

namespace SchemaCatalog

/-- A definition mentions what the types of its fields mention. -/
theorem mem_mentions_iff {d : Definition} {name : String} :
    name ∈ d.mentions ↔ ∃ f ∈ d.fields, name ∈ f.type.mentions :=
  List.mem_flatMap

namespace Definition

theorem entity?_eq_some_iff {d : Definition} {e : Entity} : d.entity? = some e ↔ d = .entity e := by
  cases d <;> simp [entity?]

theorem struct?_eq_some_iff {d : Definition} {s : Struct} : d.struct? = some s ↔ d = .struct s := by
  cases d <;> simp [struct?]

theorem enumeration?_eq_some_iff {d : Definition} {e : Enumeration} :
    d.enumeration? = some e ↔ d = .enumeration e := by
  cases d <;> simp [enumeration?]

end Definition

namespace NativeType

theorem mentions_of_referencedName? {t : NativeType} {name : String}
    (h : t.referencedName? = some name) : t.mentions = [name] := by
  cases t <;> simp_all [referencedName?, mentions]

/-- A list of types mentions what its members mention. -/
theorem mem_mentionsAll_iff {name : String} {ts : List NativeType} :
    name ∈ mentionsAll ts ↔ ∃ t ∈ ts, name ∈ t.mentions := by
  induction ts with
  | nil => simp [mentionsAll]
  | cons t ts ih => simp [mentionsAll, ih]

theorem mentions_subset_mentionsAll {t : NativeType} {ts : List NativeType} (ht : t ∈ ts) :
    t.mentions ⊆ mentionsAll ts :=
  fun _ hname => mem_mentionsAll_iff.mpr ⟨t, ht, hname⟩

/-- A type **mentions** a name when it is a reference of that name, or one of its parts mentions
it, be it below annotations, lists or unions. -/
inductive Mentions (name : String) : NativeType → Prop
  /-- A reference mentions its name. -/
  | ref : Mentions name (.ref name)
  /-- A reference to a type that is registered later does so too. -/
  | forward : Mentions name (.forward name)
  /-- Annotations mention nothing. -/
  | annotated {base : NativeType} {as : List Annotation} :
    Mentions name base → Mentions name (.annotated base as)
  /-- A list mentions what its items do. -/
  | list {item : NativeType} : Mentions name item → Mentions name (.list item)
  /-- A union mentions what one of its members does. -/
  | union {members : List NativeType} {m : NativeType} :
    m ∈ members → Mentions name m → Mentions name (.union members)

/-- What a type mentions at some depth is listed. -/
theorem Mentions.mem_mentions {name : String} {t : NativeType} (h : t.Mentions name) :
    name ∈ t.mentions := by
  induction h with
  | ref | forward => exact List.mem_singleton_self name
  | annotated _ ih | list _ ih => exact ih
  | union hm _ ih => exact mentions_subset_mentionsAll hm ih

mutual

/-- What is listed for a type is mentioned at some depth. -/
theorem mentions_of_mem_mentions {name : String} :
    ∀ {t : NativeType}, name ∈ t.mentions → t.Mentions name
  | .ref _, h => List.mem_singleton.mp h ▸ .ref
  | .forward _, h => List.mem_singleton.mp h ▸ .forward
  | .annotated base _, h => .annotated (mentions_of_mem_mentions (t := base) h)
  | .list item, h => .list (mentions_of_mem_mentions (t := item) h)
  | .union _, h => by
    obtain ⟨m, hm, h⟩ := exists_mentions_of_mem_mentionsAll h
    exact .union hm h
  | .primitive _, h | .literal _, h | .custom _ _, h => nomatch h

theorem exists_mentions_of_mem_mentionsAll {name : String} :
    ∀ {ts : List NativeType}, name ∈ mentionsAll ts → ∃ t ∈ ts, t.Mentions name
  | t :: ts, h => by
    rcases List.mem_append.mp h with h | h
    · exact ⟨t, List.mem_cons_self, mentions_of_mem_mentions h⟩
    · obtain ⟨t', ht', h⟩ := exists_mentions_of_mem_mentionsAll h
      exact ⟨t', List.mem_cons_of_mem _ ht', h⟩

end

/-- **The names that are listed for a type are those that it mentions.** -/
theorem mentions_iff {name : String} {t : NativeType} : t.Mentions name ↔ name ∈ t.mentions :=
  ⟨Mentions.mem_mentions, mentions_of_mem_mentions⟩

/-- Annotations mention nothing. -/
theorem mentions_unadorned : ∀ t : NativeType, t.unadorned.mentions = t.mentions
  | annotated base _ => by rw [unadorned, mentions_unadorned base, mentions]
  | primitive _ | ref _ | forward _ | literal _ | list _ | union _ | custom _ _ => rfl

/-- An unadorned type has no annotations. -/
theorem unadorned_ne_annotated (base' : NativeType) (as' : List Annotation) :
    ∀ {t : NativeType}, t.unadorned ≠ .annotated base' as'
  | annotated base _ => unadorned_ne_annotated base' as' (t := base)
  | primitive _ | ref _ | forward _ | literal _ | list _ | union _ | custom _ _ => nofun

/-- The members of a union that are **no strings**, with or without annotations. -/
def nonStrings (ms : List NativeType) : List NativeType :=
  ms.filter fun m => m.unadorned ≠ .primitive .string

/-- Strings are left out. -/
theorem nonStrings_cons_of_eq {m : NativeType} {ms : List NativeType}
    (h : m.unadorned = .primitive .string) : nonStrings (m :: ms) = nonStrings ms :=
  List.filter_cons_of_neg (by simpa using h)

theorem nonStrings_cons_of_ne {m : NativeType} {ms : List NativeType}
    (h : m.unadorned ≠ .primitive .string) : nonStrings (m :: ms) = m :: nonStrings ms :=
  List.filter_cons_of_pos (by simpa using h)

end NativeType

namespace Registry

variable {r : Registry} {t : NativeType} {name : String}

/-- **A name stands for a definition** when this is registered and bears the name. -/
theorem get?_eq_some_iff {d : Definition} : r.get? name = some d ↔ d ∈ r.types ∧ d.name = name := by
  constructor
  · intro h
    exact ⟨List.mem_of_find?_eq_some h, by simpa using List.find?_some h⟩
  · rintro ⟨hd, rfl⟩
    exact find?_eq_some_of_nodup_map r.nodup_names hd

theorem name_of_get? {d : Definition} (h : r.get? name = some d) : d.name = name :=
  (get?_eq_some_iff.mp h).2

theorem resolve_eq_ok_iff {d : Definition} : r.resolve name = .ok d ↔ r.get? name = some d := by
  unfold resolve
  cases r.get? name <;> simp

/-! ### What a type refers to -/

/-- **A reference refers to a definition** when the name that it mentions stands for it. -/
theorem referenced?_eq_some_iff {d : Definition} :
    r.referenced? t = some d ↔ ∃ name, t.referencedName? = some name ∧ r.get? name = some d :=
  Option.bind_eq_some_iff

/-- What a type refers to is registered under its own name, which the type mentions. -/
theorem get?_of_referenced? {d : Definition} (h : r.referenced? t = some d) :
    r.get? d.name = some d ∧ t.mentions = [d.name] := by
  obtain ⟨n, hn, hd⟩ := referenced?_eq_some_iff.mp h
  obtain rfl := name_of_get? hd
  exact ⟨hd, NativeType.mentions_of_referencedName? hn⟩

theorem entity?_eq_some_iff {e : Entity} :
    r.entity? t = some e ↔ r.referenced? t = some (.entity e) := by
  simp only [entity?, Option.bind_eq_some_iff, Definition.entity?_eq_some_iff, exists_eq_right]

theorem enumeration?_eq_some_iff {e : Enumeration} :
    r.enumeration? t = some e ↔ r.referenced? t = some (.enumeration e) := by
  simp only [enumeration?, Option.bind_eq_some_iff, Definition.enumeration?_eq_some_iff,
    exists_eq_right]

/-- A type that refers to something is not a built-in one. -/
theorem isPrimitive_of_referenced? {d : Definition} (h : r.referenced? t = some d) :
    t.isPrimitive = false := by
  cases t <;> first | rfl | cases h

/-- A reference has no annotations. -/
theorem unadorned_of_referenced? {d : Definition} (h : r.referenced? t = some d) :
    t.unadorned = t := by
  cases t <;> first | rfl | cases h

theorem isPrimitive_unadorned_of_referenced? {d : Definition} (h : r.referenced? t = some d) :
    t.unadorned.isPrimitive = false := by
  rw [unadorned_of_referenced? h]
  exact isPrimitive_of_referenced? h

/-- Annotations do not make a type simple or keep it from being so. -/
theorem isSimple_unadorned (r : Registry) : ∀ t : NativeType, r.isSimple t.unadorned = r.isSimple t
  | .annotated base _ => isSimple_unadorned r base
  | .primitive _ | .ref _ | .forward _ | .literal _ | .list _ | .union _ | .custom _ _ => rfl

theorem isSimple_of_enumeration? {e : Enumeration} (h : r.enumeration? t = some e) :
    r.isSimple t = true := by
  cases t with
  | ref _ | forward _ => rw [isSimple, h, Option.isSome_some]
  | _ => cases h

/-- **Simple types** are the built-in ones and enumerations, whatever annotations they have. -/
theorem isSimple_iff : r.isSimple t = true ↔
    (∃ p, t.unadorned = .primitive p) ∨ ∃ e, r.enumeration? t.unadorned = some e := by
  rw [← isSimple_unadorned]
  have hne := fun base as => NativeType.unadorned_ne_annotated base as (t := t)
  generalize t.unadorned = u at hne ⊢
  cases u with
  | ref name | forward name => simp [isSimple, Option.isSome_iff_exists]
  | annotated base as => exact absurd rfl (hne base as)
  | _ => simp [isSimple, NativeType.isPrimitive, enumeration?, referenced?,
      NativeType.referencedName?]

/-- A reference to an entity or to a struct is not simple. -/
theorem isSimple_of_referenced? {d : Definition} (h : r.referenced? t = some d)
    (hd : d.enumeration? = none) : r.isSimple t = false := by
  cases t with
  | ref _ | forward _ => simp [isSimple, enumeration?, h, hd]
  | _ => cases h

/-! ### Keys of entities -/

theorem keyField_eq_ok_iff {e : Entity} {f : Field} :
    keyField e = .ok f ↔ e.keyField? = some f := by
  unfold keyField
  cases e.keyField? <;> simp

/-- The key field is a field of its entity and bears the name of the key. -/
theorem mem_of_keyField {e : Entity} {f : Field} (h : keyField e = .ok f) :
    f ∈ e.fields ∧ f.name = e.primaryKey := by
  have hf : e.fields.find? (fun f => f.name = e.primaryKey) = some f := keyField_eq_ok_iff.mp h
  exact ⟨List.mem_of_find?_eq_some hf, by simpa using List.find?_some hf⟩

/-! ### Extensible enumerations -/

section Extensible

open NativeType (nonStrings nonStrings_cons_of_eq nonStrings_cons_of_ne)

variable {found : Option Enumeration} {e : Enumeration} {m : NativeType} {ms : List NativeType}

/-- Strings are passed over. -/
theorem soleEnumeration?_cons_of_eq (h : m.unadorned = .primitive .string) :
    r.soleEnumeration? found (m :: ms) = r.soleEnumeration? found ms := by
  rw [soleEnumeration?.eq_def]
  exact if_pos h

/-- Any other member is the first one and refers to an enumeration, or there is none. -/
theorem soleEnumeration?_cons_of_ne (h : m.unadorned ≠ .primitive .string) :
    r.soleEnumeration? found (m :: ms) =
      if found = none then (r.enumeration? m).bind fun e => r.soleEnumeration? (some e) ms
      else none := by
  rw [soleEnumeration?.eq_def]
  cases found <;> cases he : r.enumeration? m <;> simp [h, he]

/-- An enumeration that has been seen is the only one if strings follow. -/
theorem soleEnumeration?_some_iff {seen : Enumeration} :
    r.soleEnumeration? (some seen) ms = some e ↔ seen = e ∧ nonStrings ms = [] := by
  induction ms with
  | nil => simp [soleEnumeration?, nonStrings]
  | cons m ms ih =>
    by_cases h : m.unadorned = .primitive .string
    · rw [soleEnumeration?_cons_of_eq h, nonStrings_cons_of_eq h, ih]
    · rw [soleEnumeration?_cons_of_ne h, nonStrings_cons_of_ne h]
      simp

/-- **The enumeration of an extensible enumeration** is what the only member of the union that is
no string refers to. -/
theorem extensible?_union_eq_some_iff :
    r.extensible? (.union ms) = some e ↔
      ∃ m, nonStrings ms = [m] ∧ r.enumeration? m = some e := by
  rw [extensible?]
  induction ms with
  | nil => simp [soleEnumeration?, nonStrings]
  | cons m ms ih =>
    by_cases h : m.unadorned = .primitive .string
    · rw [soleEnumeration?_cons_of_eq h, nonStrings_cons_of_eq h, ih]
    · rw [soleEnumeration?_cons_of_ne h, nonStrings_cons_of_ne h, if_pos rfl]
      simp only [Option.bind_eq_some_iff, soleEnumeration?_some_iff, List.cons.injEq]
      constructor
      · rintro ⟨_, he, rfl, hrest⟩
        exact ⟨m, ⟨rfl, hrest⟩, he⟩
      · rintro ⟨_, ⟨rfl, hrest⟩, he⟩
        exact ⟨e, he, rfl, hrest⟩

/-- The members of an extensible enumeration are simple types. -/
theorem isSimple_of_extensible? (h : r.extensible? (.union ms) = some e) (hm : m ∈ ms) :
    r.isSimple m = true := by
  obtain ⟨found, hfound, he⟩ := extensible?_union_eq_some_iff.mp h
  by_cases hstring : m.unadorned = .primitive .string
  · rw [← isSimple_unadorned, hstring]
    rfl
  · have hmem : m ∈ nonStrings ms := List.mem_filter.mpr ⟨hm, by simpa using hstring⟩
    rw [hfound, List.mem_singleton] at hmem
    exact isSimple_of_enumeration? (hmem ▸ he)

/-- Only unions extend an enumeration, to which one of their members refers. -/
theorem extensible?_eq_some (h : r.extensible? t = some e) :
    ∃ ms, t = .union ms ∧ ∃ m ∈ ms, r.enumeration? m = some e := by
  cases t with
  | union ms =>
    obtain ⟨m, hm, he⟩ := extensible?_union_eq_some_iff.mp h
    have hmem : m ∈ nonStrings ms := hm ▸ List.mem_singleton_self m
    exact ⟨ms, rfl, m, (List.mem_filter.mp hmem).1, he⟩
  | _ => cases h

/-- The members of an extensible enumeration are simple types. -/
theorem extensible?_eq_none (hm : m ∈ ms) (hsimple : r.isSimple m = false) :
    r.extensible? (.union ms) = none := by
  cases h : r.extensible? (.union ms) with
  | none => rfl
  | some e =>
    rw [isSimple_of_extensible? h hm] at hsimple
    cases hsimple

end Extensible

end Registry

end SchemaCatalog
