import SchemaCatalog.Proofs.Converter.IntegerRange

/-!
# Whether columns have room for declared texts

A type may declare the texts that a column holds: as literals, or as the labels of an enumeration
that is checked (`Declares`). Where settings substitute nothing and ignore no annotations, the
column of a literal type has the length of its longest literal, and that of an enumeration has the
limit of labels, whatever its labels are. So the limit of a column is at least that of each declared
text (`limit_le_of_mapMember`), and, if its type does nothing but declare texts, that of labels or
that of a literal (`limit_eq_of_mapMember`). Literals thus have room, as long as their length fits a
limit, while a label may be too long (`hasRoom_iff_of_mapMember`).
-/

namespace SchemaCatalog

namespace DataType

variable {a b d : DataType} {types : List DataType} {n : UInt32}

/-- The limit of a character type that has one. -/
def characterLimit? : DataType → Option UInt32
  | fixedCharacter limit | variableCharacter limit => limit
  | _ => none

/-- What widens to a limited character type is one of at most this limit. -/
theorem exists_characterLimit?_of_widens (h : Widens a b) (hb : b.characterLimit? = some n) :
    ∃ m, a.characterLimit? = some m ∧ m ≤ n := by
  cases h with
  | refl => exact ⟨n, hb, UInt32.le_refl n⟩
  | @fixedCharacter l r hle | @varyingCharacter l r hle | @variableCharacter l r hle =>
    cases (show r = some n from hb)
    cases l with
    | none => cases hle
    | some m => exact ⟨m, rfl, hle⟩
  | _ => cases hb

/-- Where the common type is a limited character type, so is each of the types. -/
theorem exists_characterLimit?_of_common? (h : common? types = .ok b)
    (hb : b.characterLimit? = some n) (ha : a ∈ types) :
    ∃ m, a.characterLimit? = some m ∧ m ≤ n := by
  have hbound := ((common?_eq_ok_iff_isLUB (List.ne_nil_of_mem ha)).mp h).1 ha
  exact exists_characterLimit?_of_widens (le_iff_widens.mp hbound) hb

theorem eq_or_eq_of_maxLimit {l r : Option UInt32} (h : maxLimit l r = some n) :
    l = some n ∨ r = some n := by
  match l, r with
  | some l, some r =>
    simp only [maxLimit, Option.some.injEq, UInt32.max_def] at h ⊢
    split at h
    · exact Or.inr h
    · exact Or.inl h
  | none, _ | some _, none => cases h

/-- The limit of the common type of two is that of one of them. -/
theorem characterLimit?_of_join? (h : join? a b = some d) (hd : d.characterLimit? = some n) :
    a.characterLimit? = some n ∨ b.characterLimit? = some n := by
  unfold join? at h
  split at h
  · cases h
    exact Or.inl hd
  · cases a <;> cases b <;> cases h <;> first | cases hd | exact eq_or_eq_of_maxLimit hd

/-- The limit of the common type is that of one of the types. -/
theorem exists_mem_of_common? (h : common? types = .ok d) (hd : d.characterLimit? = some n) :
    ∃ a ∈ types, a.characterLimit? = some n := by
  cases types with
  | nil => cases h
  | cons a as =>
    rw [common?_eq_ok_iff] at h
    induction as generalizing a with
    | nil => exact ⟨a, List.mem_singleton_self a, Option.some.inj h ▸ hd⟩
    | cons b as ih =>
      rw [List.foldlM_cons] at h
      obtain ⟨u, hu, h⟩ := Option.bind_eq_some_iff.mp h
      obtain ⟨x, hx, hn⟩ := ih u h
      rcases List.mem_cons.mp hx with rfl | hx
      · rcases characterLimit?_of_join? hu hn with ha | hb
        · exact ⟨a, by simp, ha⟩
        · exact ⟨b, by simp, hb⟩
      · exact ⟨x, by simp [hx], hn⟩

end DataType

/-- A text that a type **declares**. -/
inductive DeclaredText where
  /-- A literal. -/
  | literal (s : String)
  /-- The label of an enumeration. -/
  | label (s : String)

namespace DeclaredText

/-- The text itself. -/
def text : DeclaredText → String
  | literal s | label s => s

/-- The limit of the column that is made for a text: its own length if it is a literal, and the one
limit of labels otherwise. -/
def limit : DeclaredText → UInt32
  | literal s => Converter.literalLimit s
  | label _ => Converter.labelLimit

end DeclaredText

namespace Converter

variable {c : Converter} {t : NativeType} {x : DeclaredText} {d : DataType} {n : UInt32}

/-- The texts that a type **declares**. -/
inductive Declares (c : Converter) : NativeType → DeclaredText → Prop
  /-- A literal. -/
  | literal {values : List Literal} {s : String} : .str s ∈ values →
    Declares c (.literal values) (.literal s)
  /-- The label of an enumeration that is checked. -/
  | enumeration {t : NativeType} {e : Enumeration} {s : String} : c.options.enumMode = .check →
    c.registry.enumeration? t = some e → .str s ∈ e.values → Declares c t (.label s)
  /-- Annotations do not matter. -/
  | annotated {base : NativeType} {as : List Annotation} {x : DeclaredText} : Declares c base x →
    Declares c (.annotated base as) x
  /-- What a member of a union declares. -/
  | union {members : List NativeType} {m : NativeType} {x : DeclaredText} :
    c.registry.extensible? (.union members) = none → m ∈ members → Declares c m x →
      Declares c (.union members) x

/-- A type is **textual** when it does nothing but declare texts. -/
inductive IsTextual (c : Converter) : NativeType → Prop
  /-- A literal type of strings. -/
  | literal {values : List Literal} : (∀ v ∈ values, v.isString = true) →
    IsTextual c (.literal values)
  /-- An enumeration of strings that is checked. -/
  | enumeration {t : NativeType} {e : Enumeration} : c.options.enumMode = .check →
    c.registry.enumeration? t = some e → (∀ v ∈ e.values, v.isString = true) → IsTextual c t
  /-- A textual type with annotations. -/
  | annotated {base : NativeType} {as : List Annotation} : IsTextual c base →
    IsTextual c (.annotated base as)
  /-- A union of textual types. -/
  | union {members : List NativeType} : (∀ m ∈ members, IsTextual c m) →
    IsTextual c (.union members)

theorem Declares.isPrimitive_unadorned (h : c.Declares t x) :
    t.unadorned.isPrimitive = false := by
  induction h with
  | literal | union => rfl
  | enumeration _ he =>
    exact Registry.isPrimitive_unadorned_of_referenced? (Registry.enumeration?_eq_some_iff.mp he)
  | annotated _ ih => exact ih

theorem IsTextual.isPrimitive_unadorned (h : c.IsTextual t) :
    t.unadorned.isPrimitive = false := by
  induction h with
  | literal | union => rfl
  | enumeration _ he =>
    exact Registry.isPrimitive_unadorned_of_referenced? (Registry.enumeration?_eq_some_iff.mp he)
  | annotated _ ih => exact ih

/-- A column with a limit has **room** for a type when every declared text is within the limit. -/
def HasRoom (n : UInt32) (c : Converter) (t : NativeType) : Prop :=
  ∀ x, c.Declares t x → x.text.length ≤ n.toNat

/-- A type is **brief** when the lengths of its literals are limits, and its labels are no longer
than labels may be, or than some literal. -/
structure IsBrief (c : Converter) (t : NativeType) : Prop where
  /-- The length of a literal is a limit. -/
  literal : ∀ s, c.Declares t (.literal s) → s.length < 2 ^ 32
  /-- A label is short enough, or there is a literal at least as long. -/
  label : ∀ s, c.Declares t (.label s) → s.length ≤ labelLimit.toNat ∨
    ∃ l, c.Declares t (.literal l) ∧ s.length ≤ l.length

/-- A type is brief when all that it declares is as short as labels have to be. -/
theorem isBrief_of_length_le (h : ∀ x, c.Declares t x → x.text.length ≤ labelLimit.toNat) :
    c.IsBrief t where
  literal s hs := (h _ hs).trans_lt (by decide)
  label s hs := Or.inl (h _ hs)

/-- A textual type is no entity. -/
theorem IsTextual.entity?_eq_none (h : c.IsTextual t) : c.registry.entity? t = none := by
  cases h with
  | literal | annotated | union => rfl
  | enumeration _ he =>
    rw [Registry.entity?, Registry.enumeration?_eq_some_iff.mp he]
    rfl

/-- The limit for a literal is its length, or one for the empty literal. -/
theorem toNat_literalLimit {s : String} (h : s.length < 2 ^ 32) :
    (literalLimit s).toNat = max s.length 1 := by
  have hlength : s.length.toUInt32.toNat = s.length := Nat.mod_eq_of_lt h
  rw [literalLimit, UInt32.max_def]
  split
  · rename_i hle
    rw [UInt32.le_iff_toNat_le, hlength] at hle
    exact (Nat.max_eq_right hle).symm
  · rename_i hle
    rw [UInt32.le_iff_toNat_le, hlength] at hle
    exact hlength.trans (Nat.max_eq_left (Nat.le_of_not_le hle)).symm

/-- A column of literals has room for each of them, where numbers and truth values are no
characters. -/
theorem literalLimit_le_of_mapLiteral (hint : (c.mapPrimitive .int).characterLimit? = none)
    (hbool : (c.mapPrimitive .bool).characterLimit? = none) {values : List Literal} {s : String}
    (hs : .str s ∈ values) (h : c.mapLiteral t values = .ok d)
    (hn : d.characterLimit? = some n) : literalLimit s ≤ n := by
  unfold mapLiteral at h
  rw [if_neg (by simpa using List.ne_nil_of_mem hs), mapError_eq_ok_iff] at h
  split at h
  · obtain ⟨m, hm, hle⟩ :=
      DataType.exists_characterLimit?_of_common? h hn (List.mem_map_of_mem hs)
    cases hm
    exact hle
  -- another value has no limit, and so no type in common with strings has one
  · next hmixed =>
    obtain ⟨v, hv, hother⟩ := List.all_eq_false.mp (eq_false_of_ne_true hmixed)
    obtain ⟨m, hm, -⟩ := DataType.exists_characterLimit?_of_common? h hn (List.mem_map_of_mem hv)
    cases v with
    | str _ => exact absurd rfl hother
    | int _ => cases hint.symm.trans hm
    | bool _ => cases hbool.symm.trans hm

section Plain

variable (hsub : c.options.substitutions = []) (hskip : c.options.skipAnnotations = [])
include hsub

/-- Keys of lookup tables are no characters. -/
theorem characterLimit?_enumKeyType : c.enumKeyType.characterLimit? = none := by
  rw [enumKeyType, mapPrimitive_of_nil hsub]
  unfold enumKeyPrimitive
  split
  · rw [standardType, narrowInteger]
    split <;> rfl
  all_goals rfl

include hskip in
/-- Labels are characters of the limit of labels. -/
theorem mapSimpleWith_labelType {ofEnum : Enumeration → Except ConvertError DataType} :
    c.mapSimpleWith ofEnum labelType = .ok (.varchar labelLimit) := by
  rw [labelType, NativeType.boundedString, mapSimpleWith_annotated (substitute?_of_nil hsub _),
    start?, substitute?_of_nil hsub]
  have hkept : c.options.skips (.maxLength labelLimit) = false := by
    rw [Options.skips, hskip]
    rfl
  simp only [NativeType.annotations, List.nil_append, refine, hkept]
  rfl

include hskip in
/-- An enumeration that is checked has the limit of labels, if any. -/
theorem eq_labelLimit_of_mapEnum {e : Enumeration} (hmode : c.options.enumMode = .check)
    (h : c.mapEnum e = .ok d) (hn : d.characterLimit? = some n) : n = labelLimit := by
  rw [mapEnum, isSmall, hmode] at h
  obtain ⟨u, hu, h⟩ := bind_eq_ok_iff.mp h
  rcases enumValueType_eq_ok hu with rfl | ⟨hstring, v, -, rfl⟩
  · rw [mapSimpleWith_labelType hsub hskip] at h
    cases h
    exact (Option.some.inj hn).symm
  -- other values are no characters
  · cases v with
    | str _ => exact absurd rfl hstring
    | int _ | bool _ =>
      rw [mapSimpleWith_of_unadorned rfl, substitute?_of_nil hsub] at h
      cases h
      rw [mapPrimitive_of_nil hsub] at hn
      cases hn

omit hsub in
/-- The limit of a column of literals is that of one of them. -/
theorem exists_eq_literalLimit_of_mapLiteral {values : List Literal}
    (hvalues : ∀ v ∈ values, v.isString = true) (h : c.mapLiteral t values = .ok d)
    (hn : d.characterLimit? = some n) : ∃ s, .str s ∈ values ∧ n = literalLimit s := by
  unfold mapLiteral at h
  split at h
  · cases h
  · rw [mapError_eq_ok_iff, if_pos (List.all_eq_true.mpr hvalues)] at h
    obtain ⟨a, ha, hlimit⟩ := DataType.exists_mem_of_common? h hn
    obtain ⟨v, hv, rfl⟩ := List.mem_map.mp ha
    have hstring := hvalues v hv
    cases v with
    | str s => exact ⟨s, hv, (Option.some.inj hlimit).symm⟩
    | _ => cases hstring

include hskip in
/-- **A column has the limit of each declared text**, or a larger one. -/
theorem limit_le_of_mapMember (h : c.Declares t x) (hd : c.mapMember t = .ok d)
    (hn : d.characterLimit? = some n) : x.limit ≤ n := by
  -- annotations go first, so that the induction is on types without them
  replace hd := mapMember_unadorned_of_isPrimitive hsub h.isPrimitive_unadorned hd
  induction h generalizing d n with
  | @literal values s hs =>
    exact literalLimit_le_of_mapLiteral (by rw [mapPrimitive_of_nil hsub]; rfl)
      (by rw [mapPrimitive_of_nil hsub]; rfl) hs ((mapMember_literal hsub values).symm.trans hd) hn
  | enumeration hmode he hs =>
    rw [eq_labelLimit_of_mapEnum hsub hskip hmode (mapEnum_of_mapMember hsub he hd) hn]
    exact UInt32.le_refl _
  | annotated _ ih => exact ih hn hd
  | @union members m x hnone hm hx ih =>
    obtain ⟨types, d', hcommon, hd', hmapped⟩ := exists_mapMember_of_union hm
      (substitute?_of_nil hsub _) hnone (substitute?_of_nil hsub m) hd
    obtain ⟨l, hl, hle⟩ := DataType.exists_characterLimit?_of_common? hcommon hn hd'
    have hplain := mapMember_unadorned_of_isPrimitive hsub hx.isPrimitive_unadorned hmapped
    exact UInt32.le_trans (ih hl hplain) hle

include hskip in
/-- **The limit of a textual column** is that of labels or of a literal. -/
theorem limit_eq_of_mapMember (h : c.IsTextual t) (hd : c.mapMember t = .ok d)
    (hn : d.characterLimit? = some n) :
    n = labelLimit ∨ ∃ s, c.Declares t (.literal s) ∧ n = literalLimit s := by
  replace hd := mapMember_unadorned_of_isPrimitive hsub h.isPrimitive_unadorned hd
  induction h generalizing d n with
  | @literal values hvalues =>
    obtain ⟨s, hs, hlimit⟩ := exists_eq_literalLimit_of_mapLiteral hvalues
      ((mapMember_literal hsub values).symm.trans hd) hn
    exact Or.inr ⟨s, .literal hs, hlimit⟩
  | enumeration hmode he hvalues =>
    exact Or.inl (eq_labelLimit_of_mapEnum hsub hskip hmode (mapEnum_of_mapMember hsub he hd) hn)
  | annotated _ ih => exact (ih hn hd).imp_right (Exists.imp fun _ => And.imp_left .annotated)
  | @union members hmembers ih =>
    have hd : c.mapMember (.union members) = .ok d := hd
    rw [mapMember, mapMemberAlong_eq] at hd
    rcases mapMemberWith_union_cases (substitute?_of_nil hsub _) hd with
      ⟨e, -, rfl⟩ | ⟨-, hentities, hd⟩ | ⟨hnone, types, htypes, hcommon⟩
    · rw [characterLimit?_enumKeyType hsub] at hn
      cases hn
    · cases members with
      | nil => cases hd
      | cons m ms =>
        have hentity := hentities m List.mem_cons_self
        rw [(hmembers m List.mem_cons_self).entity?_eq_none] at hentity
        cases hentity
    · obtain ⟨d', hd', hlimit⟩ := DataType.exists_mem_of_common? hcommon hn
      obtain ⟨m, hm, hmapped⟩ := exists_of_mem_right htypes hd'
      have hmapped : c.mapMember m = .ok d' := by rwa [mapMember, mapMemberAlong_eq]
      have hplain := mapMember_unadorned_of_isPrimitive hsub
        (hmembers m hm).isPrimitive_unadorned hmapped
      exact (ih m hm hlimit hplain).imp_right
        (Exists.imp fun _ => And.imp_left (.union hnone hm))

include hskip in
/-- **When a column has room** for the texts that its type declares: when they are brief. -/
theorem hasRoom_iff_of_mapMember (h : c.IsTextual t) (hd : c.mapMember t = .ok d)
    (hn : d.characterLimit? = some n) : HasRoom n c t ↔ c.IsBrief t := by
  have hlower := fun x hx => UInt32.le_iff_toNat_le.mp
    (limit_le_of_mapMember hsub hskip (x := x) hx hd hn)
  constructor
  · intro hroom
    refine ⟨fun s hs => (hroom _ hs).trans_lt n.toNat_lt, fun s hs => ?_⟩
    have hfits : s.length ≤ n.toNat := hroom _ hs
    rcases limit_eq_of_mapMember hsub hskip h hd hn with rfl | ⟨l, hl, rfl⟩
    · exact Or.inl hfits
    · have hlength : l.length < 2 ^ 32 := (hroom _ hl).trans_lt (literalLimit l).toNat_lt
      rw [toNat_literalLimit hlength] at hfits
      have hone : 1 ≤ labelLimit.toNat := by decide
      rcases Nat.le_total l.length 1 with hle | hle
      · exact Or.inl (by omega)
      · exact Or.inr ⟨l, hl, by omega⟩
  · intro hbrief x hx
    have of_literal : ∀ s, c.Declares t (.literal s) → s.length ≤ n.toNat := by
      intro s hs
      have hle := hlower _ hs
      rw [DeclaredText.limit, toNat_literalLimit (hbrief.literal s hs)] at hle
      omega
    cases x with
    | literal s => exact of_literal s hx
    | label s =>
      rcases hbrief.label s hx with hle | ⟨l, hl, hle⟩
      · exact hle.trans (hlower _ hx)
      · exact hle.trans (of_literal l hl)

end Plain

end Converter

end SchemaCatalog
