import SchemaCatalog.Proofs.Assembly.Uses
import SchemaCatalog.Proofs.Converter.FreeName
import SchemaCatalog.Proofs.Converter.NamesStruct

/-!
# Names that stand for enumerations

A name may stand for an enumeration and for nothing else (`EnumName`). Where the data type of a
field refers to such a name, the enumeration is no small one and some field that is reached uses it
plainly: the field itself, or the key of an entity that it refers to
(`usedInReach_of_mapMember`). An extensible enumeration, at any depth, has the type of lookup keys
and refers to no name that stands for an enumeration.
-/

namespace SchemaCatalog

/-- What is plainly used is mentioned. -/
theorem PlainlyUses.mem_mentions {r : Registry} {e : Enumeration} {t : NativeType}
    (h : PlainlyUses r e t) : e.name ∈ t.mentions := by
  induction h with
  | reference he =>
    have hmentions := (Registry.get?_of_referenced? (Registry.enumeration?_eq_some_iff.mp he)).2
    exact hmentions ▸ List.mem_singleton_self _
  | annotated _ ih | list _ ih => exact ih
  | union _ hm _ ih => exact NativeType.mentions_subset_mentionsAll hm ih

/-- A type with annotations uses plainly what it is without them. -/
theorem PlainlyUses.of_unadorned {r : Registry} {e : Enumeration} :
    ∀ {t : NativeType}, r.enumeration? t.unadorned = some e → PlainlyUses r e t
  | .annotated base _, h => .annotated (PlainlyUses.of_unadorned (t := base) h)
  | .primitive _, h | .ref _, h | .forward _, h | .literal _, h | .list _, h | .union _, h
  | .custom _ _, h => .reference h

namespace Converter

/-- The name of an enumeration that **stands for the enumeration only**. -/
structure EnumName (c : Converter) (e : Enumeration) (n : QualifiedName) : Prop
    extends FreeName c n where
  /-- The enumeration is registered. -/
  get? : c.registry.get? e.name = some (.enumeration e)
  /-- The name is that of the enumeration. -/
  qualifiedName : c.qualifiedName e.moduleName e.name = .ok n
  /-- No type without definition bears the name. -/
  custom : ∀ d ∈ c.registry.types, ∀ f ∈ d.fields, ∀ u ∈ f.type.customs,
    c.qualifiedName u.1 u.2 ≠ .ok n

/-- An enumeration is **used in reach** when a field of a definition that is reached uses it
plainly. -/
def UsedInReach (c : Converter) (roots : List String) (e : Enumeration) : Prop :=
  ∃ owner, c.registry.ReachesDefinition roots owner ∧
    ∃ f ∈ owner.fields, PlainlyUses c.registry e f.type

variable {c : Converter} {e : Enumeration} {n : QualifiedName} {t : NativeType} {d : DataType}
  {roots : List String}

namespace EnumName

variable (hn : c.EnumName e n)
include hn

/-- Of all definitions only the enumeration has its name, since names stay apart. -/
theorem eq_of_qualifiedName {d : Definition} (hget : c.registry.get? d.name = some d)
    (h : c.qualifiedName d.moduleName d.name = .ok n) : d = .enumeration e :=
  definition_of_qualifiedName (b := .enumeration e) hget hn.get? h hn.qualifiedName

/-- Of all enumerations only the one that the name stands for refers to it, and it is not small. -/
theorem eq_of_mapEnum {e' : Enumeration} (hget : c.registry.get? e'.name = some (.enumeration e'))
    (h : c.mapEnum e' = .ok d) (hd : d.named? = some n) : e' = e ∧ c.isSmall e = false := by
  unfold mapEnum at h
  split at h
  · cases h
    exact absurd hd (hn.named?_mapPrimitive _)
  · rename_i hsmall
    split at h
    · obtain ⟨m, hm, h⟩ := bind_eq_ok_iff.mp h
      cases pure_eq_ok_iff.mp h
      cases hd
      cases hn.eq_of_qualifiedName (d := .enumeration e') hget hm
      exact ⟨rfl, Bool.eq_false_iff.mpr hsmall⟩
    · cases h
      cases hd
    · cases h
      exact absurd hd (hn.named?_mapPrimitive _)
    · exact absurd hd (hn.named?_mapEnumValues h)

theorem enumeration?_of_mapEnum {u : NativeType} {e' : Enumeration}
    (he : c.registry.enumeration? u = some e') (h : c.mapEnum e' = .ok d)
    (hd : d.named? = some n) : c.registry.enumeration? u = some e ∧ c.isSmall e = false := by
  have hget := (Registry.get?_of_referenced? (Registry.enumeration?_eq_some_iff.mp he)).1
  obtain ⟨rfl, hsmall⟩ := hn.eq_of_mapEnum hget h hd
  exact ⟨he, hsmall⟩

theorem plainlyUses_of_mapSimple (h : c.mapSimple t = .ok d) (hd : d.named? = some n) :
    PlainlyUses c.registry e t ∧ c.isSmall e = false := by
  obtain ⟨e', he, h⟩ := hn.exists_of_mapSimpleWith h hd
  obtain ⟨he, hsmall⟩ := hn.enumeration?_of_mapEnum he h hd
  exact ⟨.of_unadorned he, hsmall⟩

theorem plainlyUses_of_mapSimpleArray {item : NativeType} (h : c.mapSimpleArray t item = .ok d)
    (hd : d.named? = some n) : PlainlyUses c.registry e item ∧ c.isSmall e = false := by
  unfold mapSimpleArray at h
  split at h
  · split at h
    · cases h
    · split at h <;> obtain ⟨element, helement, rfl⟩ := map_eq_ok_iff.mp h <;>
        rw [DataType.named?_array] at hd
      · exact absurd hd (hn.named?_mapEnumValues helement)
      · exact hn.plainlyUses_of_mapSimple helement hd
  · obtain ⟨element, helement, rfl⟩ := map_eq_ok_iff.mp h
    exact hn.plainlyUses_of_mapSimple helement hd

theorem plainlyUses_of_mapList {item : NativeType} (h : c.mapList t item = .ok d)
    (hcustom : ∀ u ∈ item.customs, c.qualifiedName u.1 u.2 ≠ .ok n) (hd : d.named? = some n) :
    PlainlyUses c.registry e item ∧ c.isSmall e = false := by
  unfold mapList at h
  split at h
  · split at h
    · exact hn.plainlyUses_of_mapSimpleArray h hd
    · cases h
      exact absurd hd (hn.named?_mapPrimitive _)
  · rename_i hsimple
    split at h
    · cases h
    · obtain ⟨m, hm, h⟩ := bind_eq_ok_iff.mp h
      split at h <;> cases pure_eq_ok_iff.mp h
      · cases hd
        -- items that are not simple are none of an enumeration
        cases item with
        | ref name | forward name =>
          obtain ⟨found, hfound, hm⟩ := bind_eq_ok_iff.mp hm
          have hget := Registry.resolve_eq_ok_iff.mp hfound
          have hname := Registry.name_of_get? hget
          rw [hn.eq_of_qualifiedName (hname ▸ hget) hm] at hget
          refine absurd ?_ hsimple
          exact Registry.isSimple_of_enumeration? (Registry.enumeration?_eq_some_iff.mpr
            (Registry.referenced?_eq_some_iff.mpr ⟨name, rfl, hget⟩))
        | custom moduleName name => exact absurd hm (hcustom _ (List.mem_singleton_self _))
        | _ => cases hm
      · exact absurd hd (hn.named?_mapPrimitive _)

section Keys

variable {ofKey : NativeType → Except ConvertError DataType}
  (hof : ∀ owner key d, c.registry.ReachesDefinition roots (.entity owner) →
    Registry.keyField owner = .ok key → ofKey key.type = .ok d → d.named? = some n →
      c.UsedInReach roots e ∧ c.isSmall e = false)
include hof

/-- A reference whose data type has the name of the enumeration refers to it, or to an entity whose
key leads to it. -/
theorem used_of_mapReference {name : String} (hname : t.referencedName? = some name)
    (hreach : c.registry.Reaches roots name) (h : c.mapReference ofKey name = .ok d)
    (hd : d.named? = some n) :
    (PlainlyUses c.registry e t ∨ c.UsedInReach roots e) ∧ c.isSmall e = false := by
  obtain ⟨found, hfound, h⟩ := bind_eq_ok_iff.mp h
  have hget := Registry.resolve_eq_ok_iff.mp hfound
  have href : c.registry.referenced? t = some found :=
    Registry.referenced?_eq_some_iff.mpr ⟨name, hname, hget⟩
  have hfound_name := Registry.name_of_get? hget
  rw [← hfound_name] at hget hreach
  cases found with
  | enumeration e' =>
    have he := Registry.enumeration?_eq_some_iff.mpr href
    obtain ⟨he, hsmall⟩ := hn.enumeration?_of_mapEnum he h hd
    exact ⟨Or.inl (.reference he), hsmall⟩
  | entity owner =>
    obtain ⟨key, hkey, h⟩ := bind_eq_ok_iff.mp h
    exact (hof owner key d ⟨hget, hreach⟩ hkey h hd).imp_left Or.inr
  | struct s =>
    dsimp only at h
    split at h
    · obtain ⟨m, hm, h⟩ := bind_eq_ok_iff.mp h
      cases pure_eq_ok_iff.mp h
      cases hd
      cases hn.eq_of_qualifiedName (d := .struct s) hget hm
    · cases pure_eq_ok_iff.mp h
      exact absurd hd (hn.named?_mapPrimitive _)

omit hn in
theorem used_of_mapDiscriminated {members : List NativeType} {m : NativeType} (hm : m ∈ members)
    {owner : Entity} (howner : c.registry.entity? m = some owner)
    (hreach : ∀ name ∈ m.mentions, c.registry.Reaches roots name)
    (h : c.mapDiscriminated ofKey t members = .ok d) (hd : d.named? = some n) :
    c.UsedInReach roots e ∧ c.isSmall e = false := by
  obtain ⟨key, hkey, h⟩ := exists_keyField_of_mapDiscriminated h hm howner
  have howner := Registry.entity?_eq_some_iff.mp howner
  exact hof owner key d (Registry.reachesDefinition_of_referenced? hreach howner) hkey h hd

/-- A type whose data type refers to the enumeration uses it plainly, or the key of an entity
does, if this holds of the keys. -/
theorem used_of_mapMemberWith {t : NativeType} {d : DataType}
    (hcustom : ∀ u ∈ t.customs, c.qualifiedName u.1 u.2 ≠ .ok n)
    (hreach : ∀ name ∈ t.mentions, c.registry.Reaches roots name)
    (h : c.mapMemberWith ofKey t = .ok d) (hd : d.named? = some n) :
    (PlainlyUses c.registry e t ∨ c.UsedInReach roots e) ∧ c.isSmall e = false := by
  cases hs : c.options.substitute? t with
  | some d' =>
    unfold mapMemberWith at h
    rw [hs] at h
    cases h
    exact absurd hd (hn.named?_substitute? hs)
  | none =>
    match t with
    | .primitive p =>
      rw [mapMemberWith, hs] at h
      cases h
      exact absurd hd (hn.named?_mapPrimitive p)
    | .literal values =>
      rw [mapMemberWith, hs] at h
      exact absurd hd (hn.named?_mapLiteral h)
    | .custom moduleName name =>
      rw [mapMemberWith, hs] at h
      obtain ⟨m, hm, h⟩ := bind_eq_ok_iff.mp h
      cases pure_eq_ok_iff.mp h
      cases hd
      exact absurd hm (hcustom _ (List.mem_singleton_self _))
    | .ref name | .forward name =>
      rw [mapMemberWith_reference rfl hs] at h
      exact hn.used_of_mapReference hof rfl (hreach name (List.mem_singleton_self _)) h hd
    | .list item =>
      rw [mapMemberWith, hs] at h
      change c.mapList (.list item) item = .ok d at h
      obtain ⟨hitem, hsmall⟩ := hn.plainlyUses_of_mapList h hcustom hd
      exact ⟨Or.inl (.list hitem), hsmall⟩
    | .annotated base as =>
      rw [mapMemberWith_annotated hs] at h
      split at h
      · exact (hn.plainlyUses_of_mapSimple h hd).imp_left Or.inl
      · split at h
        · exact (used_of_mapMemberWith (t := base) hcustom hreach h hd).imp_left
            (Or.imp_left .annotated)
        · cases h
    | .union [] =>
      rw [mapMemberWith_union hs] at h
      cases h
    | .union (m :: ms) =>
      have hreach : ∀ name ∈ m.mentions, c.registry.Reaches roots name :=
        fun name hname => hreach name (List.mem_append_left _ hname)
      rcases mapMemberWith_union_cases hs h with
        ⟨-, -, rfl⟩ | ⟨-, hall, h⟩ | ⟨hextensible, types, htypes, h⟩
      · exact absurd hd (hn.named?_mapPrimitive _)
      · obtain ⟨owner, howner⟩ := Option.isSome_iff_exists.mp (hall m List.mem_cons_self)
        exact (used_of_mapDiscriminated hof List.mem_cons_self howner hreach h hd).imp_left
          Or.inr
      -- the common type refers to what the type of the first member refers to
      · obtain ⟨d', hd', hnamed⟩ := exists_mapMemberWith_of_common htypes h List.mem_cons_self
        have hcustom : ∀ u ∈ m.customs, c.qualifiedName u.1 u.2 ≠ .ok n :=
          fun u hu => hcustom u (List.mem_append_left _ hu)
        exact (used_of_mapMemberWith hcustom hreach hd' (hnamed.trans hd)).imp_left
          (Or.imp_left (.union hextensible List.mem_cons_self))

end Keys

/-- However deep keys are followed, a data type with the name of the enumeration comes of a type
that uses it. -/
theorem used_of_mapMemberAlong {keys : List NativeType} {t : NativeType} {d : DataType}
    (hcustom : ∀ u ∈ t.customs, c.qualifiedName u.1 u.2 ≠ .ok n)
    (hreach : ∀ name ∈ t.mentions, c.registry.Reaches roots name)
    (h : c.mapMemberAlong keys t = .ok d) (hd : d.named? = some n) :
    (PlainlyUses c.registry e t ∨ c.UsedInReach roots e) ∧ c.isSmall e = false := by
  rw [mapMemberAlong_eq] at h
  refine hn.used_of_mapMemberWith (fun owner key d howner hkey h hd => ?_) hcustom hreach h hd
  unfold keyAlong at h
  split at h
  · have hfield := (Registry.mem_of_keyField hkey).1
    have hcustom := hn.custom _ (Registry.get?_eq_some_iff.mp howner.1).1 _ hfield
    obtain ⟨hused, hsmall⟩ :=
      used_of_mapMemberAlong hcustom (fun _ hname => howner.reaches hfield hname) h hd
    refine ⟨?_, hsmall⟩
    rcases hused with hplain | hused
    · exact ⟨_, howner, key, hfield, hplain⟩
    · exact hused
  · cases h
termination_by keys.length
decreasing_by exact length_otherKeys_lt ‹_›

/-- **What the data type of a field refers to**: an enumeration that is used in reach and is not
small. -/
theorem usedInReach_of_mapMember {owner : Definition}
    (howner : c.registry.ReachesDefinition roots owner) {f : Field} (hfield : f ∈ owner.fields)
    (h : c.mapMember f.type = .ok d) (hd : d.named? = some n) :
    c.UsedInReach roots e ∧ c.isSmall e = false := by
  have hcustom := hn.custom _ (Registry.get?_eq_some_iff.mp howner.1).1 _ hfield
  obtain ⟨hused, hsmall⟩ :=
    hn.used_of_mapMemberAlong hcustom (fun _ hname => howner.reaches hfield hname) h hd
  refine ⟨?_, hsmall⟩
  rcases hused with hplain | hused
  · exact ⟨owner, howner, f, hfield, hplain⟩
  · exact hused

end EnumName

end Converter

end SchemaCatalog
