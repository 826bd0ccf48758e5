import SchemaCatalog.Proofs.Converter.KeyType
import SchemaCatalog.Proofs.Converter.StructName
import SchemaCatalog.Proofs.Registry.Reachability

/-!
# Types that name structs

The data type of a field refers to a struct by name when its type does so where structs are types,
when it is a list of the struct where lists are arrays, or when this holds of a part of the type or
of the key of an entity that it refers to (`NamesStruct`). `named?_mapMember_iff` says that these
are the only ways in which a name that stands for a struct gets into the data type of a field. A
struct that is named is reached, by the type itself or by keys on the way
(`NamesStruct.reaches`), and the field has a column (`NamesStruct.isRelationship_eq_false`).
-/

namespace SchemaCatalog.Converter

/-- The type of a field **names a struct** when the data type of the field refers to the struct. -/
inductive NamesStruct (c : Converter) (s : Struct) : NativeType → Prop
  /-- A reference to the struct, where structs are types. -/
  | reference {t : NativeType} : c.options.substitute? t = none →
    t.referencedName? = some s.name → c.options.structMode = .type → NamesStruct c s t
  /-- A list of the struct, where lists are arrays, whatever structs are. -/
  | list {item : NativeType} : c.options.substitute? (.list item) = none →
    item.referencedName? = some s.name → c.options.arrayMode = .array →
      NamesStruct c s (.list item)
  /-- Annotations do not matter. -/
  | annotated {base : NativeType} {as : List Annotation} :
    c.options.substitute? (.annotated base as) = none → NamesStruct c s base →
      NamesStruct c s (.annotated base as)
  /-- A reference to an entity whose key names the struct. -/
  | key {t : NativeType} {e : Entity} {key : Field} : c.options.substitute? t = none →
    c.registry.entity? t = some e → Registry.keyField e = .ok key →
      NamesStruct c s key.type → NamesStruct c s t
  /-- A union with a member that names the struct. -/
  | union {members : List NativeType} {m : NativeType} :
    c.options.substitute? (.union members) = none → m ∈ members → NamesStruct c s m →
      NamesStruct c s (.union members)
  /-- A union of entities, one of which has a key that names the struct. -/
  | keys {members : List NativeType} {m : NativeType} {e : Entity} {key : Field} :
    c.options.substitute? (.union members) = none →
      (∀ m ∈ members, (c.registry.entity? m).isSome = true) → m ∈ members →
        c.registry.entity? m = some e → Registry.keyField e = .ok key →
          NamesStruct c s key.type → NamesStruct c s (.union members)

variable {c : Converter} {s : Struct} {n : QualifiedName} {t : NativeType} {d : DataType}

namespace NamesStruct

theorem substitute?_eq_none (h : c.NamesStruct s t) : c.options.substitute? t = none := by
  cases h <;> assumption

/-- What names a struct is neither a built-in type nor an enumeration. -/
theorem isSimple_eq_false (hget : c.registry.get? s.name = some (.struct s))
    (h : c.NamesStruct s t) : c.registry.isSimple t = false := by
  induction h with
  | reference _ href =>
    have href := Registry.referenced?_eq_some_iff.mpr ⟨_, href, hget⟩
    exact Registry.isSimple_of_referenced? href rfl
  | key _ he => exact Registry.isSimple_of_referenced? (Registry.entity?_eq_some_iff.mp he) rfl
  | annotated _ _ ih => exact ih
  | list | union | keys => rfl

theorem unadorned (h : c.NamesStruct s t) : c.NamesStruct s t.unadorned := by
  induction h with
  | @reference t hs href hmode =>
    cases t with
    | ref _ | forward _ => exact .reference hs href hmode
    | _ => cases href
  | @key t e key hs he hkey h =>
    cases t with
    | ref _ | forward _ => exact .key hs he hkey h
    | _ => cases he
  | annotated _ _ ih => exact ih
  | list hs href hmode => exact .list hs href hmode
  | union hs hm h => exact .union hs hm h
  | keys hs hall hm he hkey h => exact .keys hs hall hm he hkey h

end NamesStruct

/-! ### What the data type of a field refers to -/

namespace StructName

variable (hn : c.StructName s n)
include hn

/-- A reference to a definition of which the name is that of the struct is one to the struct. -/
theorem referencedName?_of_itemName {item : NativeType} (hcustom : ∀ u ∈ item.customs,
    c.qualifiedName u.1 u.2 ≠ .ok n) (h : c.itemName t item = .ok n) :
    item.referencedName? = some s.name := by
  cases item with
  | ref name | forward name =>
    obtain ⟨found, hfound, hfound_name⟩ := bind_eq_ok_iff.mp h
    have hget := Registry.resolve_eq_ok_iff.mp hfound
    have hname := Registry.name_of_get? hget
    rw [hn.eq_of_qualifiedName (hname ▸ hget) hfound_name] at hname
    exact congrArg some hname.symm
  | custom moduleName name => exact absurd h (hcustom _ (List.mem_singleton_self _))
  | _ => cases h

theorem named?_mapSimpleArray {item : NativeType} (h : c.mapSimpleArray t item = .ok d) :
    d.named? ≠ some n := by
  unfold mapSimpleArray at h
  split at h
  · split at h
    · cases h
    · split at h <;> obtain ⟨element, helement, rfl⟩ := map_eq_ok_iff.mp h <;>
        rw [DataType.named?_array]
      · exact hn.named?_mapEnumValues helement
      · exact hn.named?_mapSimple helement
  · obtain ⟨element, helement, rfl⟩ := map_eq_ok_iff.mp h
    rw [DataType.named?_array]
    exact hn.named?_mapSimple helement

/-- A list refers to the struct when its items are those of the struct and lists are arrays. -/
theorem referencedName?_of_mapList {item : NativeType} (h : c.mapList t item = .ok d)
    (hcustom : ∀ u ∈ item.customs, c.qualifiedName u.1 u.2 ≠ .ok n) (hd : d.named? = some n) :
    item.referencedName? = some s.name ∧ c.options.arrayMode = .array := by
  unfold mapList at h
  split at h
  · split at h
    · exact absurd hd (hn.named?_mapSimpleArray h)
    · cases h
      exact absurd hd (hn.named?_mapPrimitive _)
  · split at h
    · cases h
    · obtain ⟨m, hm, h⟩ := bind_eq_ok_iff.mp h
      split at h <;> cases pure_eq_ok_iff.mp h
      · cases hd
        exact ⟨hn.referencedName?_of_itemName hcustom hm, ‹_›⟩
      · exact absurd hd (hn.named?_mapPrimitive _)

section Keys

variable {ofKey : NativeType → Except ConvertError DataType}
  (hof : ∀ e key d, c.registry.get? e.name = some (.entity e) → Registry.keyField e = .ok key →
    ofKey key.type = .ok d → d.named? = some n → c.NamesStruct s key.type)
include hof

theorem namesStruct_of_mapReference (hs : c.options.substitute? t = none) {name : String}
    (hname : t.referencedName? = some name) (h : c.mapReference ofKey name = .ok d)
    (hd : d.named? = some n) : c.NamesStruct s t := by
  obtain ⟨found, hfound, h⟩ := bind_eq_ok_iff.mp h
  have href : c.registry.referenced? t = some found :=
    Registry.referenced?_eq_some_iff.mpr ⟨name, hname, Registry.resolve_eq_ok_iff.mp hfound⟩
  obtain ⟨hget, hmentions⟩ := Registry.get?_of_referenced? href
  cases found with
  | enumeration e => exact absurd hd (hn.named?_mapEnum hget h)
  | entity e =>
    obtain ⟨key, hkey, h⟩ := bind_eq_ok_iff.mp h
    exact .key hs (Registry.entity?_eq_some_iff.mpr href) hkey (hof e key d hget hkey h hd)
  | struct s' =>
    dsimp only at h
    split at h
    · obtain ⟨m, hm, h⟩ := bind_eq_ok_iff.mp h
      cases pure_eq_ok_iff.mp h
      cases hd
      cases hn.eq_of_qualifiedName (d := .struct s') hget hm
      rw [NativeType.mentions_of_referencedName? hname, List.singleton_inj] at hmentions
      exact .reference hs (hname.trans (congrArg some hmentions)) ‹_›
    · cases pure_eq_ok_iff.mp h
      exact absurd hd (hn.named?_mapPrimitive _)

/-- A type whose data type refers to the struct names it, if this holds of the keys. -/
theorem namesStruct_of_mapMemberWith {t : NativeType} {d : DataType}
    (hcustom : ∀ u ∈ t.customs, c.qualifiedName u.1 u.2 ≠ .ok n)
    (h : c.mapMemberWith ofKey t = .ok d) (hd : d.named? = some n) : c.NamesStruct s t := by
  cases hs : c.options.substitute? t with
  | some d' =>
    unfold mapMemberWith at h
    rw [hs] at h
    cases h
    exact absurd hd (hn.named?_substitute? hs)
  | none =>
    match t with
    | .primitive p =>
      rw [mapMemberWith, hs] at h
      cases h
      exact absurd hd (hn.named?_mapPrimitive p)
    | .literal values =>
      rw [mapMemberWith, hs] at h
      exact absurd hd (hn.named?_mapLiteral h)
    | .custom moduleName name =>
      rw [mapMemberWith, hs] at h
      obtain ⟨m, hm, h⟩ := bind_eq_ok_iff.mp h
      cases pure_eq_ok_iff.mp h
      cases hd
      exact absurd hm (hcustom _ (List.mem_singleton_self _))
    | .ref name | .forward name =>
      rw [mapMemberWith_reference rfl hs] at h
      exact hn.namesStruct_of_mapReference hof hs rfl h hd
    | .list item =>
      rw [mapMemberWith, hs] at h
      change c.mapList (.list item) item = .ok d at h
      obtain ⟨hitem, hmode⟩ := hn.referencedName?_of_mapList h hcustom hd
      exact .list hs hitem hmode
    | .annotated base as =>
      rw [mapMemberWith_annotated hs] at h
      split at h
      · exact absurd hd (hn.named?_mapSimple h)
      · split at h
        · exact .annotated hs (namesStruct_of_mapMemberWith hcustom h hd)
        · cases h
    | .union [] =>
      rw [mapMemberWith_union hs] at h
      cases h
    | .union (m :: ms) =>
      rcases mapMemberWith_union_cases hs h with
        ⟨-, -, rfl⟩ | ⟨-, hall, h⟩ | ⟨-, types, htypes, h⟩
      · exact absurd hd (hn.named?_mapPrimitive _)
      · obtain ⟨e, he⟩ := Option.isSome_iff_exists.mp (hall m List.mem_cons_self)
        obtain ⟨key, hkey, h⟩ := exists_keyField_of_mapDiscriminated h List.mem_cons_self he
        have hget := (Registry.get?_of_referenced? (Registry.entity?_eq_some_iff.mp he)).1
        exact .keys hs hall List.mem_cons_self he hkey (hof e key d hget hkey h hd)
      -- the common type refers to what the type of the first member refers to
      · obtain ⟨d', hd', hnamed⟩ := exists_mapMemberWith_of_common htypes h List.mem_cons_self
        have hcustom : ∀ u ∈ m.customs, c.qualifiedName u.1 u.2 ≠ .ok n :=
          fun u hu => hcustom u (List.mem_append_left _ hu)
        exact .union hs List.mem_cons_self
          (namesStruct_of_mapMemberWith hcustom hd' (hnamed.trans hd))

end Keys

theorem namesStruct_of_mapMemberAlong {keys : List NativeType} {t : NativeType} {d : DataType}
    (hcustom : ∀ u ∈ t.customs, c.qualifiedName u.1 u.2 ≠ .ok n)
    (h : c.mapMemberAlong keys t = .ok d) (hd : d.named? = some n) : c.NamesStruct s t := by
  rw [mapMemberAlong_eq] at h
  refine hn.namesStruct_of_mapMemberWith (fun e key d hget hkey h hd => ?_) hcustom h hd
  unfold keyAlong at h
  split at h
  · have he := (Registry.get?_eq_some_iff.mp hget).1
    have hfield := (Registry.mem_of_keyField hkey).1
    exact namesStruct_of_mapMemberAlong (hn.custom _ he _ hfield) h hd
  · cases h
termination_by keys.length
decreasing_by exact length_otherKeys_lt ‹_›

end StructName

namespace NamesStruct

variable (hget : c.registry.get? s.name = some (.struct s))
include hget

/-- The data type of a type that names a struct refers to the name of the struct. -/
theorem named?_mapMember (hname : c.qualifiedName s.moduleName s.name = .ok n)
    (h : c.NamesStruct s t) (hd : c.mapMember t = .ok d) : d.named? = some n := by
  have hkeys := List.Subset.refl c.registry.keyTypes
  induction h generalizing d with
  | reference hs href hmode =>
    rw [mapMember, mapMemberAlong_eq, mapMemberWith_reference href hs] at hd
    obtain ⟨_, hfound, hd⟩ := bind_eq_ok_iff.mp hd
    rw [Registry.resolve_eq_ok_iff, hget] at hfound
    cases hfound
    simp only [hmode] at hd
    obtain ⟨m, hm, hd⟩ := bind_eq_ok_iff.mp hd
    rw [hname] at hm
    cases hm
    cases pure_eq_ok_iff.mp hd
    rfl
  | @list item hs href hmode =>
    rw [mapMember, mapMemberAlong_eq, mapMemberWith, hs] at hd
    change c.mapList (.list item) item = .ok d at hd
    have hitem := Registry.referenced?_eq_some_iff.mpr ⟨_, href, hget⟩
    have hnone : c.registry.entity? item = none := by rw [Registry.entity?, hitem]; rfl
    rw [mapList, Registry.isSimple_of_referenced? hitem rfl, if_neg (by simp), hnone,
      if_neg (by simp)] at hd
    obtain ⟨m, hm, hd⟩ := bind_eq_ok_iff.mp hd
    simp only [hmode] at hd
    cases pure_eq_ok_iff.mp hd
    cases item with
    | ref _ | forward _ =>
      cases href
      obtain ⟨found, hfound, hm⟩ := bind_eq_ok_iff.mp hm
      rw [Registry.resolve_eq_ok_iff, hget] at hfound
      cases hfound
      cases hname.symm.trans hm
      rfl
    | _ => cases href
  | annotated hs hbase ih =>
    rw [mapMember, mapMemberAlong_eq, mapMemberWith_annotated hs,
      if_neg (by simp [hbase.isSimple_eq_false hget])] at hd
    split at hd
    · exact ih (by rwa [mapMember, mapMemberAlong_eq])
    · cases hd
  | key hs he hkey _ ih => exact ih (mapMember_key hs he hkey hd)
  | @union members m hs hm hmember ih =>
    have hnone := Registry.extensible?_eq_none hm (hmember.isSimple_eq_false hget)
    obtain ⟨types, d', hcommon, hd', hmapped⟩ :=
      exists_mapMember_of_union hm hs hnone hmember.substitute?_eq_none hd
    rw [← (DataType.named?_of_common? hcommon).2 d' hd']
    exact ih hmapped
  | keys hs hall hm he hkey _ ih =>
    have hsimple := Registry.isSimple_of_referenced? (Registry.entity?_eq_some_iff.mp he) rfl
    rw [mapMember, mapMemberAlong_eq, mapMemberWith_union hs,
      Registry.extensible?_eq_none hm hsimple, if_neg (by simp),
      if_pos (by simpa using ⟨List.ne_nil_of_mem hm, hall⟩)] at hd
    obtain ⟨key', hkey', hd⟩ := exists_keyField_of_mapDiscriminated hd hm he
    rw [hkey] at hkey'
    cases hkey'
    exact ih (mapMember_of_keyAlong hkeys hd)

/-- A field whose type names a struct has a column. -/
theorem isRelationship_eq_false (h : c.NamesStruct s t) : c.isRelationship t = false := by
  rw [Bool.eq_false_iff]
  intro hrelated
  obtain ⟨item, hitem⟩ := Option.isSome_iff_exists.mp hrelated
  obtain ⟨i, hi, hd, -⟩ := relatedItem?_eq_some_iff.mp hitem
  have h := hi ▸ h.unadorned
  -- the items of the list would be those of the struct and of an entity or enumeration
  cases h with
  | reference _ href => cases href
  | key _ he => cases he
  | list _ href =>
    have hstruct := Registry.referenced?_eq_some_iff.mpr ⟨_, href, hget⟩
    cases i with
    | ref _ | forward _ =>
      cases item <;> cases hstruct.symm.trans hd
    | _ => cases href

omit hget in
/-- **What is named is reached**: where all that a type mentions is reached, so is the struct that
it names, perhaps by the keys of entities. -/
theorem reaches {roots : List String} (h : c.NamesStruct s t)
    (hmentions : ∀ name ∈ t.mentions, c.registry.Reaches roots name) :
    c.registry.Reaches roots s.name := by
  -- the key of an entity that is reached is a field of it
  have of_key : ∀ {u : NativeType} {e : Entity} {key : Field}, c.registry.entity? u = some e →
      Registry.keyField e = .ok key → (∀ name ∈ u.mentions, c.registry.Reaches roots name) →
        ∀ name ∈ key.type.mentions, c.registry.Reaches roots name := by
    intro u e key he hkey hu name hname
    obtain ⟨hget, hmentions⟩ := Registry.get?_of_referenced? (Registry.entity?_eq_some_iff.mp he)
    refine .mention (hu _ (by simp [hmentions])) hget ?_
    exact mem_mentions_iff.mpr ⟨key, (Registry.mem_of_keyField hkey).1, hname⟩
  induction h with
  | reference _ href =>
    rw [NativeType.mentions_of_referencedName? href] at hmentions
    exact hmentions _ (List.mem_singleton_self _)
  | list _ href =>
    rw [NativeType.mentions, NativeType.mentions_of_referencedName? href] at hmentions
    exact hmentions _ (List.mem_singleton_self _)
  | annotated _ _ ih => exact ih hmentions
  | key _ he hkey _ ih => exact ih (of_key he hkey hmentions)
  | union _ hm _ ih =>
    exact ih fun name hname => hmentions name (NativeType.mentions_subset_mentionsAll hm hname)
  | keys _ _ hm he hkey _ ih =>
    refine ih (of_key he hkey fun name hname => ?_)
    exact hmentions name (NativeType.mentions_subset_mentionsAll hm hname)

/-- Where keys of entities have simple types, a type mentions the struct that it names. -/
theorem mem_mentions (hkeys : ∀ e key, .entity e ∈ c.registry.types →
    Registry.keyField e = .ok key → c.registry.isSimple key.type = true) (h : c.NamesStruct s t) :
    s.name ∈ t.mentions := by
  have not_key : ∀ {u : NativeType} {e : Entity} {key : Field}, c.registry.entity? u = some e →
      Registry.keyField e = .ok key → ¬ c.NamesStruct s key.type := by
    intro u e key he hkey hnames
    have hget := (Registry.get?_of_referenced? (Registry.entity?_eq_some_iff.mp he)).1
    have hsimple := hkeys e key (Registry.get?_eq_some_iff.mp hget).1 hkey
    rw [hnames.isSimple_eq_false ‹_›] at hsimple
    cases hsimple
  induction h with
  | reference _ href => simp [NativeType.mentions_of_referencedName? href]
  | list _ href => simp [NativeType.mentions, NativeType.mentions_of_referencedName? href]
  | annotated _ _ ih => exact ih
  | union _ hm _ ih => exact NativeType.mentions_subset_mentionsAll hm ih
  | key _ he hkey h | keys _ _ _ he hkey h => exact absurd h (not_key he hkey)

end NamesStruct

/-- **What the data type of a field refers to**: a name that stands for a struct shows exactly
where the type names the struct. -/
theorem named?_mapMember_iff (hn : c.StructName s n)
    (hcustom : ∀ u ∈ t.customs, c.qualifiedName u.1 u.2 ≠ .ok n) (hd : c.mapMember t = .ok d) :
    d.named? = some n ↔ c.NamesStruct s t :=
  ⟨hn.namesStruct_of_mapMemberAlong hcustom hd,
    fun h => h.named?_mapMember hn.get? hn.qualifiedName hd⟩

end SchemaCatalog.Converter
