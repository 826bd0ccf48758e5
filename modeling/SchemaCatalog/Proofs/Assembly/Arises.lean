import SchemaCatalog.Proofs.Assembly.Declarations
import SchemaCatalog.Proofs.Converter.KeyType
import SchemaCatalog.Proofs.Converter.Simple

/-!
# How data types arise

`Arises c roots d` lists all ways in which the settings and the definitions that are reached make
a data type, one case per way: a data type that is not plain is part of a substitute, stands for a
narrow integer, an enumeration, a struct or a type without definition, or is an array. Mapping
makes nothing else, whatever the shape of the type: annotations and widening make plain data types
(`mapSimpleWith_cases`, `DataType.eq_or_isPlain_of_common?`), and the other steps pass on what they
are given (`arises_of_mapMemberWith`). So every data type in a catalog arises, at any depth
(`arises_of_mem_typeParts`); what settings exclude is found by looking through the cases.
-/

namespace SchemaCatalog

/-- The data types of the columns and members in a catalog, **at any depth**. -/
def Catalog.typeParts (k : Catalog) : List DataType := k.dataTypes.flatMap DataType.parts

namespace Converter

/-- How a data type **arises** from the settings and from the definitions that are reached. -/
inductive Arises (c : Converter) (roots : List String) : DataType → Prop
  /-- Plain data types need nothing. -/
  | plain {d : DataType} : d.isPlain = true → Arises c roots d
  /-- A part of a data type that the settings put in the place of another. -/
  | substitute {s : NativeType × DataType} {d : DataType} :
    s ∈ c.options.substitutions → d ∈ s.2.parts → Arises c roots d
  /-- A type of the dialect, if narrow integers become such types. -/
  | native {p : Primitive} {name : String} : c.options.extraNumericTypes = true →
    standardType c.options p = .native name → Arises c roots (.native name)
  /-- The labels of an enumeration with labels enough, if enumerations are inlined. -/
  | labels {e : Enumeration} : c.options.enumMode = .inlined → c.isSmall e = false →
    c.registry.ReachesDefinition roots (.enumeration e) →
      Arises c roots (.enumeration e.valueLabels)
  /-- The name of an enumeration with labels enough, if enumerations are types. -/
  | enumeration {e : Enumeration} {n : QualifiedName} :
    c.options.enumMode = .type → c.isSmall e = false →
      c.registry.ReachesDefinition roots (.enumeration e) →
        c.qualifiedName e.moduleName e.name = .ok n → Arises c roots (.userDefined n)
  /-- The name of a struct, if structs are types or lists are arrays. -/
  | struct {s : Struct} {n : QualifiedName} :
    c.options.structMode = .type ∨ c.options.arrayMode = .array →
      c.registry.ReachesDefinition roots (.struct s) →
        c.qualifiedName s.moduleName s.name = .ok n → Arises c roots (.userDefined n)
  /-- The name of a type without definition that a field mentions. -/
  | custom {owner : Definition} {f : Field} {u : String × String} {n : QualifiedName} :
    c.registry.ReachesDefinition roots owner → f ∈ owner.fields → u ∈ f.type.customs →
      c.qualifiedName u.1 u.2 = .ok n → Arises c roots (.userDefined n)
  /-- An array, if lists are arrays. -/
  | array {d : DataType} : c.options.arrayMode = .array → Arises c roots d →
    Arises c roots (.array d)

variable {c : Converter} {roots : List String} {t : NativeType} {d : DataType} {e : Enumeration}

/-- What a data type that arises has inside it arises. -/
theorem Arises.of_mem_parts (h : c.Arises roots d) {a : DataType} (ha : a ∈ d.parts) :
    c.Arises roots a := by
  induction h with
  | plain hplain => exact DataType.eq_of_mem_parts_of_isPlain hplain ha ▸ .plain hplain
  | substitute hs hd => exact .substitute hs (DataType.parts_subset_of_mem_parts hd ha)
  | native hextra hp => exact List.mem_singleton.mp ha ▸ .native hextra hp
  | labels hmode hsmall he => exact List.mem_singleton.mp ha ▸ .labels hmode hsmall he
  | enumeration hmode hsmall he hn =>
    exact List.mem_singleton.mp ha ▸ .enumeration hmode hsmall he hn
  | struct hmode hs hn => exact List.mem_singleton.mp ha ▸ .struct hmode hs hn
  | custom howner hf hu hn => exact List.mem_singleton.mp ha ▸ .custom howner hf hu hn
  | array hmode helement ih =>
    rcases DataType.mem_parts_array.mp ha with rfl | ha
    · exact .array hmode helement
    · exact ih ha

/-! ### Simple types -/

/-- A substitute arises as such. -/
theorem arises_substitute? (h : c.options.substitute? t = some d) : c.Arises roots d := by
  obtain ⟨before, after, hsubstitutions, -⟩ := List.lookup_eq_some_iff.mp h
  exact .substitute (s := (t, d)) (by rw [hsubstitutions]; simp) (DataType.mem_parts_self d)

theorem arises_of_narrowInteger {p : Primitive} {extra : String} {width : UInt8}
    (hp : standardType c.options p = narrowInteger c.options extra width) :
    c.Arises roots (standardType c.options p) := by
  unfold narrowInteger at hp
  split at hp <;> rw [hp]
  · exact .native ‹_› hp
  · exact .plain rfl

theorem arises_standardType (p : Primitive) : c.Arises roots (standardType c.options p) := by
  cases p with
  | int8 | uint8 | uint16 | uint32 | uint64 => exact arises_of_narrowInteger rfl
  | _ => exact .plain rfl

/-- The data type of a built-in type is its substitute or the standard one. -/
theorem arises_mapPrimitive (p : Primitive) : c.Arises roots (c.mapPrimitive p) := by
  unfold mapPrimitive
  cases h : c.options.substitute? (.primitive p) with
  | some d => exact arises_substitute? h
  | none => exact arises_standardType p

/-- The data type of a simple type arises if that of an enumeration does. -/
theorem arises_of_mapSimpleWith {ofEnum : Enumeration → Except ConvertError DataType}
    (h : c.mapSimpleWith ofEnum t = .ok d)
    (hof : ∀ e, c.registry.enumeration? t.unadorned = some e → ofEnum e = .ok d →
      c.Arises roots d) : c.Arises roots d := by
  rcases mapSimpleWith_cases h with ⟨u, hu⟩ | ⟨p, rfl⟩ | ⟨e, he, h⟩ | hplain
  · exact arises_substitute? hu
  · exact arises_mapPrimitive p
  · exact hof e he h
  · exact .plain hplain

/-- The values of an enumeration have the data type of a simple type. -/
theorem arises_of_mapEnumValues (h : c.mapEnumValues e = .ok d) : c.Arises roots d := by
  obtain ⟨u, -, h⟩ := bind_eq_ok_iff.mp h
  exact arises_of_mapSimpleWith h fun _ _ h => nomatch h

/-- The data type of an enumeration that is reached arises. -/
theorem arises_of_mapEnum (he : c.registry.ReachesDefinition roots (.enumeration e))
    (h : c.mapEnum e = .ok d) : c.Arises roots d := by
  unfold mapEnum at h
  split at h
  · cases h
    exact arises_mapPrimitive _
  · rename_i hsmall
    have hsmall := Bool.eq_false_iff.mpr hsmall
    split at h
    · obtain ⟨n, hn, h⟩ := bind_eq_ok_iff.mp h
      cases pure_eq_ok_iff.mp h
      exact .enumeration ‹_› hsmall he hn
    · cases h
      exact .labels ‹_› hsmall he
    · cases h
      exact arises_mapPrimitive _
    · exact arises_of_mapEnumValues h

/-- A literal has a data type of characters, or one that is common to built-in types. -/
theorem arises_of_mapLiteral {values : List Literal} (h : c.mapLiteral t values = .ok d) :
    c.Arises roots d := by
  unfold mapLiteral at h
  match values, h with
  | v :: vs, h =>
    have h := mapError_eq_ok_iff.mp h
    split at h
    · rcases DataType.eq_or_isPlain_of_common? h with rfl | hplain
      · exact .plain rfl
      · exact .plain hplain
    · rcases DataType.eq_or_isPlain_of_common? h with rfl | hplain
      · cases v <;> exact arises_mapPrimitive _
      · exact .plain hplain

/-! ### Types of fields -/

/-- The data type of a simple type arises if what it mentions is reached. -/
theorem arises_of_mapSimple (hreach : ∀ name ∈ t.mentions, c.registry.Reaches roots name)
    (h : c.mapSimple t = .ok d) : c.Arises roots d := by
  refine arises_of_mapSimpleWith h fun e he h => arises_of_mapEnum ?_ h
  have he := Registry.enumeration?_eq_some_iff.mp he
  exact Registry.reachesDefinition_of_referenced? (t.mentions_unadorned.symm ▸ hreach) he

theorem arises_of_mapSimple_labelType (h : c.mapSimple labelType = .ok d) : c.Arises roots d := by
  have hnone : labelType.mentions = [] := rfl
  exact arises_of_mapSimple (hnone ▸ nofun) h

section Items

variable {item : NativeType}
  (hreach : ∀ name ∈ item.mentions, c.registry.Reaches roots name)
  (hcustom : ∀ u ∈ item.customs, ∀ n, c.qualifiedName u.1 u.2 = .ok n →
    c.Arises roots (.userDefined n))
include hreach

/-- A list of a simple type is mapped to an array of what arises for its item. -/
theorem arises_of_mapSimpleArray (harray : c.options.arrayMode = .array)
    (h : c.mapSimpleArray t item = .ok d) : c.Arises roots d := by
  unfold mapSimpleArray at h
  split at h
  · split at h
    · cases h
    · split at h <;> obtain ⟨element, helement, rfl⟩ := map_eq_ok_iff.mp h
      · exact .array harray (arises_of_mapEnumValues helement)
      · exact .array harray (arises_of_mapSimple hreach helement)
  · obtain ⟨element, helement, rfl⟩ := map_eq_ok_iff.mp h
    exact .array harray (arises_of_mapSimple hreach helement)

include hcustom

/-- The name of an item that is neither simple nor an entity arises, if lists are arrays. -/
theorem arises_of_itemName (harray : c.options.arrayMode = .array)
    (hsimple : c.registry.isSimple item ≠ true) (hentity : ¬ (c.registry.entity? item).isSome)
    {n : QualifiedName} (h : c.itemName t item = .ok n) : c.Arises roots (.userDefined n) := by
  have of_reference : ∀ {name}, item.referencedName? = some name →
      (do let found ← c.registry.resolve name
          c.qualifiedName found.moduleName found.name) = .ok n →
        c.Arises roots (.userDefined n) := by
    intro name hname h
    obtain ⟨found, hfound, hn⟩ := bind_eq_ok_iff.mp h
    have href : c.registry.referenced? item = some found :=
      Registry.referenced?_eq_some_iff.mpr ⟨name, hname, Registry.resolve_eq_ok_iff.mp hfound⟩
    cases found with
    | struct s =>
      exact .struct (Or.inr harray) (Registry.reachesDefinition_of_referenced? hreach href) hn
    | entity owner =>
      refine absurd ?_ hentity
      rw [Registry.entity?_eq_some_iff.mpr href, Option.isSome_some]
    | enumeration e =>
      refine absurd ?_ hsimple
      exact Registry.isSimple_of_enumeration? (Registry.enumeration?_eq_some_iff.mpr href)
  cases item with
  | ref name | forward name => exact of_reference rfl h
  | custom moduleName name => exact hcustom _ (List.mem_singleton_self _) n h
  | _ => cases h

/-- A list is mapped to an array, where lists are arrays, or to JSON. -/
theorem arises_of_mapList (h : c.mapList t item = .ok d) : c.Arises roots d := by
  unfold mapList at h
  split at h
  · split at h
    · exact arises_of_mapSimpleArray hreach ‹_› h
    · cases h
      exact arises_mapPrimitive _
  · rename_i hsimple
    split at h
    · cases h
    · rename_i hentity
      obtain ⟨n, hn, h⟩ := bind_eq_ok_iff.mp h
      split at h <;> cases pure_eq_ok_iff.mp h
      · exact .array ‹_› (arises_of_itemName hreach hcustom ‹_› hsimple hentity hn)
      · exact arises_mapPrimitive _

end Items

section Keys

variable {ofKey : NativeType → Except ConvertError DataType}
  (hof : ∀ owner key d, c.registry.ReachesDefinition roots (.entity owner) →
    Registry.keyField owner = .ok key → ofKey key.type = .ok d → c.Arises roots d)
include hof

/-- A reference is mapped to the name of a struct, to what an enumeration is mapped to, or to the
data type of a key in reach. -/
theorem arises_of_mapReference {name : String} (hname : t.referencedName? = some name)
    (hreach : ∀ name ∈ t.mentions, c.registry.Reaches roots name)
    (h : c.mapReference ofKey name = .ok d) : c.Arises roots d := by
  obtain ⟨found, hfound, h⟩ := bind_eq_ok_iff.mp h
  have hreached := Registry.reachesDefinition_of_referenced? hreach
    (Registry.referenced?_eq_some_iff.mpr ⟨name, hname, Registry.resolve_eq_ok_iff.mp hfound⟩)
  cases found with
  | enumeration e => exact arises_of_mapEnum hreached h
  | entity owner =>
    obtain ⟨key, hkey, h⟩ := bind_eq_ok_iff.mp h
    exact hof owner key d hreached hkey h
  | struct s =>
    dsimp only at h
    split at h
    · obtain ⟨n, hn, h⟩ := bind_eq_ok_iff.mp h
      cases pure_eq_ok_iff.mp h
      exact .struct (Or.inl ‹_›) hreached hn
    · cases pure_eq_ok_iff.mp h
      exact arises_mapPrimitive _

/-- The data type of a type arises, if what the type mentions is reached and the data types of
keys arise. -/
theorem arises_of_mapMemberWith {t : NativeType} {d : DataType}
    (hcustom : ∀ u ∈ t.customs, ∀ n, c.qualifiedName u.1 u.2 = .ok n →
      c.Arises roots (.userDefined n))
    (hreach : ∀ name ∈ t.mentions, c.registry.Reaches roots name)
    (h : c.mapMemberWith ofKey t = .ok d) : c.Arises roots d := by
  cases hs : c.options.substitute? t with
  | some d' =>
    unfold mapMemberWith at h
    rw [hs] at h
    cases h
    exact arises_substitute? hs
  | none =>
    match t with
    | .primitive p =>
      rw [mapMemberWith, hs] at h
      cases h
      exact arises_mapPrimitive p
    | .literal values =>
      rw [mapMemberWith, hs] at h
      exact arises_of_mapLiteral h
    | .custom moduleName name =>
      rw [mapMemberWith, hs] at h
      obtain ⟨n, hn, h⟩ := bind_eq_ok_iff.mp h
      cases pure_eq_ok_iff.mp h
      exact hcustom _ (List.mem_singleton_self _) n hn
    | .ref name | .forward name =>
      rw [mapMemberWith_reference rfl hs] at h
      exact arises_of_mapReference hof rfl hreach h
    | .list item =>
      rw [mapMemberWith, hs] at h
      change c.mapList (.list item) item = .ok d at h
      have hreach : ∀ name ∈ item.mentions, c.registry.Reaches roots name := hreach
      exact arises_of_mapList hreach hcustom h
    | .annotated base as =>
      rw [mapMemberWith_annotated hs] at h
      split at h
      · exact arises_of_mapSimple hreach h
      · split at h
        · exact arises_of_mapMemberWith (t := base) hcustom hreach h
        · cases h
    | .union [] =>
      rw [mapMemberWith_union hs] at h
      cases h
    | .union (m :: ms) =>
      have hreach : ∀ name ∈ m.mentions, c.registry.Reaches roots name :=
        fun name hname => hreach name (List.mem_append_left _ hname)
      rcases mapMemberWith_union_cases hs h with
        ⟨-, -, rfl⟩ | ⟨-, hall, h⟩ | ⟨-, types, htypes, h⟩
      · exact arises_mapPrimitive _
      · obtain ⟨owner, howner⟩ := Option.isSome_iff_exists.mp (hall m List.mem_cons_self)
        obtain ⟨key, hkey, h⟩ := exists_keyField_of_mapDiscriminated h List.mem_cons_self howner
        have howner := Registry.entity?_eq_some_iff.mp howner
        exact hof owner key d (Registry.reachesDefinition_of_referenced? hreach howner) hkey h
      -- the common type is that of the first member or plain
      · cases htypes with
        | cons hm _ =>
          rcases DataType.eq_or_isPlain_of_common? h with rfl | hplain
          · refine arises_of_mapMemberWith (fun u hu => hcustom u ?_) hreach hm
            exact List.mem_append_left _ hu
          · exact .plain hplain

end Keys

/-- Following keys stays in reach, since what the key of a definition in reach mentions is in reach.
-/
theorem arises_of_mapMemberAlong {keys : List NativeType} {owner : Definition}
    (howner : c.registry.ReachesDefinition roots owner) {f : Field} (hfield : f ∈ owner.fields)
    {d : DataType} (h : c.mapMemberAlong keys f.type = .ok d) : c.Arises roots d := by
  rw [mapMemberAlong_eq] at h
  refine arises_of_mapMemberWith (fun owner' key d howner' hkey h => ?_)
    (fun u hu n hn => .custom howner hfield hu hn)
    (fun _ hname => howner.reaches hfield hname) h
  unfold keyAlong at h
  split at h
  · exact arises_of_mapMemberAlong howner' (Registry.mem_of_keyField hkey).1 h
  · cases h
termination_by keys.length
decreasing_by exact length_otherKeys_lt ‹_›

/-- **Mapping** makes data types that arise only: this is so for the fields of every definition
that is reached. -/
theorem arises_of_mapMember {owner : Definition}
    (howner : c.registry.ReachesDefinition roots owner) {f : Field} (hfield : f ∈ owner.fields)
    (h : c.mapMember f.type = .ok d) : c.Arises roots d :=
  arises_of_mapMemberAlong howner hfield h

theorem arises_of_mapMember_primitive {p : Primitive} (h : c.mapMember (.primitive p) = .ok d) :
    c.Arises roots d := by
  cases (mapMember_primitive p).symm.trans h
  exact arises_mapPrimitive p

/-! ### Catalogs -/

/-- **The data types of a catalog arise**, at any depth. -/
theorem arises_of_mem_typeParts (hf : c.options.factory.Faithful)
    (hk : c.options.factory.KeepsComposites) {k : Catalog} (h : c.assemble roots = .ok k)
    (hd : d ∈ k.typeParts) : c.Arises roots d := by
  obtain ⟨types, p, hr, hp, rfl⟩ := assemble_eq_ok_iff.mp h
  obtain ⟨whole, hwhole, hd⟩ := List.mem_flatMap.mp hd
  refine Arises.of_mem_parts ?_ hd
  cases typeOrigin_of_mem_dataTypes hf hk hr hp hwhole with
  | field howner _ hfield h => exact arises_of_mapMember howner hfield h
  | lookupKey h => exact h ▸ arises_mapPrimitive _
  | label h => exact arises_of_mapSimple_labelType h
  | joinKey h => exact arises_of_mapMember_primitive h

end Converter

end SchemaCatalog
