import SchemaCatalog.Proofs.Converter.Member
import SchemaCatalog.Proofs.Converter.Table

/-!
# The type of a key

A column that holds keys of an item gets its data type from the type of its field, and the key
column of the item gets it from the definition of the item. `relatedKey_of_mem_keyItems` says
that the two agree, as long as settings put no other data type in the place of a reference or
of a union; `exists_keyColumn_of_itemTable` finds that column in the table of the item.
-/

namespace SchemaCatalog.Converter

variable {c : Converter} {ofKey : NativeType → Except ConvertError DataType} {d : DataType}

/-! ### Enumerations -/

/-- Only ignored annotations refine a type without provisional data type. -/
theorem refine_none {o : Options} {subject : NativeType} :
    ∀ {as : List Annotation} {target : Option DataType},
      refine o subject none as = .ok target → target = none
  | [], _, h => by
    cases h
    rfl
  | a :: as, _, h => by
    unfold refine at h
    split at h
    · exact refine_none h
    · cases h

theorem provisionalType?_eq_none {t : NativeType} (h : t.isPrimitive = false) :
    provisionalType? t = none := by
  cases t <;> first | rfl | cases h

/-- An annotated reference to an enumeration has the data type of the enumeration. -/
theorem mapEnum_of_mapSimple_annotated (h : c.options.SubstitutesPrimitives) {base : NativeType}
    {as : List Annotation} {e : Enumeration}
    (he : c.registry.enumeration? base.unadorned = some e)
    (hd : c.mapSimple (.annotated base as) = .ok d) : c.mapEnum e = .ok d := by
  have hprimitive := Registry.isPrimitive_of_referenced? (Registry.enumeration?_eq_some_iff.mp he)
  unfold mapSimple mapSimpleWith at hd
  rw [h.substitute?_eq_none rfl] at hd
  obtain ⟨target, htarget, hd⟩ := bind_eq_ok_iff.mp hd
  simp only [NativeType.unadorned, h.substitute?_eq_none hprimitive,
    provisionalType?_eq_none hprimitive] at htarget hd
  obtain rfl := refine_none htarget
  generalize base.unadorned = u at he hprimitive hd
  cases u with
  | primitive p => cases hprimitive
  | _ =>
    simp only [he, h.substitute?_eq_none hprimitive] at hd
    exact hd

/-- A reference to an enumeration has the data type of the enumeration, whatever annotations
it has. -/
theorem mapEnum_of_mapMemberWith (h : c.options.SubstitutesPrimitives) {t : NativeType}
    {e : Enumeration} (he : c.registry.enumeration? t.unadorned = some e)
    (hd : c.mapMemberWith ofKey t = .ok d) : c.mapEnum e = .ok d := by
  match t with
  | .primitive _ | .literal _ | .list _ | .union _ | .custom _ _ => cases he
  | .ref _ | .forward _ =>
    obtain ⟨name, hname, hget⟩ :=
      Registry.referenced?_eq_some_iff.mp (Registry.enumeration?_eq_some_iff.mp he)
    have hd : c.mapReference ofKey name = .ok d :=
      (mapMemberWith_reference hname (h.substitute?_eq_none rfl)).symm.trans hd
    obtain ⟨found, hfound, hd⟩ := bind_eq_ok_iff.mp hd
    rw [Registry.resolve_eq_ok_iff, hget] at hfound
    cases hfound
    exact hd
  | .annotated base as =>
    have he : c.registry.enumeration? base.unadorned = some e := he
    have hsimple : c.registry.isSimple base = true := by
      rw [← Registry.isSimple_unadorned]
      exact Registry.isSimple_of_enumeration? he
    rw [mapMemberWith_annotated (h.substitute?_eq_none rfl), if_pos hsimple] at hd
    exact mapEnum_of_mapSimple_annotated h he hd

/-- Annotations of what is not built in do not show. -/
theorem mapMemberWith_unadorned_of_isPrimitive (h : c.options.SubstitutesPrimitives)
    {t : NativeType} (ht : t.unadorned.isPrimitive = false) (hd : c.mapMemberWith ofKey t = .ok d) :
    c.mapMemberWith ofKey t.unadorned = .ok d := by
  cases hsimple : c.registry.isSimple t.unadorned with
  | false => exact mapMemberWith_unadorned h hsimple hd
  | true =>
    rw [Registry.isSimple_unadorned] at hsimple
    rcases Registry.isSimple_iff.mp hsimple with ⟨p, hp⟩ | ⟨e, he⟩
    · rw [hp] at ht
      cases ht
    · obtain ⟨name, hname, hget⟩ :=
        Registry.referenced?_eq_some_iff.mp (Registry.enumeration?_eq_some_iff.mp he)
      rw [mapMemberWith_reference hname (h.substitute?_eq_none ht), mapReference,
        Registry.resolve_eq_ok_iff.mpr hget]
      exact mapEnum_of_mapMemberWith h he hd

/-! ### Keys of items -/

/-- A reference to an entity is mapped as the key of the entity. -/
theorem mapMemberWith_entity {t : NativeType} {e : Entity} (hs : c.options.substitute? t = none)
    (he : c.registry.referenced? t = some (.entity e)) :
    c.mapMemberWith ofKey t = Registry.keyField e >>= fun key => ofKey key.type := by
  obtain ⟨name, hname, hget⟩ := Registry.referenced?_eq_some_iff.mp he
  rw [mapMemberWith_reference hname hs, mapReference, Registry.resolve_eq_ok_iff.mpr hget]
  rfl

/-- A union of entities is mapped as the one type that the keys of all of them have. -/
theorem exists_common_of_mapDiscriminated {t : NativeType} {members : List NativeType}
    (hd : c.mapDiscriminated ofKey t members = .ok d) :
    ∃ common, ofKey common = .ok d ∧ ∀ m ∈ members, ∀ e, c.registry.entity? m = some e →
      ∃ key, Registry.keyField e = .ok key ∧ key.type = common := by
  obtain ⟨types, htypes, hd⟩ := bind_eq_ok_iff.mp hd
  obtain ⟨keys, hkeys, htypes⟩ := bind_eq_ok_iff.mp htypes
  match types, hd with
  | [common], hd =>
    refine ⟨common, hd, fun m hm e he => ?_⟩
    obtain ⟨key, hkey, hfield⟩ :=
      exists_of_mem_left (mapM_eq_ok_iff.mp hkeys) (List.mem_filterMap.mpr ⟨m, hm, he⟩)
    have hmem : key.type ∈ [common] := by
      rw [← pure_eq_ok_iff.mp htypes, List.mem_eraseDups]
      exact List.mem_map_of_mem hkey
    exact ⟨key, hfield, List.mem_singleton.mp hmem⟩

/-- A union of entities is mapped as the key of each of them. -/
theorem exists_keyField_of_mapDiscriminated {t : NativeType} {members : List NativeType}
    (hd : c.mapDiscriminated ofKey t members = .ok d) {m : NativeType} (hm : m ∈ members)
    {e : Entity} (he : c.registry.entity? m = some e) :
    ∃ key, Registry.keyField e = .ok key ∧ ofKey key.type = .ok d := by
  obtain ⟨common, hcommon, hkeys⟩ := exists_common_of_mapDiscriminated hd
  obtain ⟨key, hkey, rfl⟩ := hkeys m hm e he
  exact ⟨key, hkey, hcommon⟩

/-- The data type of a reference to an entity is that of the entity's key. -/
theorem mapMember_key {t : NativeType} {e : Entity} {key : Field}
    (hs : c.options.substitute? t = none) (he : c.registry.entity? t = some e)
    (hkey : Registry.keyField e = .ok key) (hd : c.mapMember t = .ok d) :
    c.mapMember key.type = .ok d := by
  rw [mapMember, mapMemberAlong_eq, mapMemberWith_entity hs (Registry.entity?_eq_some_iff.mp he),
    hkey] at hd
  exact mapMember_of_keyAlong (List.Subset.refl _) hd

/-- A union that is no extensible enumeration has a common type of data types among which is that of
the member; where the union is one of entities, they are all the same. -/
theorem exists_mapMemberWith_of_union {members : List NativeType} {m : NativeType}
    (hm : m ∈ members) (hs : c.options.substitute? (.union members) = none)
    (hnone : c.registry.extensible? (.union members) = none)
    (hmember : m.isPrimitive = false → c.options.substitute? m = none)
    (hd : c.mapMemberWith ofKey (.union members) = .ok d) :
    ∃ types d', DataType.common? types = .ok d ∧ d' ∈ types ∧ c.mapMemberWith ofKey m = .ok d' := by
  rcases mapMemberWith_union_cases hs hd with ⟨e, he, -⟩ | ⟨-, hall, hd⟩ | ⟨-, types, htypes, hd⟩
  · cases hnone.symm.trans he
  · obtain ⟨e, he⟩ := Option.isSome_iff_exists.mp (hall m hm)
    obtain ⟨key, hkey, hd⟩ := exists_keyField_of_mapDiscriminated hd hm he
    -- the member itself is mapped as the same key
    have hfound := Registry.entity?_eq_some_iff.mp he
    refine ⟨[d], d, rfl, List.mem_singleton_self d, ?_⟩
    rw [mapMemberWith_entity (hmember (Registry.isPrimitive_of_referenced? hfound)) hfound, hkey]
    exact hd
  · obtain ⟨d', hd', hmapped⟩ := exists_of_mem_left htypes hm
    exact ⟨types, d', hd, hd', hmapped⟩

theorem exists_mapMember_of_union {members : List NativeType} {m : NativeType} (hm : m ∈ members)
    (hs : c.options.substitute? (.union members) = none)
    (hnone : c.registry.extensible? (.union members) = none)
    (hmember : c.options.substitute? m = none) (hd : c.mapMember (.union members) = .ok d) :
    ∃ types d', DataType.common? types = .ok d ∧ d' ∈ types ∧ c.mapMember m = .ok d' := by
  rw [mapMember, mapMemberAlong_eq] at hd ⊢
  exact exists_mapMemberWith_of_union hm hs hnone (fun _ => hmember) hd

theorem exists_keyField_of_union {t : NativeType} (hs : c.options.substitute? t = none)
    {es : List Entity} (hnone : c.registry.extensible? t = none)
    (hes : c.unionEntities? t = some es) (hd : c.mapMemberWith ofKey t = .ok d) {e : Entity}
    (he : e ∈ es) : ∃ key, Registry.keyField e = .ok key ∧ ofKey key.type = .ok d := by
  obtain ⟨members, rfl, hne, hall⟩ := unionEntities?_eq_some_iff.mp hes
  have hentities : (members.all fun m => (c.registry.entity? m).isSome) = true := by
    rw [List.all_eq_true]
    intro m hm
    obtain ⟨e, -, he⟩ := exists_of_mem_left hall hm
    rw [he, Option.isSome_some]
  rw [mapMemberWith_union hs, hnone, if_neg (by simp),
    if_pos (by simpa [hentities] using hne)] at hd
  obtain ⟨m, hm, hme⟩ := exists_of_mem_right hall he
  exact exists_keyField_of_mapDiscriminated hd hm hme

/-- An extensible enumeration is mapped as the key of its lookup table. -/
theorem eq_enumKeyType_of_extensible? (h : c.options.SubstitutesPrimitives) {t : NativeType}
    {e : Enumeration} (he : c.registry.extensible? t = some e)
    (hd : c.mapMemberWith ofKey t = .ok d) : d = c.enumKeyType := by
  obtain ⟨members, rfl, -⟩ := Registry.extensible?_eq_some he
  rw [mapMemberWith_union (h.substitute?_eq_none rfl),
    if_pos (by rw [he, Option.isSome_some])] at hd
  cases hd
  rfl

/-- An enumeration is mapped as the key of its lookup table, if fields hold keys of it. -/
theorem mapEnum_eq_enumKeyType {e : Enumeration}
    (h : c.isSmall e = true ∨ c.options.enumMode = .relation) :
    c.mapEnum e = .ok c.enumKeyType := by
  unfold mapEnum
  rcases h with h | h
  · rw [if_pos h]
  · simp [h]

/-- **A column that holds keys of an item has the type of its key.** -/
theorem relatedKey_of_mem_keyItems (h : c.options.SubstitutesPrimitives) {f : Field}
    {item : RelatedItem} (hitem : item ∈ c.keyItems f) (hd : c.mapMember f.type = .ok d) :
    ∃ key, c.relatedKey item = .ok (key, d) := by
  rw [mapMember, mapMemberAlong_eq] at hd
  -- an entity is related by the key that has been followed, an enumeration by that of its table
  have of_keyField : ∀ {e}, (∃ key, Registry.keyField e = .ok key ∧
      c.keyAlong c.registry.keyTypes key.type = .ok d) →
      ∃ key, c.relatedKey (.entity e) = .ok (key, d) := by
    rintro e ⟨key, hkey, hd⟩
    refine ⟨key.name, bind_eq_ok_iff.mpr ⟨key, hkey, bind_eq_ok_iff.mpr ⟨d, ?_, rfl⟩⟩⟩
    exact mapMember_of_keyAlong (List.Subset.refl _) hd
  have of_mapEnum : ∀ {e}, c.isSmall e = true ∨ c.options.enumMode = .relation →
      c.registry.referenced? f.type.unadorned = some (.enumeration e) →
      ∃ key, c.relatedKey (.enumeration e) = .ok (key, d) := by
    intro e hkeyed he
    have henum := mapEnum_of_mapMemberWith h (Registry.enumeration?_eq_some_iff.mpr he) hd
    rw [mapEnum_eq_enumKeyType hkeyed] at henum
    cases henum
    exact ⟨lookupKey, rfl⟩
  have hrole := c.hasRole f.type
  unfold keyItems at hitem
  generalize c.role f.type = role at hrole hitem
  cases hrole with
  | relationship | value => cases hitem
  | entity he =>
    cases List.mem_singleton.mp hitem
    have hs := h.substitute?_eq_none (Registry.isPrimitive_of_referenced? he)
    have hd := mapMemberWith_unadorned h (Registry.isSimple_of_referenced? he rfl) hd
    rw [mapMemberWith_entity hs he] at hd
    exact of_keyField (bind_eq_ok_iff.mp hd)
  | enumeration he hsmall =>
    dsimp only at hitem
    split at hitem
    · cases List.mem_singleton.mp hitem
      exact of_mapEnum (Or.inr ‹_›) he
    · cases hitem
  | small he hsmall =>
    cases List.mem_singleton.mp hitem
    exact of_mapEnum (Or.inl hsmall) he
  | extensible he =>
    obtain ⟨members, hmembers, -⟩ := Registry.extensible?_eq_some he
    cases List.mem_singleton.mp hitem
    have hd := mapMemberWith_unadorned h (hmembers ▸ rfl) hd
    rw [eq_enumKeyType_of_extensible? h he hd]
    exact ⟨lookupKey, rfl⟩
  | discriminated hnone hes =>
    obtain ⟨members, hmembers, -⟩ := unionEntities?_eq_some_iff.mp hes
    obtain ⟨e, he, rfl⟩ := List.mem_map.mp hitem
    have hs := h.substitute?_eq_none (t := f.type.unadorned) (hmembers ▸ rfl)
    have hd := mapMemberWith_unadorned h (hmembers ▸ rfl) hd
    exact of_keyField (exists_keyField_of_union hs hnone hes hd he)

/-- The key column of the table of an item has the type of keys of the item. -/
theorem exists_keyColumn_of_itemTable (hf : c.options.factory.Faithful) {item : RelatedItem}
    (hfields : ∀ e, item = .entity e → (e.fields.map Field.name).Nodup) {t : Table}
    (ht : c.itemTable item = .ok t) {key : String} (hkey : c.relatedKey item = .ok (key, d)) :
    ∃ col, t.column? key = some col ∧ col.dataType = d := by
  cases item with
  | entity e =>
    obtain ⟨-, columns, hcolumns, hformed, -⟩ := table_eq_ok hf ht
    obtain ⟨f, hfield, hkey⟩ := bind_eq_ok_iff.mp hkey
    obtain ⟨d', hd', hkey⟩ := bind_eq_ok_iff.mp hkey
    cases pure_eq_ok_iff.mp hkey
    obtain ⟨hf_mem, hf_name⟩ := Registry.mem_of_keyField hfield
    -- the primary key is a column, and the field of that name is the key field
    obtain ⟨col, hcol, hcol_name⟩ :=
      List.mem_map.mp (hformed.key_mem e.primaryKey List.mem_cons_self)
    obtain ⟨g, hg, -, hmade⟩ := (mem_columns_iff hcolumns).mp hcol
    obtain ⟨hg_name, hg_type⟩ := column_eq_ok hf hmade
    have hsame : g = f := by
      refine List.inj_on_of_nodup_map (hfields e rfl) hg hf_mem ?_
      rw [← hg_name, hcol_name, hf_name]
    rw [hsame, hd'] at hg_type
    cases hg_type
    exact ⟨col, by rw [hf_name, ← hcol_name, hformed.column?_eq hcol], rfl⟩
  | enumeration e =>
    cases hkey
    exact (lookupTable_eq_ok hf ht).2.2.1

end SchemaCatalog.Converter
