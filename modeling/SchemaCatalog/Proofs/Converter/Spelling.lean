import SchemaCatalog.Proofs.Converter.Agreement
import SchemaCatalog.Proofs.Converter.KeyDepth
import SchemaCatalog.Proofs.Converter.KeyType
import SchemaCatalog.Proofs.Registry.Spelling

/-!
# Data types under another spelling

Spelling forward references as references keeps the data type of a field: function by function,
what is mapped has the same data type as before or none as before
(`toOption_mapMember_respelled`), though errors may differ. Keys are the exception. The keys of a
union of entities are compared as they are spelled, so that the data types are the same where the
type spells keys alike; a type that has a data type does (`spellsKeysAlike_of_mapMemberWith`).
-/

namespace SchemaCatalog

/-- A converter with its registry respelled. -/
def Converter.respelled (c : Converter) : Converter := ⟨c.registry.respelled, c.options⟩

/-- Substitutes of built-in types do not depend on how other types are spelled. -/
theorem Options.SubstitutesPrimitives.substitute?_respelled {o : Options}
    (h : o.SubstitutesPrimitives) (t : NativeType) :
    o.substitute? t.respelled = o.substitute? t := by
  cases ht : t.isPrimitive with
  | true =>
    cases t with
    | primitive p => rfl
    | _ => cases ht
  | false =>
    rw [h.substitute?_eq_none ht, h.substitute?_eq_none (t.isPrimitive_respelled.trans ht)]

/-- A key among some names is respelled with its entity. -/
theorem Registry.KeyTypeAmong.respelled {r : Registry} {names : List String} {e : Entity}
    {key : Field} (h : KeyTypeAmong r names e key) :
    KeyTypeAmong r.respelled names e.respelled key.respelled where
  mem := h.mem
  get? := by
    have hget := r.get?_respelled e.name
    rw [h.get?] at hget
    exact hget
  keyField := by rw [keyField_respelled, h.keyField]; rfl

namespace Converter

variable {c : Converter} (hs : c.options.SubstitutesPrimitives)

@[simp]
theorem options_respelled : c.respelled.options = c.options := rfl

@[simp]
theorem registry_respelled : c.respelled.registry = c.registry.respelled := rfl

theorem isSmall_respelled (e : Enumeration) : c.respelled.isSmall e = c.isSmall e := rfl

/-! ### Simple types -/

theorem provisionalType?_respelled (t : NativeType) :
    provisionalType? t.respelled = provisionalType? t := by
  cases t <;> rfl

include hs in
theorem toOption_mapPlainWith_respelled (ofEnum : Enumeration → Except ConvertError DataType)
    (t : NativeType) : (c.respelled.mapPlainWith ofEnum t.respelled).toOption =
      (c.mapPlainWith ofEnum t).toOption := by
  have hsub := hs.substitute?_respelled t
  have henum := c.registry.enumeration?_respelled t
  cases t with
  | primitive p => rfl
  | ref _ | literal _ | custom _ _ =>
    simp only [mapPlainWith, respelled, NativeType.respelled] at hsub henum ⊢
    rw [henum]
  | forward _ | annotated _ _ | list _ | union _ =>
    simp only [mapPlainWith, respelled, NativeType.respelled] at hsub henum ⊢
    rw [hsub, henum]
    split
    · rfl
    · split <;> rfl

include hs in
/-- A simple type is mapped alike in either spelling, errors aside. -/
theorem toOption_mapSimpleWith_respelled (ofEnum : Enumeration → Except ConvertError DataType)
    (t : NativeType) : (c.respelled.mapSimpleWith ofEnum t.respelled).toOption =
      (c.mapSimpleWith ofEnum t).toOption := by
  by_cases ht : t.unadorned = t
  · have ht' : t.respelled.unadorned = t.respelled := by rw [NativeType.unadorned_respelled, ht]
    have hsub := hs.substitute?_respelled t
    rw [mapSimpleWith_of_unadorned ht, mapSimpleWith_of_unadorned ht', respelled, hsub]
    cases c.options.substitute? t with
    | some d => rfl
    | none => exact toOption_mapPlainWith_respelled hs ofEnum t
  · cases t with
    | annotated base as =>
      have hstart : c.respelled.start? base.respelled.unadorned = c.start? base.unadorned := by
        rw [NativeType.unadorned_respelled, start?, start?, provisionalType?_respelled, respelled,
          hs.substitute?_respelled]
      rw [NativeType.respelled, mapSimpleWith_annotated (hs.substitute?_eq_none rfl),
        mapSimpleWith_annotated (c := c.respelled) (hs.substitute?_eq_none rfl), hstart,
        NativeType.annotations_respelled, toOption_bind, toOption_bind, respelled,
        toOption_refine _ (.annotated base.respelled as) (.annotated base as)]
      refine Option.bind_congr fun target _ => ?_
      cases target with
      | some d => rfl
      | none =>
        rw [NativeType.unadorned_respelled]
        exact toOption_mapPlainWith_respelled hs ofEnum base.unadorned
    | _ => exact absurd rfl ht

/-- Enumerations have no other spelling. -/
theorem mapEnumValues_respelled (e : Enumeration) :
    c.respelled.mapEnumValues e = c.mapEnumValues e :=
  mapEnumValues_congr ..

theorem mapEnum_respelled (e : Enumeration) : c.respelled.mapEnum e = c.mapEnum e :=
  congrFun (mapEnum_congr ..) e

include hs in
theorem toOption_mapSimple_respelled (t : NativeType) :
    (c.respelled.mapSimple t.respelled).toOption = (c.mapSimple t).toOption := by
  unfold mapSimple
  rw [funext mapEnum_respelled]
  exact toOption_mapSimpleWith_respelled hs c.mapEnum t

/-! ### Types of fields -/

/-- The name of an item in a list does not depend on the spelling. -/
theorem toOption_itemName_respelled (t t' item : NativeType) :
    (c.respelled.itemName t' item.respelled).toOption = (c.itemName t item).toOption := by
  unfold itemName
  cases item with
  | ref name | forward name =>
    simp only [NativeType.respelled, respelled, Registry.resolve_respelled]
    cases c.registry.resolve name with
    | error e => rfl
    | ok d =>
      change (c.qualifiedName d.respelled.moduleName d.respelled.name).toOption = _
      rw [d.moduleName_respelled, d.name_respelled]
      rfl
  | _ => rfl

include hs in
theorem toOption_mapSimpleArray_respelled (t t' item : NativeType) :
    (c.respelled.mapSimpleArray t' item.respelled).toOption =
      (c.mapSimpleArray t item).toOption := by
  have hsimple : ((c.respelled.mapSimple item.respelled).map DataType.array).toOption =
      ((c.mapSimple item).map DataType.array).toOption := by
    rw [toOption_map, toOption_map, toOption_mapSimple_respelled hs]
  unfold mapSimpleArray
  simp only [NativeType.unadorned_respelled, registry_respelled, options_respelled,
    Registry.enumeration?_respelled, mapEnumValues_respelled, isSmall_respelled]
  split
  · split
    · rfl
    · split <;> first | rfl | exact hsimple
  · exact hsimple

include hs in
/-- A list is mapped alike in either spelling, errors aside. -/
theorem toOption_mapList_respelled (t t' item : NativeType) :
    (c.respelled.mapList t' item.respelled).toOption = (c.mapList t item).toOption := by
  unfold mapList
  simp only [registry_respelled, options_respelled, Registry.isSimple_respelled,
    Registry.entity?_respelled, Option.isSome_map]
  split
  · split
    · exact toOption_mapSimpleArray_respelled hs t t' item
    · rfl
  · split
    · rfl
    · rw [toOption_bind, toOption_bind, toOption_itemName_respelled t t']
      rfl

/-! ### Keys -/

section Keys

variable {names : List String} {ofKey ofKey' : NativeType → Except ConvertError DataType}

/-- The different keys of a union are respelled, where respelling identifies none of them. -/
theorem keyTypes_respelled {members : List NativeType}
    (h : c.registry.KeysSpelledAlike members) :
    c.respelled.keyTypes (members.map NativeType.respelled) =
      (c.keyTypes members).map (List.map NativeType.respelled) := by
  have hkeys : ((members.map NativeType.respelled).filterMap c.respelled.registry.entity?).mapM
      Registry.keyField = ((members.filterMap c.registry.entity?).mapM Registry.keyField).map
        (List.map Field.respelled) := by
    have hentities : (members.map NativeType.respelled).filterMap c.respelled.registry.entity? =
        (members.filterMap c.registry.entity?).map Entity.respelled := by
      rw [List.filterMap_map, List.map_filterMap]
      exact List.filterMap_congr fun m _ => c.registry.entity?_respelled m
    rw [hentities, List.mapM_map]
    exact (mapM_congr fun e _ => keyField_respelled e).trans map_mapM.symm
  unfold keyTypes
  rw [hkeys]
  cases hfields : (members.filterMap c.registry.entity?).mapM Registry.keyField with
  | error e => rfl
  | ok keys =>
    have hmem : ∀ {k}, k ∈ keys.map Field.type →
        ∃ m ∈ members, ∃ key, c.registry.HasKey m key ∧ key.type = k := by
      intro k hk
      obtain ⟨key, hkey, rfl⟩ := List.mem_map.mp hk
      obtain ⟨e, he, hfield⟩ := (mem_iff_of_mapM hfields).mp hkey
      obtain ⟨m, hm, hme⟩ := List.mem_filterMap.mp he
      exact ⟨m, hm, key, ⟨e, hme, hfield⟩, rfl⟩
    have hinj : Set.InjOn NativeType.respelled {k | k ∈ keys.map Field.type} := by
      intro k hk k' hk' heq
      obtain ⟨m, hm, key, hkey, rfl⟩ := hmem hk
      obtain ⟨m', hm', key', hkey', rfl⟩ := hmem hk'
      exact h m hm m' hm' key key' hkey hkey' heq
    have htypes : (keys.map Field.respelled).map Field.type =
        (keys.map Field.type).map NativeType.respelled := by
      rw [List.map_map, List.map_map]
      rfl
    change Except.ok ((keys.map Field.respelled).map Field.type).eraseDups =
      Except.ok ((keys.map Field.type).eraseDups.map NativeType.respelled)
    rw [htypes, eraseDups_map_of_injOn hinj]

theorem toOption_mapMembersWith_respelled {members : List NativeType} (h : ∀ m ∈ members,
    (c.respelled.mapMemberWith ofKey' m.respelled).toOption = (c.mapMemberWith ofKey m).toOption) :
    (c.respelled.mapMembersWith ofKey' (NativeType.respelledAll members)).toOption =
      (c.mapMembersWith ofKey members).toOption := by
  rw [NativeType.respelledAll_eq_map, mapMembersWith_eq_mapM, mapMembersWith_eq_mapM,
    List.mapM_map, toOption_mapM, toOption_mapM]
  exact mapM_congr h

variable (hkey : ∀ e key, Registry.KeyTypeAmong c.registry names e key →
  (ofKey' key.type.respelled).toOption = (ofKey key.type).toOption)
include hkey

/-- A reference is mapped alike when the types of keys are. -/
theorem toOption_mapReference_respelled {name : String} (hn : name ∈ names) :
    (c.respelled.mapReference ofKey' name).toOption = (c.mapReference ofKey name).toOption := by
  unfold mapReference
  rw [registry_respelled, Registry.resolve_respelled]
  cases hd : c.registry.resolve name with
  | error e => rfl
  | ok d =>
    have hget := Registry.resolve_eq_ok_iff.mp hd
    obtain rfl := Registry.name_of_get? hget
    cases d with
    | entity e =>
      change (Registry.keyField e.respelled >>= fun key => ofKey' key.type).toOption =
        (Registry.keyField e >>= fun key => ofKey key.type).toOption
      rw [keyField_respelled]
      cases hfield : Registry.keyField e with
      | error e => rfl
      | ok key => exact hkey e key ⟨hn, hget, hfield⟩
    | struct s => rfl
    | enumeration e => exact congrArg Except.toOption (mapEnum_respelled e)

/-- **Where the spelling matters**: the keys of a discriminated union are compared as they are
spelled, so that the union is mapped alike if they are spelled alike. -/
theorem toOption_mapDiscriminated_respelled {members : List NativeType}
    (hm : NativeType.mentionsAll members ⊆ names) (h : c.registry.KeysSpelledAlike members)
    (t t' : NativeType) :
    (c.respelled.mapDiscriminated ofKey' t' (members.map NativeType.respelled)).toOption =
      (c.mapDiscriminated ofKey t members).toOption := by
  unfold mapDiscriminated
  rw [keyTypes_respelled h]
  cases htypes : c.keyTypes members with
  | error e => rfl
  | ok types =>
    match types, htypes with
    | [], _ | _ :: _ :: _, _ => rfl
    | [common], htypes =>
      obtain ⟨e, key, hamong, rfl⟩ := exists_of_mem_keyTypes hm htypes List.mem_cons_self
      exact hkey e key hamong

include hs

/-- **One step of mapping does not depend on the spelling** where keys are spelled alike, when the
types of keys are mapped alike. -/
theorem toOption_mapMemberWith_respelled :
    ∀ {t : NativeType}, t.mentions ⊆ names → c.registry.SpellsKeysAlike t →
      (c.respelled.mapMemberWith ofKey' t.respelled).toOption = (c.mapMemberWith ofKey t).toOption
  | .primitive p, _, _ => by
    unfold mapMemberWith
    rfl
  | .literal _, _, _ | .custom _ _, _, _ => by
    unfold mapMemberWith
    rfl
  | .ref name, ht, _ | .forward name, ht, _ => by
    rw [mapMemberWith_reference rfl (hs.substitute?_eq_none rfl),
      mapMemberWith_reference (c := c.respelled) rfl (hs.substitute?_eq_none rfl)]
    exact toOption_mapReference_respelled hkey (ht List.mem_cons_self)
  | .list item, _, _ => by
    have hlist := toOption_mapList_respelled hs (.list item) (.list item.respelled) item
    rw [NativeType.respelled, mapMemberWith, mapMemberWith, options_respelled,
      hs.substitute?_eq_none rfl, hs.substitute?_eq_none rfl]
    exact hlist
  | .annotated base as, ht, hk => by
    have hbase : c.registry.SpellsKeysAlike base := hk.of_holds fun _ => .base
    rw [NativeType.respelled, mapMemberWith_annotated (hs.substitute?_eq_none rfl),
      mapMemberWith_annotated (c := c.respelled) (hs.substitute?_eq_none rfl), registry_respelled,
      Registry.isSimple_respelled, options_respelled]
    split
    · exact toOption_mapSimple_respelled hs (.annotated base as)
    · split
      · exact toOption_mapMemberWith_respelled (t := base) ht hbase
      · rfl
  | .union members, ht, hk => by
    have hm : NativeType.mentionsAll members ⊆ names := ht
    have hmembers : ∀ m ∈ members, c.registry.SpellsKeysAlike m :=
      fun m hm => hk.of_holds fun _ => .member hm
    have hextensible := c.registry.extensible?_respelled (.union members)
    rw [NativeType.respelled] at hextensible
    have hall : (NativeType.respelledAll members).all (fun m =>
        (c.registry.respelled.entity? m).isSome) =
          members.all fun m => (c.registry.entity? m).isSome := by
      simp [List.all_map, Function.comp_def]
    have hempty : (NativeType.respelledAll members).isEmpty = members.isEmpty := by simp
    rw [NativeType.respelled, mapMemberWith_union (hs.substitute?_eq_none rfl),
      mapMemberWith_union (c := c.respelled) (hs.substitute?_eq_none rfl), registry_respelled,
      hextensible, hall, hempty]
    split
    · rfl
    · split
      · rename_i hentities
        rw [Bool.and_eq_true, List.all_eq_true] at hentities
        rw [NativeType.respelledAll_eq_map]
        exact toOption_mapDiscriminated_respelled hkey hm (hk members (.refl _) hentities.2) _ _
      · rw [toOption_bind, toOption_bind, toOption_mapMembersWith_respelled fun m hmem =>
          toOption_mapMemberWith_respelled
            (List.Subset.trans (NativeType.mentions_subset_mentionsAll hmem) hm) (hmembers m hmem)]
        exact Option.bind_congr fun types _ => by rw [toOption_mapError, toOption_mapError]
termination_by t => sizeOf t
decreasing_by
  · decreasing_tactic
  · have := List.sizeOf_lt_of_mem ‹_ ∈ members›
    simp only [NativeType.union.sizeOf_spec]
    omega

end Keys

/-- Keys are **spelled alike within** some names when these are closed under mentions and the types
of the keys of their entities spell keys alike. -/
structure SpelledWithin (r : Registry) (names : List String) : Prop where
  /-- The names are closed under mentions. -/
  closed : Registry.Agree r r names
  /-- The types of keys of these names spell keys alike. -/
  keys : ∀ e key, Registry.KeyTypeAmong r names e key → r.SpellsKeysAlike key.type

section Within

variable {names : List String} (hw : SpelledWithin c.registry names)
include hs hw

/-- However deep keys are followed, the spelling makes no difference. -/
theorem toOption_mapWithin_respelled (depth : Nat) :
    ∀ {t : NativeType}, t.mentions ⊆ names → c.registry.SpellsKeysAlike t →
      (c.respelled.mapWithin depth t.respelled).toOption = (c.mapWithin depth t).toOption := by
  induction depth with
  | zero => exact fun _ _ => rfl
  | succ depth ih =>
    intro t ht hk
    refine toOption_mapMemberWith_respelled hs (fun e key hamong => ?_) ht hk
    have hmem : key.type.respelled ∈ c.respelled.registry.keyTypes := hamong.respelled.mem_keyTypes
    rw [if_pos hmem, if_pos hamong.mem_keyTypes]
    exact ih (hamong.mentions_subset hw.closed) (hw.keys e key hamong)

/-- **A field has the data type that it has respelled.** -/
theorem toOption_mapMember_respelled {t : NativeType} (ht : t.mentions ⊆ names)
    (hk : c.registry.SpellsKeysAlike t) :
    (c.respelled.mapMember t.respelled).toOption = (c.mapMember t).toOption := by
  refine toOption_eq_toOption_iff.mpr fun d => ?_
  rw [mapMember_eq_ok_iff, mapMember_eq_ok_iff]
  refine exists_congr fun depth => ?_
  exact toOption_eq_toOption_iff.mp (toOption_mapWithin_respelled hs hw depth ht hk) d

end Within

/-! ### Types with a data type -/

section Mapped

variable {ofKey : NativeType → Except ConvertError DataType} {d : DataType}

/-- A union of entities has a data type only if all keys are of one type. -/
theorem keysSpelledAlike_of_mapDiscriminated {t : NativeType} {members : List NativeType}
    (hd : c.mapDiscriminated ofKey t members = .ok d) : c.registry.KeysSpelledAlike members := by
  obtain ⟨common, -, hcommon⟩ := exists_common_of_mapDiscriminated hd
  have type_eq : ∀ m ∈ members, ∀ key, c.registry.HasKey m key → key.type = common := by
    rintro m hm key ⟨e, he, hkey⟩
    obtain ⟨key', hkey', htype⟩ := hcommon m hm e he
    rw [hkey] at hkey'
    cases hkey'
    exact htype
  intro m hm m' hm' key key' hkey hkey' _
  rw [type_eq m hm key hkey, type_eq m' hm' key' hkey']

/-- **A type that has a data type spells keys alike.** -/
theorem spellsKeysAlike_of_mapMemberWith (hs : c.options.SubstitutesPrimitives) {t : NativeType}
    (hd : c.mapMemberWith ofKey t = .ok d) : c.registry.SpellsKeysAlike t := by
  intro members hholds hall
  -- the data type of what a type holds is asked for on the way down to the union
  generalize hu : NativeType.union members = u at hholds
  induction hholds generalizing d with
  | refl t =>
    subst hu
    cases members with
    | nil => exact nofun
    | cons m ms =>
      have hsimple : c.registry.isSimple m = false := by
        obtain ⟨e, he⟩ := Option.isSome_iff_exists.mp (hall m List.mem_cons_self)
        exact Registry.isSimple_of_referenced? (Registry.entity?_eq_some_iff.mp he) rfl
      have hnone : c.registry.extensible? (.union (m :: ms)) = none :=
        Registry.extensible?_eq_none List.mem_cons_self hsimple
      rw [mapMemberWith_union (hs.substitute?_eq_none rfl), hnone, if_neg (by simp),
        if_pos (by simpa using hall)] at hd
      exact keysSpelledAlike_of_mapDiscriminated hd
  | @base t _ as hbase ih =>
    subst hu
    rw [mapMemberWith_annotated (hs.substitute?_eq_none rfl)] at hd
    split at hd
    · exact Registry.SpellsKeysAlike.of_isSimple ‹_› members hbase hall
    · split at hd
      · exact ih hd rfl
      · cases hd
  | @member ts m _ hm hmember ih =>
    subst hu
    rcases mapMemberWith_union_cases (hs.substitute?_eq_none rfl) hd with
      ⟨e, he, -⟩ | ⟨-, hentities, -⟩ | ⟨-, types, htypes, -⟩
    · have hsimple := Registry.isSimple_of_extensible? he hm
      exact Registry.SpellsKeysAlike.of_isSimple hsimple members hmember hall
    · exact Registry.SpellsKeysAlike.of_entity? (hentities m hm) members hmember hall
    · obtain ⟨d', -, hd'⟩ := exists_of_mem_left htypes hm
      exact ih hd' rfl

end Mapped

end Converter

end SchemaCatalog
