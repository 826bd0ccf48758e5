import SchemaCatalog.Assembly.Uses
import SchemaCatalog.Converter.Composite
import SchemaCatalog.Converter.Join
import SchemaCatalog.Proofs.Converter.Member
import SchemaCatalog.Proofs.Converter.Role
import SchemaCatalog.Proofs.Converter.Simple
import SchemaCatalog.Proofs.Registry.Agreement

/-!
# Conversions see only what is mentioned

Where two registries agree, conversions with the same settings give the same result or the same
error, function by function: for the type of a field that mentions only names on which they
agree, and for entities and structs of these names.
-/

namespace SchemaCatalog.Converter

open Registry

variable {r r' : Registry} {names : List String} {o : Options} {t : NativeType}

/-! ### Simple types -/

/-- A simple type is mapped alike where the definitions of the names that it mentions agree. -/
theorem mapSimpleWith_congr (h : Agree r r' names) (ht : t.mentions ⊆ names)
    {ofEnum : Enumeration → Except ConvertError DataType} :
    mapSimpleWith ⟨r, o⟩ ofEnum t = mapSimpleWith ⟨r', o⟩ ofEnum t := by
  have hu : t.unadorned.mentions ⊆ names := t.mentions_unadorned ▸ ht
  unfold mapSimpleWith
  cases t with
  | primitive p => rfl
  | annotated base as =>
    dsimp only
    generalize (NativeType.annotated base as).unadorned = u at hu ⊢
    cases u with
    | primitive p => rfl
    | _ => simp only [h.enumeration?_eq hu]
  | _ => simp only [h.enumeration?_eq ht]

/-- The type of the values of an enumeration mentions nothing. -/
theorem mentions_enumValueType {e : Enumeration} (h : enumValueType e = .ok t) :
    t.mentions = [] := by
  rcases enumValueType_eq_ok h with rfl | ⟨-, v, -, rfl⟩
  · rfl
  · cases v <;> rfl

/-- The values of an enumeration are mapped without the definitions. -/
theorem mapEnumValues_congr (r r' : Registry) (o : Options) (e : Enumeration) :
    mapEnumValues ⟨r, o⟩ e = mapEnumValues ⟨r', o⟩ e := by
  unfold mapEnumValues
  refine bind_congr_of_ok fun t ht => mapSimpleWith_congr (agree_nil r r') ?_
  rw [mentions_enumValueType ht]
  exact List.nil_subset _

theorem mapEnum_congr (r r' : Registry) (o : Options) : mapEnum ⟨r, o⟩ = mapEnum ⟨r', o⟩ := by
  funext e
  unfold mapEnum
  rw [mapEnumValues_congr r r']
  rfl

theorem mapSimple_congr (h : Agree r r' names) (ht : t.mentions ⊆ names) :
    mapSimple ⟨r, o⟩ t = mapSimple ⟨r', o⟩ t := by
  unfold mapSimple
  rw [mapEnum_congr r r', mapSimpleWith_congr h ht]

/-! ### Types of fields -/

/-- The name of an item is that of the definition which both registries have for it. -/
theorem itemName_congr (h : Agree r r' names) {item : NativeType} (hi : item.mentions ⊆ names) :
    itemName ⟨r, o⟩ t item = itemName ⟨r', o⟩ t item := by
  unfold itemName
  cases item with
  | ref name | forward name =>
    dsimp only
    rw [h.resolve_eq (hi List.mem_cons_self)]
    rfl
  | _ => rfl

/-- A list is mapped alike, as its item is. -/
theorem mapList_congr (h : Agree r r' names) {item : NativeType} (hi : item.mentions ⊆ names) :
    mapList ⟨r, o⟩ t item = mapList ⟨r', o⟩ t item := by
  have hu : item.unadorned.mentions ⊆ names := item.mentions_unadorned ▸ hi
  unfold mapList mapSimpleArray
  simp only [h.isSimple_eq hi, h.entity?_eq hi, h.enumeration?_eq hu, mapSimple_congr h hi,
    itemName_congr h hi, mapEnumValues_congr r r']
  rfl

section Keys

variable {ofKey ofKey' : NativeType → Except ConvertError DataType}

/-- A reference is mapped alike when the types of keys are. -/
theorem mapReference_congr (h : Agree r r' names)
    (hkey : ∀ e key, KeyTypeAmong r names e key → ofKey key.type = ofKey' key.type) {name : String}
    (hn : name ∈ names) : mapReference ⟨r, o⟩ ofKey name = mapReference ⟨r', o⟩ ofKey' name := by
  unfold mapReference
  dsimp only
  rw [← h.resolve_eq hn, mapEnum_congr r r']
  refine bind_congr_of_ok fun d hd => ?_
  have hget := resolve_eq_ok_iff.mp hd
  obtain rfl := name_of_get? hget
  cases d with
  | entity e => exact bind_congr_of_ok fun key hfield => hkey e key ⟨hn, hget, hfield⟩
  | struct s => rfl
  | enumeration e => rfl

/-- The key types of a union are those of entities that it mentions. -/
theorem exists_of_mem_keyTypes {members types : List NativeType}
    (hm : NativeType.mentionsAll members ⊆ names) (h : keyTypes ⟨r, o⟩ members = .ok types)
    {k : NativeType} (hk : k ∈ types) : ∃ e key, KeyTypeAmong r names e key ∧ key.type = k := by
  obtain ⟨keys, hkeys, h⟩ := bind_eq_ok_iff.mp h
  rw [← pure_eq_ok_iff.mp h, List.mem_eraseDups] at hk
  obtain ⟨key, hkey, rfl⟩ := List.mem_map.mp hk
  obtain ⟨e, he, hfield⟩ := (mem_iff_of_mapM hkeys).mp hkey
  obtain ⟨m, hmem, hme⟩ := List.mem_filterMap.mp he
  obtain ⟨hget, hmentions⟩ := get?_of_referenced? (entity?_eq_some_iff.mp hme)
  refine ⟨e, key, ⟨hm (NativeType.mentions_subset_mentionsAll hmem ?_), hget, hfield⟩, rfl⟩
  rw [hmentions]
  exact List.mem_cons_self

theorem keyTypes_congr (h : Agree r r' names) {members : List NativeType}
    (hm : NativeType.mentionsAll members ⊆ names) :
    keyTypes ⟨r, o⟩ members = keyTypes ⟨r', o⟩ members := by
  have hentities : members.filterMap r.entity? = members.filterMap r'.entity? := by
    refine List.filterMap_congr fun m hmem => h.entity?_eq ?_
    exact List.Subset.trans (NativeType.mentions_subset_mentionsAll hmem) hm
  unfold keyTypes
  dsimp only
  rw [hentities]

/-- A discriminated union is mapped alike when the types of keys are. -/
theorem mapDiscriminated_congr (h : Agree r r' names)
    (hkey : ∀ e key, KeyTypeAmong r names e key → ofKey key.type = ofKey' key.type)
    {members : List NativeType} (hm : NativeType.mentionsAll members ⊆ names) :
    mapDiscriminated ⟨r, o⟩ ofKey t members = mapDiscriminated ⟨r', o⟩ ofKey' t members := by
  unfold mapDiscriminated
  rw [← keyTypes_congr h hm]
  refine bind_congr_of_ok fun types htypes => ?_
  match types, htypes with
  | [], _ | _ :: _ :: _, _ => rfl
  | [common], htypes =>
    obtain ⟨e, key, hamong, rfl⟩ := exists_of_mem_keyTypes hm htypes List.mem_cons_self
    exact hkey e key hamong

mutual

/-- **One step of mapping agrees** where the definitions of all names agree that the type mentions,
when it does so for the types of keys. -/
theorem mapMemberWith_congr (h : Agree r r' names)
    (hkey : ∀ e key, KeyTypeAmong r names e key → ofKey key.type = ofKey' key.type) :
    ∀ {t : NativeType}, t.mentions ⊆ names →
      mapMemberWith ⟨r, o⟩ ofKey t = mapMemberWith ⟨r', o⟩ ofKey' t := by
  intro t ht
  unfold mapMemberWith
  dsimp only
  cases o.substitute? t with
  | some d => rfl
  | none =>
    match t with
    | .primitive _ | .literal _ | .custom _ _ => rfl
    | .list item => exact mapList_congr h ht
    | .ref name | .forward name => exact mapReference_congr h hkey (ht List.mem_cons_self)
    | .annotated base as =>
      have hbase : base.mentions ⊆ names := ht
      dsimp only
      rw [h.isSimple_eq hbase, mapSimple_congr h (t := .annotated base as) ht,
        mapMemberWith_congr h hkey hbase]
    | .union members =>
      have hm : NativeType.mentionsAll members ⊆ names := ht
      have hentities : (members.all fun m => (r.entity? m).isSome) =
          members.all fun m => (r'.entity? m).isSome := by
        rw [Bool.eq_iff_iff, List.all_eq_true, List.all_eq_true]
        refine forall₂_congr fun m hmem => ?_
        rw [h.entity?_eq (List.Subset.trans (NativeType.mentions_subset_mentionsAll hmem) hm)]
      dsimp only
      rw [h.extensible?_eq ht, mapDiscriminated_congr h hkey hm, mapMembersWith_congr h hkey hm,
        hentities]
      rfl

theorem mapMembersWith_congr (h : Agree r r' names)
    (hkey : ∀ e key, KeyTypeAmong r names e key → ofKey key.type = ofKey' key.type) :
    ∀ {ts : List NativeType}, NativeType.mentionsAll ts ⊆ names →
      mapMembersWith ⟨r, o⟩ ofKey ts = mapMembersWith ⟨r', o⟩ ofKey' ts
  | [], _ => rfl
  | t :: ts, hts => by
    obtain ⟨ht, hts⟩ := List.append_subset.mp hts
    unfold mapMembersWith
    rw [mapMemberWith_congr h hkey ht, mapMembersWith_congr h hkey hts]

end

end Keys

/-- Following keys of given types depends only on which key types among the names are given. -/
theorem mapMemberAlong_congr (h : Agree r r' names) {keys keys' : List NativeType}
    (hkeys : ∀ e key, KeyTypeAmong r names e key → (key.type ∈ keys ↔ key.type ∈ keys'))
    {t : NativeType} (ht : t.mentions ⊆ names) :
    mapMemberAlong ⟨r, o⟩ keys t = mapMemberAlong ⟨r', o⟩ keys' t := by
  rw [mapMemberAlong_eq, mapMemberAlong_eq]
  refine mapMemberWith_congr h (fun e key hamong => ?_) ht
  unfold keyAlong
  by_cases hkey : key.type ∈ keys
  · rw [if_pos hkey, if_pos ((hkeys e key hamong).mp hkey)]
    -- past a key, both lists go on without it
    refine mapMemberAlong_congr h (fun e' key' hamong' => ?_) (hamong.mentions_subset h)
    simp only [otherKeys, List.mem_filter, hkeys e' key' hamong']
  · rw [if_neg hkey, if_neg (fun hkey' => hkey ((hkeys e key hamong).mpr hkey'))]
termination_by keys.length
decreasing_by exact length_otherKeys_lt ‹_›

/-- **The data type of a field** depends on the definitions that its type mentions only. -/
theorem mapMember_congr (h : Agree r r' names) (ht : t.mentions ⊆ names) :
    mapMember ⟨r, o⟩ t = mapMember ⟨r', o⟩ t := by
  refine mapMemberAlong_congr h (fun e key hamong => ?_) ht
  exact iff_of_true hamong.mem_keyTypes (hamong.of_agree h).mem_keyTypes

/-! ### Roles -/

/-- The item of a list that stands for a relationship is the same definition in both registries. -/
theorem relatedItem?_congr (h : Agree r r' names) (ht : t.mentions ⊆ names) :
    relatedItem? ⟨r, o⟩ t = relatedItem? ⟨r', o⟩ t := by
  cases t with
  | list item =>
    have hu : item.unadorned.mentions ⊆ names := item.mentions_unadorned ▸ ht
    unfold relatedItem?
    simp only [h.referenced?_eq hu]
  | _ => rfl

theorem unionEntities?_congr (h : Agree r r' names) (ht : t.mentions ⊆ names) :
    unionEntities? ⟨r, o⟩ t = unionEntities? ⟨r', o⟩ t := by
  cases t with
  | union ms =>
    cases ms with
    | nil => rfl
    | cons m ms =>
      refine mapM_congr fun m' hm' => h.entity?_eq ?_
      exact List.Subset.trans (NativeType.mentions_subset_mentionsAll hm') ht
  | _ => rfl

/-- What a field stands for is the same where the definitions agree. -/
theorem role_congr (h : Agree r r' names) (ht : t.mentions ⊆ names) :
    role ⟨r, o⟩ t = role ⟨r', o⟩ t := by
  have hu : t.unadorned.mentions ⊆ names := t.mentions_unadorned ▸ ht
  unfold role
  dsimp only
  rw [relatedItem?_congr h hu, h.referenced?_eq hu, h.extensible?_eq hu, unionEntities?_congr h hu]
  rfl

theorem isRelationship_congr (h : Agree r r' names) (ht : t.mentions ⊆ names) :
    isRelationship ⟨r, o⟩ t = isRelationship ⟨r', o⟩ t := by
  have hu : t.unadorned.mentions ⊆ names := t.mentions_unadorned ▸ ht
  rw [isRelationship, isRelationship, relatedItem?_congr h hu]

/-! ### Entities -/

section Entities

variable {e : Entity} (h : Agree r r' names) (he : ∀ f ∈ e.fields, f.type.mentions ⊆ names)
include h he

/-- The columns of an entity are the same where the definitions of all names agree that its fields
mention. -/
theorem columns_congr : columns ⟨r, o⟩ e = columns ⟨r', o⟩ e := by
  have hfilter : (e.fields.filter fun f => !isRelationship ⟨r, o⟩ f.type) =
      e.fields.filter fun f => !isRelationship ⟨r', o⟩ f.type :=
    List.filter_congr fun f hf => by rw [isRelationship_congr h (he f hf)]
  unfold columns
  rw [hfilter]
  refine mapM_congr fun f hf => ?_
  unfold column
  rw [mapMember_congr h (he f (List.mem_filter.mp hf).1)]

theorem constraints_congr : constraints ⟨r, o⟩ e = constraints ⟨r', o⟩ e := by
  have hkeys : ∀ stem, entityConstraints ⟨r, o⟩ stem e = entityConstraints ⟨r', o⟩ stem e := by
    intro stem
    unfold entityConstraints
    rw [mapM_congr fun f hf => ?_]
    unfold entityConstraint?
    rw [role_congr h (he f hf)]
    rfl
  unfold constraints
  simp only [hkeys]
  rfl

theorem lookupConstraints_congr {stem : String} :
    lookupConstraints ⟨r, o⟩ stem e = lookupConstraints ⟨r', o⟩ stem e := by
  unfold lookupConstraints
  rw [mapM_congr fun f hf => ?_]
  unfold lookupConstraint? lookedUp?
  rw [role_congr h (he f hf)]
  rfl

theorem checkConstraints_congr {stem : String} :
    checkConstraints ⟨r, o⟩ stem e = checkConstraints ⟨r', o⟩ stem e := by
  unfold checkConstraints
  rw [List.filterMap_congr fun f hf => ?_]
  unfold checkConstraint?
  rw [role_congr h (he f hf)]

/-- **The table of an entity** depends on the definitions that its fields mention only. -/
theorem table_congr : table ⟨r, o⟩ e = table ⟨r', o⟩ e := by
  unfold table tableParts
  simp only [columns_congr h he, constraints_congr h he, lookupConstraints_congr h he,
    checkConstraints_congr h he]
  rfl

end Entities

/-! ### Other objects -/

/-- A lookup table depends on no other definition. -/
theorem lookupTable_congr (r r' : Registry) (o : Options) (e : Enumeration) :
    lookupTable ⟨r, o⟩ e = lookupTable ⟨r', o⟩ e := by
  have hlabels : mapSimple ⟨r, o⟩ labelType = mapSimple ⟨r', o⟩ labelType :=
    mapSimple_congr (agree_nil r r') (List.nil_subset _)
  unfold lookupTable
  rw [hlabels]
  rfl

/-- A composite type is the same where the definitions of all names agree that its fields mention.
-/
theorem composite_congr (h : Agree r r' names) {d : Definition}
    (hd : ∀ f ∈ d.fields, f.type.mentions ⊆ names) :
    composite ⟨r, o⟩ d = composite ⟨r', o⟩ d := by
  have hmembers : d.fields.mapM (compositeMember ⟨r, o⟩) =
      d.fields.mapM (compositeMember ⟨r', o⟩) := by
    refine mapM_congr fun f hf => ?_
    unfold compositeMember
    rw [mapMember_congr h (hd f hf)]
  unfold composite
  cases d with
  | enumeration e => rfl
  | _ =>
    dsimp only
    rw [hmembers]
    rfl

theorem relatedKey_congr (h : Agree r r' names) {item : RelatedItem}
    (hitem : ∀ f ∈ item.definition.fields, f.type.mentions ⊆ names) :
    relatedKey ⟨r, o⟩ item = relatedKey ⟨r', o⟩ item := by
  cases item with
  | entity e =>
    refine bind_congr_of_ok fun key hkey => ?_
    rw [mapMember_congr h (hitem key (mem_of_keyField hkey).1)]
  | enumeration e => rfl

/-- A join table depends on the definitions that its two sides mention only. -/
theorem joinTable_congr (h : Agree r r' names) {e : Entity} {name : String} {item : RelatedItem}
    (he : ∀ f ∈ e.fields, f.type.mentions ⊆ names)
    (hitem : ∀ f ∈ item.definition.fields, f.type.mentions ⊆ names) :
    joinTable ⟨r, o⟩ e name item = joinTable ⟨r', o⟩ e name item := by
  have huuid : mapMember ⟨r, o⟩ (.primitive .uuid) = mapMember ⟨r', o⟩ (.primitive .uuid) :=
    mapMember_congr (agree_nil r r') (List.nil_subset _)
  unfold joinTable
  refine bind_congr_of_ok fun key hkey => ?_
  rw [relatedKey_congr h hitem, huuid, mapMember_congr h (he key (mem_of_keyField hkey).1)]
  rfl

/-! ### Uses of enumerations -/

mutual

/-- The enumerations that a type uses without extending them are the same where the definitions
agree. -/
theorem plainEnums_congr (h : Agree r r' names) :
    ∀ {t : NativeType}, t.mentions ⊆ names → plainEnums ⟨r, o⟩ t = plainEnums ⟨r', o⟩ t
  | .annotated base _, ht => by
    unfold plainEnums
    exact plainEnums_congr h (t := base) ht
  | .list item, ht => by
    unfold plainEnums
    exact plainEnums_congr h (t := item) ht
  | .union members, ht => by
    have hm : NativeType.mentionsAll members ⊆ names := ht
    unfold plainEnums
    rw [plainEnumsAll_congr h hm]
    dsimp only
    rw [h.extensible?_eq ht]
  | .ref _, ht | .forward _, ht => by
    unfold plainEnums
    dsimp only
    rw [h.enumeration?_eq ht]
  | .primitive _, _ | .literal _, _ | .custom _ _, _ => by simp [plainEnums]

theorem plainEnumsAll_congr (h : Agree r r' names) :
    ∀ {ts : List NativeType}, NativeType.mentionsAll ts ⊆ names →
      plainEnumsAll ⟨r, o⟩ ts = plainEnumsAll ⟨r', o⟩ ts
  | [], _ => by simp [plainEnumsAll]
  | t :: ts, hts => by
    obtain ⟨ht, hts⟩ := List.append_subset.mp hts
    unfold plainEnumsAll
    rw [plainEnums_congr h ht, plainEnumsAll_congr h hts]

end

end SchemaCatalog.Converter
