import SchemaCatalog.Converter.Member
import SchemaCatalog.Proofs.DataType
import SchemaCatalog.Proofs.Registry.Lookup

/-!
# The data type of a field

Where settings put no data type in the place of a type, the data type of a field is given by
the kind of its type: `mapMemberWith_reference`, `mapMemberWith_annotated` and
`mapMemberWith_union`. A union gets its data type in one of three ways
(`mapMemberWith_union_cases`). It depends on the data types of keys in a simple way: relations of
conversions that pass through steps pass from these to it (`mapMemberWith_related`). On the way from
a field to the key of an entity the types of keys are followed, each at most once; more types of
keys to follow change no result (`mapMemberAlong_mono`), so that the data type of a key does not
depend on where it was met (`mapMember_of_keyAlong`).
-/

namespace SchemaCatalog

/-- Settings **substitute primitives** only: every substitution is one of a built-in type. -/
def Options.SubstitutesPrimitives (o : Options) : Prop :=
  ∀ s ∈ o.substitutions, s.1.isPrimitive = true

theorem Options.SubstitutesPrimitives.substitute?_eq_none {o : Options}
    (h : o.SubstitutesPrimitives) {t : NativeType} (ht : t.isPrimitive = false) :
    o.substitute? t = none := by
  rw [substitute?, List.lookup_eq_none_iff]
  intro s hs
  rw [bne_iff_ne]
  rintro rfl
  rw [h s hs] at ht
  cases ht

namespace Converter

variable {c : Converter}

/-! ### Kinds of types -/

section Kinds

variable {ofKey : NativeType → Except ConvertError DataType}

theorem mapMemberWith_reference {t : NativeType} {name : String}
    (hname : t.referencedName? = some name) (hs : c.options.substitute? t = none) :
    c.mapMemberWith ofKey t = c.mapReference ofKey name := by
  cases t with
  | ref _ | forward _ =>
    cases hname
    rw [mapMemberWith, hs]
  | _ => cases hname

/-- A built-in type has its data type, be it a substitute or not. -/
theorem mapMemberWith_primitive (p : Primitive) :
    c.mapMemberWith ofKey (.primitive p) = .ok (c.mapPrimitive p) := by
  rw [mapMemberWith, mapPrimitive]
  cases c.options.substitute? (.primitive p) <;> rfl

/-- An annotated type is mapped with its annotations when it is simple; otherwise they have to
be ignored. -/
theorem mapMemberWith_annotated {base : NativeType} {as : List Annotation}
    (hs : c.options.substitute? (.annotated base as) = none) :
    c.mapMemberWith ofKey (.annotated base as) =
      if c.registry.isSimple base then c.mapSimple (.annotated base as)
      else if as.all c.options.skips then c.mapMemberWith ofKey base
      else .error (.unsupported (NativeType.annotated base as).display .annotatedComposite) := by
  rw [mapMemberWith, hs]

/-- A union is an extensible enumeration, a union of entities, or one of values of a common
type. -/
theorem mapMemberWith_union {members : List NativeType}
    (hs : c.options.substitute? (.union members) = none) :
    c.mapMemberWith ofKey (.union members) =
      if (c.registry.extensible? (.union members)).isSome then .ok c.enumKeyType
      else if !members.isEmpty && members.all fun m => (c.registry.entity? m).isSome then
        c.mapDiscriminated ofKey (.union members) members
      else c.mapMembersWith ofKey members >>= fun types =>
        (DataType.common? types).mapError
          (.incompatibleUnion (NativeType.union members).display) := by
  rw [mapMemberWith, hs]

/-- The members of a union are mapped one by one. -/
theorem mapMembersWith_eq_mapM (ts : List NativeType) :
    c.mapMembersWith ofKey ts = ts.mapM (c.mapMemberWith ofKey) := by
  induction ts with
  | nil => rw [mapMembersWith, List.mapM_nil]; rfl
  | cons t ts ih => rw [mapMembersWith, List.mapM_cons, ih]

/-- A union with a data type is an extensible enumeration, a union of entities, or one of members
whose data types have a common type. -/
theorem mapMemberWith_union_cases {members : List NativeType}
    (hs : c.options.substitute? (.union members) = none) {d : DataType}
    (hd : c.mapMemberWith ofKey (.union members) = .ok d) :
    (∃ e, c.registry.extensible? (.union members) = some e ∧ d = c.enumKeyType) ∨
      (c.registry.extensible? (.union members) = none ∧
        (∀ m ∈ members, (c.registry.entity? m).isSome = true) ∧
        c.mapDiscriminated ofKey (.union members) members = .ok d) ∨
      (c.registry.extensible? (.union members) = none ∧
        ∃ types, List.Forall₂ (fun m d => c.mapMemberWith ofKey m = .ok d) members types ∧
          DataType.common? types = .ok d) := by
  rw [mapMemberWith_union hs] at hd
  cases he : c.registry.extensible? (.union members) with
  | some e =>
    rw [he, if_pos Option.isSome_some] at hd
    exact .inl ⟨e, rfl, (Except.ok.inj hd).symm⟩
  | none =>
    rw [he, if_neg (by simp)] at hd
    split at hd
    · rename_i hentities
      rw [Bool.and_eq_true, List.all_eq_true] at hentities
      exact .inr (.inl ⟨rfl, hentities.2, hd⟩)
    · obtain ⟨types, htypes, hd⟩ := bind_eq_ok_iff.mp hd
      rw [mapMembersWith_eq_mapM] at htypes
      exact .inr (.inr ⟨rfl, types, mapM_eq_ok_iff.mp htypes, mapError_eq_ok_iff.mp hd⟩)

/-- A member of a union with a common type refers to what the common type refers to. -/
theorem exists_mapMemberWith_of_common {members : List NativeType} {types : List DataType}
    {d : DataType}
    (htypes : List.Forall₂ (fun m d => c.mapMemberWith ofKey m = .ok d) members types)
    (hd : DataType.common? types = .ok d) {m : NativeType} (hm : m ∈ members) :
    ∃ d', c.mapMemberWith ofKey m = .ok d' ∧ d'.named? = d.named? := by
  obtain ⟨d', hmem, hd'⟩ := exists_of_mem_left htypes hm
  exact ⟨d', hd', (DataType.named?_of_common? hd).2 d' hmem⟩

/-- Annotations of a type that is not simple do not show. -/
theorem mapMemberWith_unadorned (h : c.options.SubstitutesPrimitives) {d : DataType} :
    ∀ {t : NativeType}, c.registry.isSimple t.unadorned = false →
      c.mapMemberWith ofKey t = .ok d → c.mapMemberWith ofKey t.unadorned = .ok d
  | .annotated base as, hsimple, hd => by
    rw [NativeType.unadorned, Registry.isSimple_unadorned] at hsimple
    rw [mapMemberWith_annotated (h.substitute?_eq_none rfl),
      if_neg (by rw [hsimple]; exact Bool.false_ne_true)] at hd
    split at hd
    · exact mapMemberWith_unadorned h (t := base) (by rw [Registry.isSimple_unadorned, hsimple]) hd
    · cases hd
  | .primitive _, _, hd | .ref _, _, hd | .forward _, _, hd | .literal _, _, hd | .list _, _, hd
  | .union _, _, hd | .custom _ _, _, hd => hd

end Kinds

/-! ### Other data types of keys -/

/-- A relation of conversions **passes through steps** when every conversion is related to itself,
and sequences are when their first steps are and the rests that follow them. -/
structure PassesSteps (R : ∀ {α : Type}, Except ConvertError α → Except ConvertError α → Prop) :
    Prop where
  /-- Every conversion is related to itself. -/
  refl {α : Type} (x : Except ConvertError α) : R x x
  /-- Related steps make related sequences. -/
  bind {α β : Type} {x y : Except ConvertError α} {f g : α → Except ConvertError β} :
    R x y → (∀ a, R (f a) (g a)) → R (x >>= f) (y >>= g)

section Related

variable {R : ∀ {α : Type}, Except ConvertError α → Except ConvertError α → Prop}
  {ofKey ofKey' : NativeType → Except ConvertError DataType}

/-- What relates mapping the types of keys relates mapping references. -/
theorem mapReference_related (hR : PassesSteps R) (h : ∀ k, R (ofKey k) (ofKey' k))
    (name : String) : R (c.mapReference ofKey name) (c.mapReference ofKey' name) := by
  refine hR.bind (hR.refl _) fun found => ?_
  cases found with
  | entity e => exact hR.bind (hR.refl _) fun key => h key.type
  | struct s => exact hR.refl _
  | enumeration e => exact hR.refl _

/-- What relates mapping the types of keys relates mapping discriminated unions. -/
theorem mapDiscriminated_related (hR : PassesSteps R) (h : ∀ k, R (ofKey k) (ofKey' k))
    (t : NativeType) (members : List NativeType) :
    R (c.mapDiscriminated ofKey t members) (c.mapDiscriminated ofKey' t members) := by
  refine hR.bind (hR.refl _) fun keys => ?_
  match keys with
  | [common] => exact h common
  | [] | _ :: _ :: _ => exact hR.refl _

mutual

/-- **Related data types of keys give related data types.** -/
theorem mapMemberWith_related (hR : PassesSteps R) (h : ∀ k, R (ofKey k) (ofKey' k)) :
    ∀ t : NativeType, R (c.mapMemberWith ofKey t) (c.mapMemberWith ofKey' t) := by
  intro t
  unfold mapMemberWith
  cases c.options.substitute? t with
  | some d => exact hR.refl _
  | none =>
    match t with
    | .primitive _ | .literal _ | .list _ | .custom _ _ => exact hR.refl _
    | .ref name | .forward name => exact mapReference_related hR h name
    | .annotated base as =>
      dsimp only
      split
      · exact hR.refl _
      · split
        · exact mapMemberWith_related hR h base
        · exact hR.refl _
    | .union members =>
      dsimp only
      split
      · exact hR.refl _
      · split
        · exact mapDiscriminated_related hR h _ members
        · exact hR.bind (mapMembersWith_related hR h members) fun _ => hR.refl _

theorem mapMembersWith_related (hR : PassesSteps R) (h : ∀ k, R (ofKey k) (ofKey' k)) :
    ∀ ts : List NativeType, R (c.mapMembersWith ofKey ts) (c.mapMembersWith ofKey' ts)
  | [] => hR.refl _
  | t :: ts => hR.bind (mapMemberWith_related hR h t) fun _ =>
      hR.bind (mapMembersWith_related hR h ts) fun _ => hR.refl _

end

/-- Conversions that succeed may be replaced by others with the same results. -/
theorem passesSteps_ok : PassesSteps fun {α} (x y : Except ConvertError α) =>
    ∀ a, x = .ok a → y = .ok a where
  refl _ _ h := h
  bind hxy hfg b h := by
    obtain ⟨a, ha, h⟩ := bind_eq_ok_iff.mp h
    exact bind_eq_ok_iff.mpr ⟨a, hxy a ha, hfg a b h⟩

/-- More data types of keys change no result. -/
theorem mapMemberWith_mono (h : ∀ k d, ofKey k = .ok d → ofKey' k = .ok d) {t : NativeType}
    {d : DataType} (hd : c.mapMemberWith ofKey t = .ok d) : c.mapMemberWith ofKey' t = .ok d :=
  mapMemberWith_related passesSteps_ok h t d hd

end Related

/-! ### Following more keys -/

/-- The data type of a key of some type, following keys of the given types. -/
def keyAlong (c : Converter) (keys : List NativeType) (key : NativeType) :
    Except ConvertError DataType :=
  if key ∈ keys then c.mapMemberAlong (otherKeys key keys) key
  else .error (.unsupported key.display .cyclicKey)

/-- Following keys is one step of mapping after the other. -/
theorem mapMemberAlong_eq (keys : List NativeType) (t : NativeType) :
    c.mapMemberAlong keys t = c.mapMemberWith (c.keyAlong keys) t := by
  rw [mapMemberAlong]
  rfl

/-- A field of a built-in type has the data type of the built-in type. -/
theorem mapMember_primitive (p : Primitive) :
    c.mapMember (.primitive p) = .ok (c.mapPrimitive p) := by
  rw [mapMember, mapMemberAlong_eq, mapMemberWith_primitive]

/-- More types of keys to follow change no result. -/
theorem mapMemberAlong_mono {keys keys' : List NativeType} (hsub : keys ⊆ keys')
    {t : NativeType} {d : DataType} (h : c.mapMemberAlong keys t = .ok d) :
    c.mapMemberAlong keys' t = .ok d := by
  rw [mapMemberAlong_eq] at h ⊢
  refine mapMemberWith_mono (fun key d hd => ?_) h
  unfold keyAlong at hd ⊢
  split at hd
  · rename_i hkey
    rw [if_pos (hsub hkey)]
    -- past a key, both lists go on without it
    have hothers : otherKeys key keys ⊆ otherKeys key keys' := by
      intro k hk
      obtain ⟨hk, hne⟩ := List.mem_filter.mp hk
      exact List.mem_filter.mpr ⟨hsub hk, hne⟩
    exact mapMemberAlong_mono hothers hd
  · cases hd
termination_by keys.length
decreasing_by exact length_otherKeys_lt ‹_›

/-- The data type of a key that has been followed is that of its type. -/
theorem mapMember_of_keyAlong {keys : List NativeType} (hkeys : keys ⊆ c.registry.keyTypes)
    {key : NativeType} {d : DataType} (h : c.keyAlong keys key = .ok d) :
    c.mapMember key = .ok d := by
  unfold keyAlong at h
  split at h
  · exact mapMemberAlong_mono (fun k hk => hkeys (List.mem_filter.mp hk).1) h
  · cases h

end Converter

end SchemaCatalog
