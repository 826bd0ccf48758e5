import SchemaCatalog.Proofs.Converter.KeyDepth
import SchemaCatalog.Proofs.Converter.Simple

/-!
# Annotations that take effect

The annotations of a type are those of all its layers, from the inside to the outside, and settings
ignore some kinds of them. Those that are left are the effective ones (`Options.effective`). A
simple type is mapped as its unadorned type refined by the effective annotations
(`toOption_mapSimple`), any other type as its unadorned type if none is effective, and not at all
otherwise (`toOption_mapMemberWith_of_isSimple_eq_false`). So it does not matter how annotations are
nested (`toOption_annotated_of_effective_eq`).

One type is mapped differently with and without annotations: a floating point number of no stated
precision is a double, but annotations, be they ignored, make it a number of some precision. What
else ignored annotations change is how a union is understood. They hide a reference from it, so that
the union is neither an extensible enumeration nor a union of entities on account of that member,
but one whose members have a common type (`toOption_annotated_of_skipped`).
-/

namespace SchemaCatalog

/-- Settings **substitute unadorned types** only: no substitution is one of an annotated type. -/
def Options.SubstitutesUnadorned (o : Options) : Prop :=
  ∀ s ∈ o.substitutions, s.1.unadorned = s.1

theorem Options.SubstitutesUnadorned.substitute?_annotated {o : Options}
    (h : o.SubstitutesUnadorned) (base : NativeType) (as : List Annotation) :
    o.substitute? (.annotated base as) = none := by
  rw [substitute?, List.lookup_eq_none_iff]
  intro s hs
  rw [bne_iff_ne]
  intro heq
  have hs := h s hs
  rw [← heq] at hs
  exact NativeType.unadorned_ne_annotated base as hs

/-- The **effective** annotations of a type are those that settings do not ignore, innermost
first. -/
def Options.effective (o : Options) (t : NativeType) : List Annotation :=
  t.annotations.filter fun a => !o.skips a

/-- The annotations in effect are those of the base and those of its own that are not skipped. -/
theorem Options.effective_annotated (o : Options) (base : NativeType) (as : List Annotation) :
    o.effective (.annotated base as) = o.effective base ++ as.filter fun a => !o.skips a :=
  List.filter_append ..

theorem Options.effective_annotated_of_skipped {o : Options} {as : List Annotation}
    (hskip : ∀ a ∈ as, o.skips a = true) (base : NativeType) :
    o.effective (.annotated base as) = o.effective base := by
  have hnone : (as.filter fun a => !o.skips a) = [] :=
    List.filter_eq_nil_iff.mpr fun a ha => by simp [hskip a ha]
  rw [effective_annotated, hnone, List.append_nil]

namespace Converter

variable {c : Converter} {t : NativeType} {as : List Annotation}

/-! ### Simple types -/

/-- Refining passes over the annotations that are ignored. -/
theorem refine_filter (o : Options) (subject : NativeType) (target : Option DataType)
    (as : List Annotation) :
    refine o subject target (as.filter fun a => !o.skips a) = refine o subject target as := by
  induction as generalizing target with
  | nil => rfl
  | cons a as ih =>
    cases hskip : o.skips a with
    | true =>
      rw [List.filter_cons_of_neg (by simp [hskip]), ih]
      simp only [refine, hskip, if_true]
    | false =>
      rw [List.filter_cons_of_pos (by simp [hskip])]
      simp only [refine, hskip, ih]

/-- An unadorned type that annotations refine: it starts from its provisional data type, and from
none if it has none, in which case it is mapped as it is. -/
def refined? (c : Converter) (ofEnum : Enumeration → Except ConvertError DataType)
    (u : NativeType) (as : List Annotation) : Option DataType :=
  (refine c.options u (c.start? u) as).toOption.bind fun target =>
    target.or (c.mapPlainWith ofEnum u).toOption

/-- A **plain float** is a floating point number of no stated precision that has no substitute. -/
def IsPlainFloat (c : Converter) (t : NativeType) : Prop :=
  t = .primitive .float ∧ c.options.substitute? t = none

theorem not_isPlainFloat_annotated (base : NativeType) (as : List Annotation) :
    ¬ c.IsPlainFloat (.annotated base as) :=
  nofun

section Simple

variable {ofEnum : Enumeration → Except ConvertError DataType}

/-- What a simple type is mapped to depends on its base and on the annotations in effect alone,
errors aside. -/
theorem toOption_mapSimpleWith_annotated (h : c.options.SubstitutesUnadorned)
    (base : NativeType) (as : List Annotation) :
    (c.mapSimpleWith ofEnum (.annotated base as)).toOption =
      c.refined? ofEnum base.unadorned (c.options.effective (.annotated base as)) := by
  rw [mapSimpleWith_annotated (h.substitute?_annotated base as), toOption_bind, refined?,
    toOption_refine _ (.annotated base as) base.unadorned, Options.effective, refine_filter,
    NativeType.annotations]
  exact Option.bind_congr fun target _ => by cases target <;> rfl

/-- The provisional data type of a type that is no plain float is the one that it has. -/
theorem toOption_mapSimpleWith_of_unadorned (ht : t.unadorned = t) (hfloat : ¬ c.IsPlainFloat t) :
    (c.mapSimpleWith ofEnum t).toOption = c.refined? ofEnum t [] := by
  rw [mapSimpleWith_of_unadorned ht, refined?, start?]
  cases hs : c.options.substitute? t with
  | some d => rfl
  | none =>
    cases t with
    | primitive p =>
      have hplain : c.mapPlainWith ofEnum (.primitive p) = .ok (standardType c.options p) := by
        rw [mapPlainWith, mapPrimitive, hs, Option.getD_none]
      rw [hplain]
      cases p with
      | float => exact absurd ⟨rfl, hs⟩ hfloat
      | _ => rfl
    | _ => rfl

end Simple

/-- **A simple type** that is no plain float is its unadorned type, refined by the effective
annotations. -/
theorem toOption_mapSimple (h : c.options.SubstitutesUnadorned) (hfloat : ¬ c.IsPlainFloat t) :
    (c.mapSimple t).toOption = c.refined? c.mapEnum t.unadorned (c.options.effective t) := by
  cases t with
  | annotated base as => exact toOption_mapSimpleWith_annotated h base as
  | _ => exact toOption_mapSimpleWith_of_unadorned rfl hfloat

/-- **A plain float** is a double without annotations, and a number of some precision with
annotations that are ignored. -/
theorem mapSimple_of_isPlainFloat (h : c.options.SubstitutesUnadorned)
    (hskip : ∀ a ∈ as, c.options.skips a = true) (hfloat : c.IsPlainFloat t) :
    c.mapSimple (.annotated t as) = .ok (.float none) ∧ c.mapSimple t = .ok .double := by
  obtain ⟨rfl, hs⟩ := hfloat
  constructor
  · rw [← toOption_eq_some_iff, toOption_mapSimple h (not_isPlainFloat_annotated _ as),
      Options.effective_annotated_of_skipped hskip, NativeType.unadorned, refined?, start?]
    simp only [NativeType.unadorned, hs]
    rfl
  · rw [mapSimple, mapSimpleWith_of_unadorned rfl, hs]
    simp only [mapPlainWith, mapPrimitive, hs]
    rfl

/-! ### Types of fields -/

section Member

variable {ofKey : NativeType → Except ConvertError DataType}

/-- A simple type has one data type, be it that of a field or not. -/
theorem mapMemberWith_of_isSimple (hsimple : c.registry.isSimple t = true) :
    c.mapMemberWith ofKey t = c.mapSimple t := by
  cases hs : c.options.substitute? t with
  | some d =>
    rw [mapSimple]
    unfold mapMemberWith mapSimpleWith
    rw [hs]
  | none =>
    cases t with
    | primitive p =>
      rw [mapMemberWith, hs, mapSimple, mapSimpleWith_of_unadorned rfl, hs]
      rfl
    | annotated base as =>
      rw [mapMemberWith_annotated hs, if_pos (show c.registry.isSimple base = true from hsimple)]
    | ref name | forward name =>
      obtain ⟨e, he⟩ := Option.isSome_iff_exists.mp hsimple
      obtain ⟨_, hname, hget⟩ :=
        Registry.referenced?_eq_some_iff.mp (Registry.enumeration?_eq_some_iff.mp he)
      cases hname
      rw [mapMemberWith_reference rfl hs, mapReference, Registry.resolve_eq_ok_iff.mpr hget,
        mapSimple, mapSimpleWith_of_unadorned rfl, hs]
      simp only [mapPlainWith, hs, he]
      rfl
    | _ => cases hsimple

/-- **A type that is not simple** is mapped as its unadorned type, unless some annotation is
effective. -/
theorem toOption_mapMemberWith_of_isSimple_eq_false (h : c.options.SubstitutesUnadorned) :
    ∀ {t : NativeType}, c.registry.isSimple t = false →
      (c.mapMemberWith ofKey t).toOption =
        if c.options.effective t = [] then (c.mapMemberWith ofKey t.unadorned).toOption else none
  | .annotated base as, hsimple => by
    have hbase : c.registry.isSimple base = false := hsimple
    rw [mapMemberWith_annotated (h.substitute?_annotated base as), hbase,
      if_neg Bool.false_ne_true]
    by_cases hskip : as.all c.options.skips = true
    · rw [if_pos hskip, Options.effective_annotated_of_skipped (List.all_eq_true.mp hskip)]
      exact toOption_mapMemberWith_of_isSimple_eq_false h (t := base) hbase
    · have heffective : c.options.effective (.annotated base as) ≠ [] := by
        rw [Options.effective_annotated]
        simpa using fun _ => hskip
      rw [if_neg hskip, if_neg heffective]
      rfl
  | .primitive _, _ | .ref _, _ | .forward _, _ | .literal _, _ | .list _, _ | .union _, _
  | .custom _ _, _ => (if_pos rfl).symm

/-- Annotations that are ignored change the data type of a field for plain floats only. -/
theorem toOption_mapMemberWith_annotated (h : c.options.SubstitutesUnadorned)
    (hskip : ∀ a ∈ as, c.options.skips a = true) (hfloat : ¬ c.IsPlainFloat t) :
    (c.mapMemberWith ofKey (.annotated t as)).toOption = (c.mapMemberWith ofKey t).toOption := by
  cases hsimple : c.registry.isSimple t with
  | true =>
    rw [mapMemberWith_of_isSimple hsimple,
      mapMemberWith_of_isSimple (t := .annotated t as) hsimple, toOption_mapSimple h hfloat,
      toOption_mapSimple h (not_isPlainFloat_annotated t as),
      Options.effective_annotated_of_skipped hskip]
    rfl
  | false =>
    rw [mapMemberWith_annotated (h.substitute?_annotated t as), hsimple,
      if_neg Bool.false_ne_true, if_pos (List.all_eq_true.mpr hskip)]

end Member

/-- **Annotations flatten**: annotated types of one unadorned type whose effective annotations are
the same, in order, are mapped alike, however the annotations are nested. -/
theorem toOption_annotated_of_effective_eq (h : c.options.SubstitutesUnadorned)
    {base base' : NativeType} {as' : List Annotation} (hbase : base.unadorned = base'.unadorned)
    (heffective : c.options.effective (.annotated base as) =
      c.options.effective (.annotated base' as')) :
    (c.mapMember (.annotated base as)).toOption = (c.mapMember (.annotated base' as')).toOption ∧
      (c.mapSimple (.annotated base as)).toOption =
        (c.mapSimple (.annotated base' as')).toOption := by
  have hsimple : (c.mapSimple (.annotated base as)).toOption =
      (c.mapSimple (.annotated base' as')).toOption := by
    rw [toOption_mapSimple h (not_isPlainFloat_annotated base as),
      toOption_mapSimple h (not_isPlainFloat_annotated base' as'), heffective, NativeType.unadorned,
      NativeType.unadorned, hbase]
  refine ⟨?_, hsimple⟩
  have hkind : c.registry.isSimple base' = c.registry.isSimple base := by
    rw [← Registry.isSimple_unadorned, ← hbase, Registry.isSimple_unadorned]
  rw [mapMember, mapMember, mapMemberAlong_eq, mapMemberAlong_eq]
  cases hs : c.registry.isSimple base with
  | true =>
    rw [mapMemberWith_of_isSimple (t := .annotated base as) hs,
      mapMemberWith_of_isSimple (t := .annotated base' as') (hkind.trans hs)]
    exact hsimple
  | false =>
    rw [toOption_mapMemberWith_of_isSimple_eq_false h (t := .annotated base as) hs,
      toOption_mapMemberWith_of_isSimple_eq_false h (t := .annotated base' as') (hkind.trans hs),
      heffective, NativeType.unadorned, NativeType.unadorned, hbase]

/-! ### Members of unions -/

section Union

variable {members members' : List NativeType}

/-- Annotations do not show where members of a union are looked for that are no strings, if the
annotated type is no enumeration. -/
theorem soleEnumeration?_annotated {r : Registry} (ht : r.enumeration? t = none) :
    ∀ {found : Option Enumeration} {members : List NativeType},
      r.soleEnumeration? found (members ++ .annotated t as :: members') =
        r.soleEnumeration? found (members ++ t :: members')
  | found, [] => by
    have hannotated : r.enumeration? (.annotated t as) = none := rfl
    simp only [List.nil_append, Registry.soleEnumeration?, NativeType.unadorned, ht, hannotated]
  | found, m :: members => by
    simp only [List.cons_append, Registry.soleEnumeration?]
    split
    · exact soleEnumeration?_annotated ht
    · split
      · exact soleEnumeration?_annotated ht
      · rfl

/-- An annotated enumeration is no enumeration of a union. -/
theorem soleEnumeration?_annotated_eq_none {r : Registry} {e : Enumeration}
    (ht : r.enumeration? t = some e) :
    ∀ {found : Option Enumeration} {members : List NativeType},
      r.soleEnumeration? found (members ++ .annotated t as :: members') = none
  | found, [] => by
    have hannotated : r.enumeration? (.annotated t as) = none := rfl
    have hstring : t.unadorned ≠ .primitive .string := by
      rw [Registry.unadorned_of_referenced? (Registry.enumeration?_eq_some_iff.mp ht)]
      rintro rfl
      cases ht
    simp only [List.nil_append, Registry.soleEnumeration?, NativeType.unadorned, if_neg hstring,
      hannotated]
  | found, m :: members => by
    simp only [List.cons_append, Registry.soleEnumeration?]
    split
    · exact soleEnumeration?_annotated_eq_none ht
    · split
      · exact soleEnumeration?_annotated_eq_none ht
      · rfl

/-- The common type of the data types of some members. -/
def merged? (c : Converter) (members : List NativeType) : Option DataType :=
  (members.mapM fun m => (c.mapMember m).toOption).bind fun types =>
    (DataType.common? types).toOption

/-- A union that is neither an extensible enumeration nor one of entities has the common type of
its members. -/
theorem toOption_mapMember_union (hs : c.options.substitute? (.union members) = none)
    (hnone : c.registry.extensible? (.union members) = none)
    (hentities : ¬ ∀ m ∈ members, (c.registry.entity? m).isSome = true) :
    (c.mapMember (.union members)).toOption = c.merged? members := by
  have hall : ¬ (!members.isEmpty && members.all fun m => (c.registry.entity? m).isSome) = true :=
    fun h => hentities (List.all_eq_true.mp (Bool.and_eq_true_iff.mp h).2)
  rw [mapMember, mapMemberAlong_eq, mapMemberWith_union hs, hnone, if_neg (by simp), if_neg hall,
    toOption_bind, mapMembersWith_eq_mapM, toOption_mapM, merged?]
  simp only [mapMember, mapMemberAlong_eq]
  exact Option.bind_congr fun types _ => toOption_mapError

/-- An annotation that is skipped makes no difference to the common type of the members of a union.
-/
theorem merged?_annotated (h : c.options.SubstitutesUnadorned)
    (hskip : ∀ a ∈ as, c.options.skips a = true) (hfloat : ¬ c.IsPlainFloat t) :
    c.merged? (members ++ .annotated t as :: members') = c.merged? (members ++ t :: members') := by
  have hmember : (c.mapMember (.annotated t as)).toOption = (c.mapMember t).toOption := by
    rw [mapMember, mapMember, mapMemberAlong_eq, mapMemberAlong_eq]
    exact toOption_mapMemberWith_annotated h hskip hfloat
  rw [merged?, merged?, List.mapM_append, List.mapM_append, List.mapM_cons, List.mapM_cons,
    hmember]

/-- A member **decides** how a union is understood when it refers to the enumeration that the union
extends, or when all members refer to entities. -/
def Decides (c : Converter) (members : List NativeType) (t : NativeType) : Prop :=
  (c.registry.extensible? (.union members)).isSome = true ∧
      (c.registry.enumeration? t).isSome = true ∨
    ∀ m ∈ members, (c.registry.entity? m).isSome = true

/-- With annotations, a reference to an enumeration or to an entity is one member among others. -/
theorem toOption_mapMember_union_annotated_of_isSome (h : c.options.SubstitutesUnadorned)
    (hskip : ∀ a ∈ as, c.options.skips a = true) (hfloat : ¬ c.IsPlainFloat t)
    (hs : c.options.substitute? (.union (members ++ .annotated t as :: members')) = none)
    (ht : (c.registry.enumeration? t).isSome = true ∨ (c.registry.entity? t).isSome = true) :
    (c.mapMember (.union (members ++ .annotated t as :: members'))).toOption =
      c.merged? (members ++ t :: members') := by
  have hmem : .annotated t as ∈ members ++ .annotated t as :: members' := by simp
  rw [← merged?_annotated h hskip hfloat]
  refine toOption_mapMember_union hs ?_ fun hall => Bool.false_ne_true (hall _ hmem)
  rcases ht with ht | ht
  · obtain ⟨e, he⟩ := Option.isSome_iff_exists.mp ht
    exact soleEnumeration?_annotated_eq_none he
  · obtain ⟨e, he⟩ := Option.isSome_iff_exists.mp ht
    have hsimple : c.registry.isSimple t = false :=
      Registry.isSimple_of_referenced? (Registry.entity?_eq_some_iff.mp he) rfl
    exact Registry.extensible?_eq_none hmem hsimple

/-- Annotations of what is no reference to an enumeration or to an entity do not show. -/
theorem toOption_mapMember_union_annotated (h : c.options.SubstitutesUnadorned)
    (hskip : ∀ a ∈ as, c.options.skips a = true) (hfloat : ¬ c.IsPlainFloat t)
    (hs : c.options.substitute? (.union (members ++ t :: members')) = none)
    (hs' : c.options.substitute? (.union (members ++ .annotated t as :: members')) = none)
    (henum : c.registry.enumeration? t = none) (hentity : c.registry.entity? t = none) :
    (c.mapMember (.union (members ++ .annotated t as :: members'))).toOption =
      (c.mapMember (.union (members ++ t :: members'))).toOption := by
  have hextensible : c.registry.extensible? (.union (members ++ .annotated t as :: members')) =
      c.registry.extensible? (.union (members ++ t :: members')) :=
    soleEnumeration?_annotated henum
  cases he : c.registry.extensible? (.union (members ++ t :: members')) with
  | some e =>
    rw [mapMember, mapMember, mapMemberAlong_eq, mapMemberAlong_eq, mapMemberWith_union hs',
      mapMemberWith_union hs, hextensible, he]
    rfl
  | none =>
    have hmember : ∀ {m}, m ∈ members ++ m :: members' := by simp
    rw [toOption_mapMember_union hs' (hextensible.trans he)
        fun hall => Bool.false_ne_true (hall _ hmember),
      toOption_mapMember_union hs he fun hall => by simpa [hentity] using hall t hmember,
      merged?_annotated h hskip hfloat]

end Union

/-- **Annotations that are ignored** change nothing but two things. A plain float becomes a number
of some precision, and a union is no longer understood by a member that decides how, so that its
members have to have a common type. -/
theorem toOption_annotated_of_skipped (h : c.options.SubstitutesUnadorned)
    (hskip : ∀ a ∈ as, c.options.skips a = true) :
    (c.IsPlainFloat t →
      c.mapSimple (.annotated t as) = .ok (.float none) ∧ c.mapSimple t = .ok .double) ∧
    (¬ c.IsPlainFloat t → (c.mapSimple (.annotated t as)).toOption = (c.mapSimple t).toOption ∧
      ∀ members members',
        c.options.substitute? (.union (members ++ t :: members')) = none →
        c.options.substitute? (.union (members ++ .annotated t as :: members')) = none →
        (¬ c.Decides (members ++ t :: members') t →
          (c.mapMember (.union (members ++ .annotated t as :: members'))).toOption =
            (c.mapMember (.union (members ++ t :: members'))).toOption) ∧
        (c.Decides (members ++ t :: members') t →
          (c.mapMember (.union (members ++ .annotated t as :: members'))).toOption =
            c.merged? (members ++ t :: members'))) := by
  refine ⟨mapSimple_of_isPlainFloat h hskip, fun hfloat => ⟨?_, fun members members' hs hs' => ?_⟩⟩
  · rw [toOption_mapSimple h hfloat, toOption_mapSimple h (not_isPlainFloat_annotated t as),
      Options.effective_annotated_of_skipped hskip, NativeType.unadorned]
  have hmem : t ∈ members ++ t :: members' := by simp
  constructor
  · intro hdecides
    obtain ⟨hextensible, hentities⟩ := not_or.mp hdecides
    by_cases href : (c.registry.enumeration? t).isSome = true ∨ (c.registry.entity? t).isSome = true
    · have hnone : c.registry.extensible? (.union (members ++ t :: members')) = none := by
        rcases href with henum | hentity
        · exact Option.not_isSome_iff_eq_none.mp fun he => hextensible ⟨he, henum⟩
        · obtain ⟨e, he⟩ := Option.isSome_iff_exists.mp hentity
          exact Registry.extensible?_eq_none hmem
            (Registry.isSimple_of_referenced? (Registry.entity?_eq_some_iff.mp he) rfl)
      rw [toOption_mapMember_union_annotated_of_isSome h hskip hfloat hs' href,
        toOption_mapMember_union hs hnone hentities]
    · obtain ⟨henum, hentity⟩ := not_or.mp href
      exact toOption_mapMember_union_annotated h hskip hfloat hs hs'
        (Option.not_isSome_iff_eq_none.mp henum) (Option.not_isSome_iff_eq_none.mp hentity)
  · intro hdecides
    refine toOption_mapMember_union_annotated_of_isSome h hskip hfloat hs' ?_
    exact hdecides.imp And.right fun hall => hall t hmem

namespace Logbook

/-- The weather at sea. -/
def weather : Enumeration where
  name := "Weather"
  moduleName := "ship"
  members := [("fair", .str "f"), ("foul", .str "s")]

/-- A unit of measurement. -/
def unit : Annotation := .other "unit" "knots"

/-- A speed of no stated precision, and one with its unit. -/
def speeds : NativeType × NativeType :=
  (.primitive .float, .annotated (.primitive .float) [unit])

/-- The weather by its name or in other words, and the same with a unit. -/
def reports : NativeType × NativeType :=
  (.union [.ref "Weather", .primitive .string],
    .union [.annotated (.ref "Weather") [unit], .primitive .string])

/-- A remark of a limited length, with further annotations. -/
def remark : NativeType :=
  .annotated (.annotated (.primitive .string) [.maxLength 20]) [unit, .maxLength 10]

/-- A remark with the annotations that take effect, in one layer. -/
def shortRemark : NativeType :=
  .annotated (.primitive .string) [.maxLength 20, .maxLength 10]

end Logbook

/-- The log of a ship, in which units are ignored. -/
def logbook : Converter where
  registry := { types := [.enumeration Logbook.weather], nodup_names := by decide }
  options := { skipAnnotations := [.other "unit"] }

/-- The limits of a remark take effect in order, whatever the layer of an annotation. -/
theorem toOption_annotated_of_effective_eq_logbook :
    (logbook.mapMember Logbook.remark).toOption = some (.varchar 10) ∧
      (logbook.mapSimple Logbook.remark).toOption = some (.varchar 10) := by
  have h : logbook.options.SubstitutesUnadorned := nofun
  have hflat : logbook.mapMember Logbook.shortRemark = .ok (.varchar 10) :=
    mapMember_eq_ok_iff.mpr ⟨1, by decide⟩
  have heffective : logbook.options.effective Logbook.remark =
      logbook.options.effective Logbook.shortRemark := by decide
  have halike : (logbook.mapMember Logbook.remark).toOption =
        (logbook.mapMember Logbook.shortRemark).toOption ∧
      (logbook.mapSimple Logbook.remark).toOption =
        (logbook.mapSimple Logbook.shortRemark).toOption :=
    toOption_annotated_of_effective_eq h rfl heffective
  exact ⟨halike.1.trans (congrArg Except.toOption hflat), halike.2.trans rfl⟩

/-- With its unit, a speed is a number of some precision, a depth is what it was among others, and
the weather has to have a common type with other words. -/
theorem toOption_annotated_of_skipped_logbook :
    (logbook.mapSimple Logbook.speeds.2 = .ok (.float none) ∧
        logbook.mapSimple Logbook.speeds.1 = .ok .double) ∧
      (logbook.mapMember (.union [.annotated (.primitive .int32) [Logbook.unit],
          .primitive .int64])).toOption = some (.integer 8) ∧
      (logbook.mapMember Logbook.reports.2).toOption =
        logbook.merged? [.ref "Weather", .primitive .string] := by
  have h : logbook.options.SubstitutesUnadorned := nofun
  have hskip : ∀ a ∈ [Logbook.unit], logbook.options.skips a = true := by decide
  have hdepth : logbook.mapMember (.union [.primitive .int32, .primitive .int64]) =
      .ok (.integer 8) := mapMember_eq_ok_iff.mpr ⟨1, by decide⟩
  have hplain : ¬ logbook.Decides [.primitive .int32, .primitive .int64] (.primitive .int32) := by
    rintro (⟨-, henum⟩ | hentities)
    · cases henum
    · cases hentities _ (.head _)
  have hdecides : logbook.Decides [.ref "Weather", .primitive .string] (.ref "Weather") :=
    Or.inl ⟨by decide, by decide⟩
  refine ⟨(toOption_annotated_of_skipped h hskip).1 ⟨rfl, rfl⟩, ?_, ?_⟩
  · have hsame := (((toOption_annotated_of_skipped (t := .primitive .int32) h hskip).2
      nofun).2 [] [.primitive .int64] rfl rfl).1 hplain
    exact hsame.trans (congrArg Except.toOption hdepth)
  · exact (((toOption_annotated_of_skipped (t := .ref "Weather") h hskip).2
      nofun).2 [] [.primitive .string] rfl rfl).2 hdecides

/-- A unit that is ignored changes the type of a speed, keeps it from having a common type with
another one, and keeps the weather from being told in other words. -/
theorem not_skipped_logbook :
    logbook.options.skips Logbook.unit = true ∧
      (logbook.mapSimple Logbook.speeds.1).toOption = some .double ∧
      (logbook.mapSimple Logbook.speeds.2).toOption = some (.float none) ∧
      (logbook.mapMember (.union [Logbook.speeds.1, .primitive .float64])).toOption =
        some .double ∧
      (logbook.mapMember (.union [Logbook.speeds.2, .primitive .float64])).toOption = none ∧
      (logbook.mapMember Logbook.reports.1).toOption = some (.integer 4) ∧
      (logbook.mapMember Logbook.reports.2).toOption = none := by
  simp only [mapMember, mapMemberAlong_eq]
  exact ⟨by decide, rfl, rfl, rfl, rfl, rfl, rfl⟩

end Converter

end SchemaCatalog
