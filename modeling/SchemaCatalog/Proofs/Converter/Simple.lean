import SchemaCatalog.Converter.Simple
import SchemaCatalog.Proofs.DataType
import SchemaCatalog.Proofs.Registry.Lookup
import SchemaCatalog.Proofs.Result

/-!
# Data types of simple types

A simple type is mapped as it is without annotations, or its annotations refine the data type that
they start from (`mapSimpleWith_eq_ok`); what a single annotation keeps of a data type, all of them
keep (`exists_eq_of_refine`). A refined data type is plain, so that one that is not comes from the
settings or from an enumeration (`mapSimpleWith_cases`). The values of an enumeration have the type
of labels or of one of them (`enumValueType_eq_ok`).
-/

namespace SchemaCatalog.Converter

variable {c : Converter} {t : NativeType} {d : DataType}

/-- The data type of a simple type without annotations. -/
def mapPlainWith (c : Converter) (ofEnum : Enumeration → Except ConvertError DataType) :
    NativeType → Except ConvertError DataType
  | .primitive p => .ok (c.mapPrimitive p)
  | u =>
    match c.options.substitute? u with
    | some d => .ok d
    | none =>
      match c.registry.enumeration? u with
      | some e => ofEnum e
      | none => .error (.unsupported u.display .notSimple)

/-- The data type that the annotations of an unadorned type start from. -/
def start? (c : Converter) (u : NativeType) : Option DataType :=
  c.options.substitute? u <|> provisionalType? u

/-- Annotations of strings start from the data type of strings. -/
theorem start?_string : c.start? (.primitive .string) = some (c.mapPrimitive .string) := by
  unfold start? mapPrimitive
  cases c.options.substitute? (.primitive .string) <;> rfl

section Kinds

variable {ofEnum : Enumeration → Except ConvertError DataType}

theorem mapSimpleWith_annotated {base : NativeType} {as : List Annotation}
    (h : c.options.substitute? (.annotated base as) = none) :
    c.mapSimpleWith ofEnum (.annotated base as) =
      refine c.options (.annotated base as) (c.start? base.unadorned) (base.annotations ++ as) >>=
        fun target =>
          match target with
          | some d => .ok d
          | none => c.mapPlainWith ofEnum base.unadorned := by
  unfold mapSimpleWith
  rw [h]
  rfl

theorem mapSimpleWith_of_unadorned {t : NativeType} (ht : t.unadorned = t) :
    c.mapSimpleWith ofEnum t =
      match c.options.substitute? t with
      | some d => .ok d
      | none => c.mapPlainWith ofEnum t := by
  unfold mapSimpleWith
  cases t with
  | annotated base as => exact absurd ht (NativeType.unadorned_ne_annotated base as)
  | _ => rfl

end Kinds

/-- A simple type is mapped as it is without annotations, or they refine the data type that they
start from. -/
theorem mapSimpleWith_eq_ok {ofEnum : Enumeration → Except ConvertError DataType}
    (h : c.mapSimpleWith ofEnum t = .ok d) :
    c.options.substitute? t = some d ∨ c.mapPlainWith ofEnum t.unadorned = .ok d ∨
      refine c.options t (c.start? t.unadorned) t.annotations = .ok (some d) := by
  unfold mapSimpleWith at h
  split at h
  · cases h
    exact Or.inl ‹_›
  · split at h
    · obtain ⟨target, htarget, h⟩ := bind_eq_ok_iff.mp h
      cases target with
      | some d' =>
        cases pure_eq_ok_iff.mp h
        exact Or.inr (Or.inr htarget)
      | none => exact Or.inr (Or.inl h)
    · rename_i hplain
      have hu : t.unadorned = t := by
        cases t with
        | annotated base as => exact absurd rfl (hplain base as)
        | _ => rfl
      rw [hu]
      exact Or.inr (Or.inl h)

/-- Refining depends on the settings by the annotations that they skip only. -/
theorem refine_congr {o o' : Options} (h : o'.skips = o.skips) : refine o' = refine o := by
  funext subject target as
  induction as generalizing target with
  | nil => rfl
  | cons a as ih => simp only [refine, ih, h]

/-- The type that annotations refine shows in errors only. -/
theorem toOption_refine (o : Options) (subject subject' : NativeType) :
    ∀ (target : Option DataType) (as : List Annotation),
      (refine o subject target as).toOption = (refine o subject' target as).toOption
  | _, [] => rfl
  | target, a :: as => by
    unfold refine
    split
    · exact toOption_refine o subject subject' target as
    · split
      · rfl
      · split
        · exact toOption_refine o subject subject' _ as
        · rfl

/-- What a single annotation keeps of a data type, all annotations keep of the one that they start
from. -/
theorem exists_eq_of_refine {β : Type*} {f : DataType → β}
    (hf : ∀ {d a d'}, applyAnnotation? d a = some d' → f d' = f d) {o : Options}
    {subject : NativeType} : ∀ {as : List Annotation} {target : Option DataType} {d : DataType},
      refine o subject target as = .ok (some d) → ∃ start, target = some start ∧ f d = f start
  | [], _, d, h => by
    cases h
    exact ⟨d, rfl, rfl⟩
  | a :: as, target, d, h => by
    unfold refine at h
    split at h
    · exact exists_eq_of_refine hf h
    · split at h
      · cases h
      · split at h
        · rename_i start _ next hnext
          obtain ⟨_, hrefined, hd⟩ := exists_eq_of_refine hf h
          cases hrefined
          exact ⟨start, rfl, hd.trans (hf hnext)⟩
        · cases h

/-! ### Plain data types -/

theorem isPlain_provisionalType? (h : provisionalType? t = some d) : d.isPlain = true := by
  unfold provisionalType? at h
  split at h <;> cases h <;> rfl

/-- Annotations make plain data types. -/
theorem isPlain_of_applyAnnotation? {a : Annotation} {d' : DataType}
    (h : applyAnnotation? d a = some d') : d'.isPlain = true := by
  unfold applyAnnotation? at h
  split at h <;> cases h <;> rfl

theorem eq_or_isPlain_of_refine {o : Options} {subject : NativeType} :
    ∀ {as : List Annotation} {target : Option DataType} {d : DataType},
      refine o subject target as = .ok (some d) → target = some d ∨ d.isPlain = true
  | [], _, d, h => by
    cases h
    exact Or.inl rfl
  | a :: as, target, d, h => by
    unfold refine at h
    split at h
    · exact eq_or_isPlain_of_refine h
    · split at h
      · cases h
      · split at h
        · rename_i next hnext
          rcases eq_or_isPlain_of_refine h with hd | hplain
          · cases hd
            exact Or.inr (isPlain_of_applyAnnotation? hnext)
          · exact Or.inr hplain
        · cases h

/-- **Where the data type of a simple type comes from**: it is that of a substitute, of a built-in
type or of an enumeration, or plain. -/
theorem mapSimpleWith_cases {ofEnum : Enumeration → Except ConvertError DataType}
    (h : c.mapSimpleWith ofEnum t = .ok d) :
    (∃ u, c.options.substitute? u = some d) ∨ (∃ p, d = c.mapPrimitive p) ∨
      (∃ e, c.registry.enumeration? t.unadorned = some e ∧ ofEnum e = .ok d) ∨
        d.isPlain = true := by
  rcases mapSimpleWith_eq_ok h with h | h | h
  · exact Or.inl ⟨t, h⟩
  · unfold mapPlainWith at h
    split at h
    · cases h
      exact Or.inr (Or.inl ⟨_, rfl⟩)
    · split at h
      · cases h
        exact Or.inl ⟨_, ‹_›⟩
      · split at h
        · exact Or.inr (Or.inr (Or.inl ⟨_, ‹_›, h⟩))
        · cases h
  · rcases eq_or_isPlain_of_refine h with hstart | hplain
    · rw [start?, Option.orElse_eq_orElse, Option.orElse_eq_or] at hstart
      rcases Option.or_eq_some_iff.mp hstart with hsub | ⟨-, hprovisional⟩
      · exact Or.inl ⟨_, hsub⟩
      · exact Or.inr (Or.inr (Or.inr (isPlain_provisionalType? hprovisional)))
    · exact Or.inr (Or.inr (Or.inr hplain))

/-! ### Values of enumerations -/

theorem exists_of_commonValueType {name : String} :
    ∀ {vs : List Literal} {found : Option NativeType} {t : NativeType},
      commonValueType name found vs = .ok (some t) → found = some t ∨ ∃ v ∈ vs, t = v.nativeType
  | [], _, _, h => by
    cases h
    exact Or.inl rfl
  | v :: vs, found, t, h => by
    have later : ∀ {found}, commonValueType name found vs = .ok (some t) →
        found = some t ∨ ∃ v' ∈ v :: vs, t = v'.nativeType := fun h =>
      (exists_of_commonValueType h).imp_right fun ⟨v', hv', ht⟩ =>
        ⟨v', List.mem_cons_of_mem _ hv', ht⟩
    unfold commonValueType at h
    split at h
    · split at h
      · exact later h
      · cases h
    · rcases later h with hv | hlater
      · cases hv
        exact Or.inr ⟨v, List.mem_cons_self, rfl⟩
      · exact Or.inr hlater

/-- **The type of the values of an enumeration** is that of labels, or that of one of the values,
which is no string then. -/
theorem enumValueType_eq_ok {e : Enumeration} (h : enumValueType e = .ok t) :
    t = labelType ∨ t ≠ .primitive .string ∧ ∃ v ∈ e.values, t = v.nativeType := by
  obtain ⟨found, hfound, h⟩ := bind_eq_ok_iff.mp h
  split at h
  · exact Or.inl (pure_eq_ok_iff.mp h).symm
  · exact Or.inl (pure_eq_ok_iff.mp h).symm
  · rename_i hstring
    cases pure_eq_ok_iff.mp h
    rcases exists_of_commonValueType hfound with hnone | hv
    · cases hnone
    · exact Or.inr ⟨hstring, hv⟩

end SchemaCatalog.Converter
