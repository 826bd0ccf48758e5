import SchemaCatalog.Proofs.Converter.KeyType
import SchemaCatalog.Proofs.Dialect.Kind
import SchemaCatalog.Proofs.Sample.Outcome

/-!
# Kinds of drawn values

Drawing a value of a type and mapping the type to a data type are two recursions over types, which
follow keys from entity to entity. They meet in the kinds of values: a value that can be drawn for
a type has one of the kinds that the dialect lists for the data type of the type
(`kind_mem_kinds_of_value`). One step says this of a type if it holds of the types of keys
(`takesDrawn_with`); the rest is an induction on how deep keys are followed
(`forall_canDraw_along`).
-/

namespace SchemaCatalog

open Sampler

/-- Whether a value is a document or a list. -/
def Value.isDocument : Value → Bool
  | json _ | list _ => true
  | _ => false

theorem Value.isDocument_iff {v : Value} :
    v.isDocument = true ↔ v.kind = "json" ∨ v.kind = "list" := by
  cases v <;> simp [isDocument, kind]

namespace NativeType

/-- Whether a type is a forward reference or a union, whose values are not stored as text in a
column of characters. -/
def isForwardOrUnion : NativeType → Bool
  | forward _ | union _ => true
  | _ => false

theorem isDocument_of_isForwardOrUnion {t : NativeType} (h : t.isForwardOrUnion = true) :
    ValueEncoding.isDocument t = false := by
  cases t with
  | forward _ | union _ => rfl
  | _ => cases h

end NativeType

theorem Primitive.isDocument_of_valueKind {p : Primitive}
    (h : p.valueKind = "json" ∨ p.valueKind = "list") :
    ValueEncoding.isDocument (.primitive p) = true := by
  cases p <;> first | rfl | (exfalso; revert h; decide)

namespace Sample

variable {s : Sample} {ofType : NativeType → Sampler Value} {t : NativeType} {v : Value}

/-! ### What can be drawn for a type -/

section Types

theorem kind_of_canDraw_primitive {p : Primitive}
    (h : (s.valueWith ofType (.primitive p)).CanDraw v) : v.kind = p.valueKind := by
  rw [valueWith] at h
  obtain ⟨d, rfl⟩ := canDraw_lift_iff.mp h
  cases p <;> rfl

/-- Annotations only limit the length of strings. -/
theorem canDraw_annotated {base : NativeType} {as : List Annotation}
    (h : (s.valueWith ofType (.annotated base as)).CanDraw v) :
    base.unadorned = .primitive .string ∧ v.kind = "string" ∨
      (s.valueWith ofType base).CanDraw v := by
  rw [valueWith] at h
  split at h
  · split at h
    · obtain ⟨d, rfl⟩ := canDraw_lift_iff.mp h
      exact Or.inl ⟨‹_›, rfl⟩
    · exact Or.inr h
  · exact Or.inr h

/-- Without its annotations a type draws the same values, strings aside. -/
theorem canDraw_unadorned : ∀ {t : NativeType}, (s.valueWith ofType t).CanDraw v →
    t.unadorned = .primitive .string ∧ v.kind = "string" ∨
      (s.valueWith ofType t.unadorned).CanDraw v
  | .annotated base _, h => (canDraw_annotated h).elim Or.inl (canDraw_unadorned (t := base))
  | .primitive _, h | .ref _, h | .forward _, h | .literal _, h | .list _, h | .union _, h
  | .custom _ _, h => Or.inr h

/-- A value of a built-in type has its kind, whatever annotations the type has. -/
theorem kind_of_canDraw {p : Primitive} (hp : t.unadorned = .primitive p)
    (h : (s.valueWith ofType t).CanDraw v) : v.kind = p.valueKind := by
  rcases canDraw_unadorned h with ⟨hstring, hv⟩ | h
  · rw [hp] at hstring
    cases hstring
    exact hv
  · rw [hp] at h
    exact kind_of_canDraw_primitive h

/-- Annotations change nothing but what is drawn for strings. -/
theorem valueWith_unadorned :
    ∀ {t : NativeType}, t.unadorned ≠ .primitive .string →
      s.valueWith ofType t = s.valueWith ofType t.unadorned
  | .annotated base as, h => by
    have hbase : base.unadorned ≠ .primitive .string := h
    have hstep : s.valueWith ofType (.annotated base as) = s.valueWith ofType base := by
      rw [valueWith]
      split
      · rw [if_neg hbase]
      · rfl
    exact hstep.trans (valueWith_unadorned hbase)
  | .primitive _, _ | .ref _, _ | .forward _, _ | .literal _, _ | .list _, _ | .union _, _
  | .custom _ _, _ => rfl

theorem canDraw_unadorned_of_ne (ht : t.unadorned ≠ .primitive .string)
    (h : (s.valueWith ofType t).CanDraw v) : (s.valueWith ofType t.unadorned).CanDraw v :=
  valueWith_unadorned ht ▸ h

theorem valueWith_reference {name : String} (hname : t.referencedName? = some name) :
    s.valueWith ofType t = s.referenceWith ofType t name := by
  cases t with
  | ref _ | forward _ =>
    cases hname
    rw [valueWith]
  | _ => cases hname

/-- What is drawn for an enumeration is a value of one of its members. -/
theorem exists_value_of_canDraw_enumMember {e : Enumeration} (h : (enumMember t e).CanDraw v) :
    ∃ l ∈ e.values, v = .member l := by
  obtain ⟨l?, hl, h⟩ := h.exists_of_bind
  cases l? with
  | some l =>
    obtain ⟨d, hl⟩ := canDraw_lift_iff.mp hl
    exact ⟨l, Draw.mem_of_choose? hl, canDraw_pure_iff.mp h⟩
  | none => exact absurd h not_canDraw_fail

theorem kind_of_canDraw_enumMember {e : Enumeration} (h : (enumMember t e).CanDraw v) :
    v.kind = "enum" := by
  obtain ⟨l, -, rfl⟩ := exists_value_of_canDraw_enumMember h
  rfl

/-- A value of a reference is one of what it refers to. -/
theorem referenceWith_of_referenced? {found : Definition}
    (hfound : s.registry.referenced? t = some found) :
    s.valueWith ofType t =
      match found with
      | .enumeration e => enumMember t e
      | .entity e =>
        match Registry.keyField e with
        | .ok key => ofType key.type
        | .error err => Sampler.fail err
      | .struct d => structDocument ofType d := by
  obtain ⟨name, hname, hget⟩ := Registry.referenced?_eq_some_iff.mp hfound
  rw [valueWith_reference hname, referenceWith, hget]
  cases found <;> rfl

/-- A value of an enumeration has the kind of members, whatever annotations the type has. -/
theorem kind_of_canDraw_enumeration {e : Enumeration}
    (he : s.registry.enumeration? t.unadorned = some e) (h : (s.valueWith ofType t).CanDraw v) :
    v.kind = "enum" := by
  have hfound := Registry.enumeration?_eq_some_iff.mp he
  have hne : t.unadorned ≠ .primitive .string := by
    intro hstring
    rw [hstring] at hfound
    cases hfound
  have hu := canDraw_unadorned_of_ne hne h
  rw [referenceWith_of_referenced? hfound] at hu
  exact kind_of_canDraw_enumMember hu

/-- A value of a reference to an entity is one of its key. -/
theorem exists_key_of_canDraw {e : Entity} (he : s.registry.referenced? t = some (.entity e))
    (h : (s.valueWith ofType t).CanDraw v) :
    ∃ key, Registry.keyField e = .ok key ∧ (ofType key.type).CanDraw v := by
  rw [referenceWith_of_referenced? he] at h
  dsimp only at h
  cases hkey : Registry.keyField e with
  | ok key =>
    rw [hkey] at h
    exact ⟨key, rfl, h⟩
  | error err =>
    rw [hkey] at h
    exact absurd h not_canDraw_fail

/-- The value of a struct is a document. -/
theorem kind_of_canDraw_struct {d : Struct} (hd : s.registry.referenced? t = some (.struct d))
    (h : (s.valueWith ofType t).CanDraw v) : v.kind = "json" := by
  rw [referenceWith_of_referenced? hd] at h
  obtain ⟨members, -, rfl⟩ := CanDraw.exists_of_map h
  rfl

/-- The value of a literal is one of its values. -/
theorem exists_literal_of_canDraw {values : List Literal}
    (h : (s.valueWith ofType (.literal values)).CanDraw v) : ∃ l ∈ values, v = literalValue l := by
  rw [valueWith] at h
  obtain ⟨l?, hl, h⟩ := h.exists_of_bind
  cases l? with
  | none => exact absurd h not_canDraw_fail
  | some l =>
    refine ⟨l, ?_, canDraw_pure_iff.mp h⟩
    obtain ⟨d, hl⟩ := canDraw_lift_iff.mp hl
    exact Draw.mem_of_choose? hl

/-- The value of a list is a list, whether its items are a subset of an enumeration or not. -/
theorem kind_of_canDraw_list {item : NativeType}
    (h : (s.valueWith ofType (.list item)).CanDraw v) : v.kind = "list" := by
  rw [valueWith] at h
  split at h
  · obtain ⟨d, rfl⟩ := canDraw_lift_iff.mp h
    rfl
  · obtain ⟨n, -, h⟩ := h.exists_of_bind
    obtain ⟨vs, -, rfl⟩ := h.exists_of_map
    rfl

/-- What is drawn for the member of a union at some position is drawn for one of the members. -/
theorem exists_mem_of_canDraw_memberWith :
    ∀ {ts : List NativeType} {i : Nat}, (s.memberWith ofType i ts).CanDraw v →
      ∃ t ∈ ts, (s.valueWith ofType t).CanDraw v
  | [], _, h => by
    rw [memberWith] at h
    exact absurd h not_canDraw_fail
  | t :: ts, 0, h => by
    rw [memberWith] at h
    exact ⟨t, List.mem_cons_self, h⟩
  | t :: ts, i + 1, h => by
    rw [memberWith] at h
    obtain ⟨u, hu, h⟩ := exists_mem_of_canDraw_memberWith h
    exact ⟨u, List.mem_cons_of_mem _ hu, h⟩

/-- A value of a union is a member of the extensible enumeration that the union is, or a value of
one of the members of the union. -/
theorem canDraw_union {members : List NativeType}
    (h : (s.valueWith ofType (.union members)).CanDraw v) :
    (∃ e, s.registry.extensible? (.union members) = some e ∧ v.kind = "enum") ∨
      s.registry.extensible? (.union members) = none ∧
        ∃ i, (s.memberWith ofType i members).CanDraw v := by
  rw [valueWith] at h
  cases he : s.registry.extensible? (.union members) with
  | some e =>
    rw [he] at h
    exact Or.inl ⟨e, rfl, kind_of_canDraw_enumMember h⟩
  | none =>
    simp only [he] at h
    split at h
    · exact absurd h not_canDraw_fail
    · obtain ⟨i, -, h⟩ := h.exists_of_bind
      exact Or.inr ⟨rfl, i, h⟩

theorem not_canDraw_custom {moduleName name : String} :
    ¬ (s.valueWith ofType (.custom moduleName name)).CanDraw v := by
  rw [valueWith]
  exact not_canDraw_fail

/-- **Where documents come from**: a document or list is drawn for JSON, for a list, for a
reference, or for a union, whatever annotations the type has. -/
theorem type_of_isDocument (hv : v.isDocument = true) (h : (s.valueWith ofType t).CanDraw v) :
    ValueEncoding.isDocument t.unadorned = true ∨ t.unadorned.isForwardOrUnion = true := by
  rw [Value.isDocument_iff] at hv
  have hu : (s.valueWith ofType t.unadorned).CanDraw v := by
    refine (canDraw_unadorned h).resolve_left ?_
    rintro ⟨-, hstring⟩
    rw [hstring] at hv
    revert hv
    decide
  cases ht : t.unadorned with
  | primitive p =>
    rw [ht] at hu
    rw [kind_of_canDraw_primitive hu] at hv
    exact Or.inl (Primitive.isDocument_of_valueKind hv)
  | literal values =>
    rw [ht] at hu
    obtain ⟨l, -, rfl⟩ := exists_literal_of_canDraw hu
    exfalso
    cases l <;> revert hv <;> simp [literalValue, Value.kind]
  | list _ | ref _ => exact Or.inl rfl
  | forward _ | union _ => exact Or.inr rfl
  | custom moduleName name => exact absurd (ht ▸ hu) not_canDraw_custom
  | annotated base as => exact absurd ht (NativeType.unadorned_ne_annotated base as)

end Types

/-! ### Data types that take what is drawn -/

/-- The data types of types **take what is drawn** for the types, if all that can be drawn is of
kinds of the data type. -/
def TakesDrawn (δ : Dialect) (ofKey : NativeType → Except ConvertError DataType)
    (ofType : NativeType → Sampler Value) : Prop :=
  ∀ ⦃t : NativeType⦄ ⦃d : DataType⦄ ⦃v : Value⦄,
    ofKey t = .ok d → (ofType t).CanDraw v → v.kind ∈ δ.kinds d

section Mapped

variable {δ : Dialect} {r : DialectRequest} {c : Converter} (ho : δ.options r = .ok c.options)
  {ofKey : NativeType → Except ConvertError DataType} {d : DataType}
include ho

/-- Documents and lists are stored as JSON. -/
theorem document_mem_kinds_jsonType :
    "json" ∈ δ.kinds c.jsonType ∧ "list" ∈ δ.kinds c.jsonType := by
  rw [Converter.jsonType, Dialect.mapPrimitive_eq ho]
  cases δ <;> decide +kernel

/-- The common type of the values of a literal takes each of them. -/
theorem kind_mem_kinds_of_mapLiteral {values : List Literal} (h : c.mapLiteral t values = .ok d)
    {l : Literal} (hl : l ∈ values) : (literalValue l).kind ∈ δ.kinds d := by
  unfold Converter.mapLiteral at h
  split at h
  · cases h
  · have hcommon := DataType.eq_of_common? (f := δ.kinds) Dialect.kinds_of_joinDistinct?
      (mapError_eq_ok_iff.mp h)
    split at hcommon
    · rename_i hstrings
      have hd := hcommon.2 _ (List.mem_map_of_mem hl)
      have hl_string : l.isString = true := List.all_eq_true.mp hstrings l hl
      rw [← hd]
      cases l with
      | str s =>
        cases δ <;> exact List.mem_cons_self
      | int i | bool b => cases hl_string
    · have hd := hcommon.2 _ (List.mem_map_of_mem hl)
      rw [← hd]
      have hstored := fun p =>
        Dialect.storedKinds_subset_mapPrimitive ho p p.valueKind_mem_storedKinds
      cases l with
      | str s => exact hstored .string
      | int i => exact hstored .int
      | bool b => exact hstored .bool

/-- Lists are mapped to arrays or to JSON, both of which take lists. -/
theorem list_mem_kinds_of_mapList {item : NativeType} (h : c.mapList t item = .ok d) :
    "list" ∈ δ.kinds d := by
  have harray : ∀ element, "list" ∈ δ.kinds (.array element) := fun _ => List.mem_singleton_self _
  unfold Converter.mapList at h
  split at h
  · split at h
    · unfold Converter.mapSimpleArray at h
      split at h
      · split at h
        · cases h
        · split at h <;> obtain ⟨element, -, rfl⟩ := map_eq_ok_iff.mp h <;> exact harray element
      · obtain ⟨element, -, rfl⟩ := map_eq_ok_iff.mp h
        exact harray element
    · cases h
      exact (document_mem_kinds_jsonType ho).2
  · split at h
    · cases h
    · obtain ⟨n, -, h⟩ := bind_eq_ok_iff.mp h
      split at h <;> cases pure_eq_ok_iff.mp h
      · exact harray _
      · exact (document_mem_kinds_jsonType ho).2

/-- The column of a type that is built-in, whatever annotations it has, takes what is stored for the
built-in type. -/
theorem storedKinds_subset_of_mapMemberWith {p : Primitive} (hp : t.unadorned = .primitive p)
    (h : c.mapMemberWith ofKey t = .ok d) : p.storedKinds ⊆ δ.kinds d := by
  cases t with
  | primitive q =>
    cases hp
    rw [Converter.mapMemberWith_primitive] at h
    cases h
    exact Dialect.storedKinds_subset_mapPrimitive ho p
  | annotated base as =>
    have hsub := (Dialect.substitutesPrimitives_of_options ho).substitute?_eq_none
      (t := .annotated base as) rfl
    have hsimple : c.registry.isSimple base = true := by
      rw [← Registry.isSimple_unadorned, show base.unadorned = .primitive p from hp]
      rfl
    rw [Converter.mapMemberWith_annotated hsub, if_pos hsimple] at h
    exact Dialect.storedKinds_subset_of_mapSimpleWith ho hp h
  | _ => cases hp

variable (hs : s.registry = c.registry)
include hs

/-- A simple type takes what can be drawn for it. -/
theorem kind_mem_kinds_of_isSimple (hsimple : c.registry.isSimple t = true)
    (h : c.mapMemberWith ofKey t = .ok d) (hv : (s.valueWith ofType t).CanDraw v) :
    v.kind ∈ δ.kinds d := by
  rcases Registry.isSimple_iff.mp hsimple with ⟨p, hp⟩ | ⟨e, he⟩
  · rw [kind_of_canDraw hp hv]
    exact storedKinds_subset_of_mapMemberWith ho hp h p.valueKind_mem_storedKinds
  · have henum := Converter.mapEnum_of_mapMemberWith
      (Dialect.substitutesPrimitives_of_options ho) he h
    rw [kind_of_canDraw_enumeration (hs ▸ he) hv]
    exact Dialect.enum_mem_kinds_of_mapEnum ho henum

variable (hof : TakesDrawn δ ofKey ofType)
include hof

/-- A reference is drawn and mapped as what it refers to: the key of an entity, a member of an
enumeration or the document of a struct. -/
theorem kind_mem_kinds_of_mapReference {name : String} (hname : t.referencedName? = some name)
    (h : c.mapReference ofKey name = .ok d) (hv : (s.valueWith ofType t).CanDraw v) :
    v.kind ∈ δ.kinds d := by
  obtain ⟨found, hfound, h⟩ := bind_eq_ok_iff.mp h
  have hfound : s.registry.referenced? t = some found := by
    rw [hs]
    exact Registry.referenced?_eq_some_iff.mpr
      ⟨name, hname, Registry.resolve_eq_ok_iff.mp hfound⟩
  cases found with
  | enumeration e =>
    rw [referenceWith_of_referenced? hfound] at hv
    rw [kind_of_canDraw_enumMember hv]
    exact Dialect.enum_mem_kinds_of_mapEnum ho h
  | entity e =>
    obtain ⟨key, hkey, h⟩ := bind_eq_ok_iff.mp h
    obtain ⟨key', hkey', hv⟩ := exists_key_of_canDraw hfound hv
    rw [hkey] at hkey'
    cases hkey'
    exact hof h hv
  | struct s' =>
    rw [kind_of_canDraw_struct hfound hv]
    dsimp only at h
    split at h
    · rename_i hmode
      obtain ⟨n, -, h⟩ := bind_eq_ok_iff.mp h
      cases pure_eq_ok_iff.mp h
      rw [Dialect.eq_postgresql_of_structMode ho hmode]
      exact Dialect.mem_kinds_userDefined n (Or.inl rfl)
    · cases pure_eq_ok_iff.mp h
      exact (document_mem_kinds_jsonType ho).1

end Mapped

/-- **Data types take what is drawn for types**, if those of the types of keys do. -/
theorem takesDrawn_with {δ : Dialect} {r : DialectRequest} {c : Converter}
    (ho : δ.options r = .ok c.options) (hs : s.registry = c.registry)
    {ofKey : NativeType → Except ConvertError DataType}
    (hof : TakesDrawn δ ofKey ofType) :
    TakesDrawn δ (c.mapMemberWith ofKey) (s.valueWith ofType) := by
  intro t d v h hv
  have hprimitives := Dialect.substitutesPrimitives_of_options ho
  match t with
  | .primitive p => exact kind_mem_kinds_of_isSimple ho hs rfl h hv
  | .annotated base as =>
    by_cases hsimple : c.registry.isSimple (.annotated base as) = true
    · exact kind_mem_kinds_of_isSimple ho hs hsimple h hv
    -- annotations of other types have to be ignored, and no string is drawn for these types
    · have hbase : ¬ c.registry.isSimple base = true := hsimple
      rw [Converter.mapMemberWith_annotated (hprimitives.substitute?_eq_none rfl),
        if_neg hbase] at h
      split at h
      · refine takesDrawn_with ho hs hof h ((canDraw_annotated hv).resolve_left ?_)
        rintro ⟨hstring, -⟩
        exact hbase (Registry.isSimple_iff.mpr (Or.inl ⟨_, hstring⟩))
      · cases h
  | .ref name | .forward name =>
    rw [Converter.mapMemberWith_reference rfl (hprimitives.substitute?_eq_none rfl)] at h
    exact kind_mem_kinds_of_mapReference ho hs hof rfl h hv
  | .literal values =>
    rw [Converter.mapMemberWith, hprimitives.substitute?_eq_none rfl] at h
    obtain ⟨l, hl, rfl⟩ := exists_literal_of_canDraw hv
    exact kind_mem_kinds_of_mapLiteral ho h hl
  | .list item =>
    rw [Converter.mapMemberWith, hprimitives.substitute?_eq_none rfl] at h
    rw [kind_of_canDraw_list hv]
    exact list_mem_kinds_of_mapList ho h
  | .union members =>
    rcases canDraw_union hv with ⟨e, he, hkind⟩ | ⟨hnone, i, hv⟩
    · rw [hs] at he
      rw [Converter.eq_enumKeyType_of_extensible? hprimitives he h, hkind]
      exact Dialect.enum_mem_kinds_enumKeyType ho
    · obtain ⟨m, hm, hv⟩ := exists_mem_of_canDraw_memberWith hv
      obtain ⟨types, d', hcommon, hd', hmapped⟩ := Converter.exists_mapMemberWith_of_union hm
        (hprimitives.substitute?_eq_none rfl) (hs ▸ hnone) hprimitives.substitute?_eq_none h
      -- the kinds of the member are those of the common type
      have hkinds := (DataType.eq_of_common? (f := δ.kinds) Dialect.kinds_of_joinDistinct?
        hcommon).2 d' hd'
      exact hkinds ▸ takesDrawn_with ho hs hof hmapped hv
  | .custom moduleName name => exact absurd hv not_canDraw_custom

/-! ### Values of fields -/

/-- A value of a type is drawn in one step, from values of keys and of structs. -/
theorem exists_valueWith_of_value (h : (s.value t).CanDraw v) :
    ∃ ofType, (s.valueWith ofType t).CanDraw v := by
  rw [value] at h
  cases hdepth : s.depth with
  | zero =>
    rw [hdepth] at h
    exact absurd h not_canDraw_fail
  | succ depth =>
    rw [hdepth] at h
    exact ⟨s.valueBounded depth, h⟩

/-- The key of a record is a value of the built-in type of its field. -/
theorem kind_of_canDraw_key {f : Field} {index : Nat} (h : (s.key f index).CanDraw v) :
    ∃ p, f.type.unadorned = .primitive p ∧ v.kind = p.valueKind := by
  have integer : ∀ {p : Primitive}, f.type.unadorned = .primitive p → p.valueKind = "int" →
      v.kind = "int" → ∃ p, f.type.unadorned = .primitive p ∧ v.kind = p.valueKind :=
    fun hp hint hv => ⟨_, hp, hv.trans hint.symm⟩
  unfold key at h
  split at h
  · obtain ⟨draws, rfl⟩ := canDraw_lift_iff.mp h
    exact ⟨.uuid, ‹_›, rfl⟩
  case h_7 => exact absurd h not_canDraw_fail
  all_goals
    refine integer ‹_› rfl ?_
    split at h
    · rw [canDraw_pure_iff.mp h]
      rfl
    · exact absurd h not_canDraw_fail

/-- A field that may be absent has no value, or one of its type. -/
theorem canDraw_fieldWith {f : Field} (h : (fieldWith ofType f).CanDraw v) :
    f.nullable = true ∧ v = .null ∨ (ofType f.type).CanDraw v := by
  unfold fieldWith at h
  split at h
  · obtain ⟨present, -, h⟩ := h.exists_of_bind
    split at h
    · exact Or.inr h
    · exact Or.inl ⟨‹_›, canDraw_pure_iff.mp h⟩
  · exact Or.inr h

/-! ### Following keys -/

/-- **Following keys.** What holds of mapping a type and drawing values of it, if it holds of the
types of keys, holds however deep keys are followed. -/
theorem forall_canDraw_along {c : Converter} {R : NativeType → DataType → Value → Prop}
    (hstep : ∀ {ofKey : NativeType → Except ConvertError DataType}
      {ofType : NativeType → Sampler Value},
      (∀ ⦃t d v⦄, ofKey t = .ok d → (ofType t).CanDraw v → R t d v) →
        ∀ ⦃t d v⦄, c.mapMemberWith ofKey t = .ok d → (s.valueWith ofType t).CanDraw v → R t d v)
    (depth : Nat) (keys : List NativeType) ⦃t : NativeType⦄ ⦃d : DataType⦄ ⦃v : Value⦄
    (h : c.mapMemberAlong keys t = .ok d) (hv : (s.valueBounded depth t).CanDraw v) : R t d v := by
  induction depth generalizing keys t d v with
  | zero => exact absurd hv not_canDraw_fail
  | succ depth ih =>
    rw [Converter.mapMemberAlong_eq] at h
    -- one key deeper, both are about the type of the key
    refine hstep (fun key d v hd hv => ?_) h hv
    unfold Converter.keyAlong at hd
    split at hd
    · exact ih _ hd hv
    · cases hd

section Along

variable {δ : Dialect} {r : DialectRequest} {c : Converter} (ho : δ.options r = .ok c.options)
  (hs : s.registry = c.registry) {d : DataType}
include ho hs

/-- **A value that can be drawn for a type has a kind that its data type takes.** -/
theorem kind_mem_kinds_of_value (h : c.mapMember t = .ok d) (hv : (s.value t).CanDraw v) :
    v.kind ∈ δ.kinds d :=
  forall_canDraw_along (R := fun _ d v => v.kind ∈ δ.kinds d) (takesDrawn_with ho hs) s.depth _
    h hv

end Along

end Sample

end SchemaCatalog
