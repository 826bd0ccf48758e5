import SchemaCatalog.Converter.Composite
import SchemaCatalog.Converter.Join
import SchemaCatalog.Proofs.Converter.Agreement
import SchemaCatalog.Proofs.Converter.Simple
import SchemaCatalog.Proofs.Registry.KeyGraph

/-!
# How conversions fail

What goes wrong in a step of a conversion is said directly (`ConvertError.Direct`): the error names
no definition in which it arose, and it is not about a key that refers back to itself. Only two
steps fail in another way. Following a type of keys may fail as a key that refers back does, and
what a type of a field fails with, the types of keys that it leads to fail with, or it is direct
(`failsOnly_mapMemberWith`). And the name of a definition is put around the errors of a whole table,
and around those of the members of a composite type.
-/

namespace SchemaCatalog

/-- An error is **direct** when it names no definition in which it arose, and is not that of a key
which refers back to itself. -/
def ConvertError.Direct : ConvertError → Prop
  | .within _ _ | .unsupported _ .cyclicKey => False
  | _ => True

open ConvertError (Direct)

namespace Converter

variable {c : Converter}

/-! ### Names -/

/-- A mapping has no target for some modules, which is all that it fails with. -/
theorem direct_target (m : NamespaceMapping) (moduleName : String) :
    FailsOnly Direct (m.target moduleName) := by
  unfold NamespaceMapping.target
  split
  · exact .ok _
  · split
    · exact .ok _
    · exact .error trivial

/-- Naming an object fails directly. -/
theorem direct_qualifiedName (moduleName name : String) :
    FailsOnly Direct (c.qualifiedName moduleName name) :=
  (direct_target _ _).bind fun _ => .ok _

theorem direct_stem (moduleName name : String) : FailsOnly Direct (c.stem moduleName name) :=
  (direct_qualifiedName _ _).bind fun _ => .ok _

theorem direct_resolve (r : Registry) (name : String) : FailsOnly Direct (r.resolve name) := by
  unfold Registry.resolve
  split
  · exact .ok _
  · exact .error trivial

theorem direct_keyField (e : Entity) : FailsOnly Direct (Registry.keyField e) := by
  unfold Registry.keyField
  split
  · exact .ok _
  · exact .error trivial

/-! ### Simple types -/

/-- Refining a data type fails with an annotation that does not apply, which is direct. -/
theorem direct_refine (o : Options) (subject : NativeType) (target : Option DataType)
    (as : List Annotation) : FailsOnly Direct (refine o subject target as) := by
  induction as generalizing target with
  | nil => exact .ok _
  | cons a as ih =>
    unfold refine
    split
    · exact ih target
    · split
      · exact .error trivial
      · split
        · exact ih _
        · exact .error trivial

section Simple

variable {ofEnum : Enumeration → Except ConvertError DataType}
  (hof : ∀ e, FailsOnly Direct (ofEnum e))
include hof

/-- A type without a data type of its own fails directly. -/
theorem direct_mapPlainWith (t : NativeType) : FailsOnly Direct (c.mapPlainWith ofEnum t) := by
  unfold mapPlainWith
  split
  · exact .ok _
  · split
    · exact .ok _
    · split
      · exact hof _
      · exact .error trivial

/-- A simple type fails directly when enumerations do. -/
theorem direct_mapSimpleWith (t : NativeType) : FailsOnly Direct (c.mapSimpleWith ofEnum t) := by
  unfold mapSimpleWith
  split
  · exact .ok _
  · split
    · refine (direct_refine _ _ _ _).bind fun target => ?_
      cases target with
      | some d => exact .ok d
      | none => exact direct_mapPlainWith hof _
    · exact direct_mapPlainWith hof t

end Simple

theorem direct_commonValueType (name : String) (vs : List Literal) (found : Option NativeType) :
    FailsOnly Direct (commonValueType name found vs) := by
  induction vs generalizing found with
  | nil => exact .ok _
  | cons v vs ih =>
    unfold commonValueType
    split
    · split
      · exact ih _
      · exact .error trivial
    · exact ih _

theorem direct_mapEnumValues (e : Enumeration) : FailsOnly Direct (c.mapEnumValues e) := by
  refine .bind ?_ fun t => direct_mapSimpleWith (fun f => ?_) t
  · refine (direct_commonValueType _ _ _).bind fun found => ?_
    split <;> exact .ok _
  · exact .error trivial

/-- **Enumerations fail directly**, in whatever mode: no key is followed for them. -/
theorem direct_mapEnum (e : Enumeration) : FailsOnly Direct (c.mapEnum e) := by
  unfold mapEnum
  split
  · exact .ok _
  · split
    · exact (direct_qualifiedName _ _).bind fun _ => .ok _
    · exact .ok _
    · exact .ok _
    · exact direct_mapEnumValues e

theorem direct_mapSimple (t : NativeType) : FailsOnly Direct (c.mapSimple t) :=
  direct_mapSimpleWith direct_mapEnum t

/-! ### Types of fields -/

/-- Literals fail directly: without values, or with values whose data types have none in common. -/
theorem direct_mapLiteral (t : NativeType) (values : List Literal) :
    FailsOnly Direct (c.mapLiteral t values) := by
  unfold mapLiteral
  split
  · exact .error trivial
  · exact .of_mapError fun _ => trivial

theorem direct_mapSimpleArray (t item : NativeType) :
    FailsOnly Direct (c.mapSimpleArray t item) := by
  unfold mapSimpleArray
  split
  · split
    · exact .error trivial
    · split
      · exact (direct_mapEnumValues _).map _
      · exact (direct_mapSimple _).map _
  · exact (direct_mapSimple _).map _

theorem direct_itemName (t item : NativeType) : FailsOnly Direct (c.itemName t item) := by
  unfold itemName
  split
  · exact (direct_resolve _ _).bind fun _ => direct_qualifiedName _ _
  · exact (direct_resolve _ _).bind fun _ => direct_qualifiedName _ _
  · exact direct_qualifiedName _ _
  · exact .error trivial

/-- Lists fail directly, as their items are simple types, names, or refused. -/
theorem direct_mapList (t item : NativeType) : FailsOnly Direct (c.mapList t item) := by
  unfold mapList
  split
  · split
    · exact direct_mapSimpleArray t item
    · exact .ok _
  · split
    · exact .error trivial
    · refine (direct_itemName t item).bind fun n => ?_
      split <;> exact .ok _

/-- The types of keys are found without following them. -/
theorem direct_keyTypes (members : List NativeType) : FailsOnly Direct (c.keyTypes members) :=
  (FailsOnly.mapM fun e _ => direct_keyField e).bind fun _ => .ok _

section Keys

variable {P : ConvertError → Prop} {ofKey : NativeType → Except ConvertError DataType}

/-- A discriminated union fails directly or with what the type of a key fails with. -/
theorem failsOnly_mapDiscriminated (hP : ∀ err, Direct err → P err) {members : List NativeType}
    (hof : ∀ k, c.registry.LeadsTo (.union members) k → FailsOnly P (ofKey k)) (t : NativeType) :
    FailsOnly P (c.mapDiscriminated ofKey t members) := by
  refine ((direct_keyTypes members).mono hP).bind_of_ok fun keys hkeys => ?_
  split
  · refine hof _ ?_
    exact exists_of_mem_keyTypes (List.Subset.refl _) hkeys List.mem_cons_self
  · exact .error (hP _ trivial)

/-- A reference fails directly or with what the type of the key behind it fails with. -/
theorem failsOnly_mapReference (hP : ∀ err, Direct err → P err) {t : NativeType} {name : String}
    (hname : t.referencedName? = some name)
    (hof : ∀ k, c.registry.LeadsTo t k → FailsOnly P (ofKey k)) :
    FailsOnly P (c.mapReference ofKey name) := by
  refine ((direct_resolve _ name).mono hP).bind_of_ok fun found hfound => ?_
  have hget := Registry.resolve_eq_ok_iff.mp hfound
  cases found with
  | enumeration e => exact (direct_mapEnum e).mono hP
  | entity e =>
    obtain ⟨hget, hmentions⟩ := Registry.get?_of_referenced?
      (Registry.referenced?_eq_some_iff.mpr ⟨name, hname, hget⟩)
    refine ((direct_keyField e).mono hP).bind_of_ok fun key hkey => hof _ ?_
    exact ⟨e, key, ⟨hmentions ▸ List.mem_singleton_self _, hget, hkey⟩, rfl⟩
  | struct s =>
    dsimp only
    split
    · exact ((direct_qualifiedName _ _).mono hP).bind fun _ => .ok _
    · exact .ok _

mutual

/-- **A type of a field fails** directly, or as a type of keys does that it leads to. -/
theorem failsOnly_mapMemberWith (hP : ∀ err, Direct err → P err) :
    ∀ {t : NativeType}, (∀ k, c.registry.LeadsTo t k → FailsOnly P (ofKey k)) →
      FailsOnly P (c.mapMemberWith ofKey t) := by
  intro t hof
  unfold mapMemberWith
  split
  · exact .ok _
  · match t with
    | .primitive p => exact .ok _
    | .annotated base as =>
      dsimp only
      split
      · exact (direct_mapSimple _).mono hP
      · split
        · exact failsOnly_mapMemberWith hP fun k hk => hof k (hk.mono (List.Subset.refl _))
        · exact .error (hP _ trivial)
    | .ref name | .forward name => exact failsOnly_mapReference hP rfl hof
    | .literal values => exact (direct_mapLiteral _ values).mono hP
    | .list item => exact (direct_mapList _ item).mono hP
    | .union members =>
      dsimp only
      split
      · exact .ok _
      · split
        · exact failsOnly_mapDiscriminated hP hof _
        · exact (failsOnly_mapMembersWith hP hof).bind fun _ => .of_mapError fun _ => hP _ trivial
    | .custom moduleName name =>
      exact ((direct_qualifiedName _ _).mono hP).bind fun _ => .ok _

/-- The members of a union fail as types do, one after the other. -/
theorem failsOnly_mapMembersWith (hP : ∀ err, Direct err → P err) :
    ∀ {ts : List NativeType}, (∀ k, c.registry.LeadsTo (.union ts) k → FailsOnly P (ofKey k)) →
      FailsOnly P (c.mapMembersWith ofKey ts)
  | [], _ => .ok _
  | t :: ts, hof => by
    have ht : t.mentions ⊆ (NativeType.union (t :: ts)).mentions :=
      NativeType.mentions_subset_mentionsAll List.mem_cons_self
    have hts : (NativeType.union ts).mentions ⊆ (NativeType.union (t :: ts)).mentions :=
      List.subset_append_right _ _
    unfold mapMembersWith
    exact (failsOnly_mapMemberWith hP fun k hk => hof k (hk.mono ht)).bind fun _ =>
      (failsOnly_mapMembersWith hP fun k hk => hof k (hk.mono hts)).bind fun _ => .ok _

end

end Keys

/-! ### Constraints -/

/-- A reference to the key of an entity fails directly, since the type of the key is not mapped for
it. -/
theorem direct_keyReference (target : Entity) : FailsOnly Direct (c.keyReference target) :=
  (direct_keyField target).bind fun _ => (direct_qualifiedName _ _).bind fun _ => .ok _

theorem direct_entityConstraint? (stem : String) (f : Field) :
    FailsOnly Direct (c.entityConstraint? stem f) := by
  unfold entityConstraint?
  split
  · exact (direct_keyReference _).bind fun _ => .ok _
  · exact (FailsOnly.mapM fun e _ => direct_keyReference e).bind fun _ => .ok _
  · exact .ok _

/-- The constraints of an entity fail directly. -/
theorem direct_constraints (e : Entity) : FailsOnly Direct (c.constraints e) := by
  refine (direct_stem _ _).bind fun stem => ?_
  dsimp only
  split
  · refine .bind ?_ fun _ => .ok _
    exact (FailsOnly.mapM fun f _ => direct_entityConstraint? stem f).bind fun _ => .ok _
  · exact .ok _

theorem direct_lookupConstraints (stem : String) (e : Entity) :
    FailsOnly Direct (c.lookupConstraints stem e) := by
  refine (FailsOnly.mapM fun f _ => ?_).bind fun _ => .ok _
  unfold lookupConstraint?
  split
  · refine .bind ?_ fun _ => .ok _
    exact (direct_qualifiedName _ _).bind fun _ => .ok _
  · exact .ok _

/-! ### Definitions -/

/-- A lookup table fails directly: its columns have types of their own. -/
theorem direct_lookupTable (e : Enumeration) : FailsOnly Direct (c.lookupTable e) :=
  (direct_mapSimple _).bind fun _ =>
    (direct_qualifiedName _ _).bind fun _ => .of_mapError fun _ => trivial

section Definitions

variable {P : ConvertError → Prop} (hP : ∀ err, Direct err → P err)
  (hm : ∀ t, FailsOnly P (c.mapMember t))
include hP hm

/-- **The parts of a table fail** directly, or as the types of fields do. -/
theorem failsOnly_tableParts (e : Entity) : FailsOnly P (c.tableParts e) :=
  (FailsOnly.mapM fun f _ => (hm f.type).bind fun _ => .ok _).bind fun _ =>
    ((direct_constraints e).mono hP).bind fun _ => ((direct_stem _ _).mono hP).bind fun stem =>
      ((direct_lookupConstraints stem e).mono hP).bind fun _ =>
        ((direct_qualifiedName _ _).mono hP).bind fun _ => .of_mapError fun _ => hP _ trivial

/-- The key of an item in a join table fails as its type does. -/
theorem failsOnly_relatedKey (item : RelatedItem) : FailsOnly P (c.relatedKey item) := by
  cases item with
  | entity e =>
    exact ((direct_keyField e).mono hP).bind fun key => (hm key.type).bind fun _ => .ok _
  | enumeration e => exact .ok _

/-- **A join table fails** directly, or as the types of the keys of the two sides do. -/
theorem failsOnly_joinTable (owner : Entity) (fieldName : String) (item : RelatedItem) :
    FailsOnly P (c.joinTable owner fieldName item) :=
  ((direct_keyField owner).mono hP).bind fun key => (failsOnly_relatedKey hP hm item).bind fun _ =>
    ((direct_stem _ _).mono hP).bind fun _ => ((direct_stem _ _).mono hP).bind fun _ =>
      (hm _).bind fun _ => (hm key.type).bind fun _ =>
        ((direct_qualifiedName _ _).mono hP).bind fun _ =>
          ((direct_qualifiedName _ _).mono hP).bind fun _ =>
            ((direct_qualifiedName _ _).mono hP).bind fun _ => .of_mapError fun _ => hP _ trivial

omit hP in
/-- A member of a composite type fails as its type does. -/
theorem failsOnly_compositeMember (f : Field) : FailsOnly P (c.compositeMember f) :=
  (hm f.type).bind fun _ => .ok _

end Definitions

end Converter

end SchemaCatalog
