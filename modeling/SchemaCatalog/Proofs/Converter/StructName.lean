import SchemaCatalog.Proofs.Converter.FreeName

/-!
# Names that stand for structs

A name may stand for a struct and for nothing else: not for another definition, a substitute or a
type of the dialect (`StructName`). No simple type then has a data type that refers to that name
(`named?_mapSimple`), whatever its annotations, and neither has a literal type.
-/

namespace SchemaCatalog

namespace NativeType

mutual

/-- The types without definition that a type contains, by module and name. -/
def customs : NativeType → List (String × String)
  | custom moduleName name => [(moduleName, name)]
  | annotated base _ => customs base
  | list item => customs item
  | union members => customsAll members
  | primitive _ | ref _ | forward _ | literal _ => []

/-- The types without definition that the members of a list contain. -/
def customsAll : List NativeType → List (String × String)
  | [] => []
  | t :: ts => customs t ++ customsAll ts

end

end NativeType

namespace Converter

/-- The name of a struct that **stands for the struct only**. -/
structure StructName (c : Converter) (s : Struct) (n : QualifiedName) : Prop where
  /-- The struct is registered. -/
  get? : c.registry.get? s.name = some (.struct s)
  /-- The name is that of the struct. -/
  qualifiedName : c.qualifiedName s.moduleName s.name = .ok n
  /-- No data type that is put in the place of another bears the name. -/
  substitution : ∀ p ∈ c.options.substitutions, p.2.named? ≠ some n
  /-- No data type of a built-in type bears the name. -/
  primitive : ∀ p, (standardType c.options p).named? ≠ some n
  /-- No type without definition bears the name. -/
  custom : ∀ d ∈ c.registry.types, ∀ f ∈ d.fields, ∀ u ∈ f.type.customs,
    c.qualifiedName u.1 u.2 ≠ .ok n

variable {c : Converter} {s : Struct} {n : QualifiedName} {t : NativeType} {d : DataType}

/-! ### Simple types -/

/-- Unless narrow integers become types of the dialect, built-in types have no data type with a
name. -/
theorem named?_standardType (o : Options) (h : o.extraNumericTypes = false) (p : Primitive) :
    (standardType o p).named? = none := by
  cases p <;> simp only [standardType, narrowInteger, h] <;> rfl

namespace StructName

variable (hn : c.StructName s n)
include hn

theorem freeName : c.FreeName n := ⟨hn.substitution, hn.primitive⟩

theorem named?_substitute? (h : c.options.substitute? t = some d) : d.named? ≠ some n :=
  hn.freeName.named?_substitute? h

theorem named?_mapPrimitive (p : Primitive) : (c.mapPrimitive p).named? ≠ some n :=
  hn.freeName.named?_mapPrimitive p

/-- A name of its own is not that of another definition. -/
theorem eq_of_qualifiedName {d : Definition} (hget : c.registry.get? d.name = some d)
    (h : c.qualifiedName d.moduleName d.name = .ok n) : d = .struct s :=
  definition_of_qualifiedName (b := .struct s) hget hn.get? h hn.qualifiedName

theorem named?_mapEnumValues {e : Enumeration} (h : c.mapEnumValues e = .ok d) :
    d.named? ≠ some n :=
  hn.freeName.named?_mapEnumValues h

theorem named?_mapEnum {e : Enumeration} (hget : c.registry.get? e.name = some (.enumeration e))
    (h : c.mapEnum e = .ok d) : d.named? ≠ some n := by
  unfold mapEnum at h
  split at h
  · cases h
    exact hn.named?_mapPrimitive _
  · split at h
    · obtain ⟨m, hm, h⟩ := bind_eq_ok_iff.mp h
      cases pure_eq_ok_iff.mp h
      rintro hname
      cases hname
      cases hn.eq_of_qualifiedName (d := .enumeration e) hget hm
    · cases h
      exact nofun
    · cases h
      exact hn.named?_mapPrimitive _
    · exact hn.named?_mapEnumValues h

/-- A simple type does not refer to the struct. -/
theorem named?_mapSimple (h : c.mapSimple t = .ok d) : d.named? ≠ some n := by
  intro hd
  obtain ⟨e, he, h⟩ := hn.freeName.exists_of_mapSimpleWith h hd
  have hget := (Registry.get?_of_referenced? (Registry.enumeration?_eq_some_iff.mp he)).1
  exact hn.named?_mapEnum hget h hd

theorem named?_mapLiteral {values : List Literal} (h : c.mapLiteral t values = .ok d) :
    d.named? ≠ some n :=
  hn.freeName.named?_mapLiteral h

end StructName

end Converter

end SchemaCatalog
