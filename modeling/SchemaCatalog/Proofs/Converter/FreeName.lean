import SchemaCatalog.Proofs.Converter.Member
import SchemaCatalog.Proofs.Converter.Simple
import SchemaCatalog.Proofs.DataType

/-!
# Names that no built-in data type bears

A name is free when neither a substitute nor the data type of a built-in type bears it (`FreeName`).
The data type of a simple type then refers to the name only as that of an enumeration
(`FreeName.exists_of_mapSimpleWith`), and that of a literal type does not at all. Definitions have
different names (`definition_of_qualifiedName`).
-/

namespace SchemaCatalog.Converter

/-- A name is **free** when the settings make no data type that bears it. -/
structure FreeName (c : Converter) (n : QualifiedName) : Prop where
  /-- No data type that is put in the place of another bears the name. -/
  substitution : ∀ p ∈ c.options.substitutions, p.2.named? ≠ some n
  /-- No data type of a built-in type bears the name. -/
  primitive : ∀ p, (standardType c.options p).named? ≠ some n

variable {c : Converter} {n : QualifiedName} {t : NativeType} {d : DataType}

namespace FreeName

variable (hn : c.FreeName n)
include hn

theorem named?_substitute? (h : c.options.substitute? t = some d) : d.named? ≠ some n := by
  obtain ⟨before, after, hsubstitutions, -⟩ := List.lookup_eq_some_iff.mp h
  exact hn.substitution (t, d) (by rw [hsubstitutions]; simp)

theorem named?_mapPrimitive (p : Primitive) : (c.mapPrimitive p).named? ≠ some n := by
  unfold mapPrimitive
  cases h : c.options.substitute? (.primitive p) with
  | some d => exact hn.named?_substitute? h
  | none => exact hn.primitive p

/-- **A simple type** refers to a free name only if it is an enumeration that does. -/
theorem exists_of_mapSimpleWith {ofEnum : Enumeration → Except ConvertError DataType}
    (h : c.mapSimpleWith ofEnum t = .ok d) (hd : d.named? = some n) :
    ∃ e, c.registry.enumeration? t.unadorned = some e ∧ ofEnum e = .ok d := by
  rcases mapSimpleWith_cases h with ⟨u, hu⟩ | ⟨p, rfl⟩ | he | hplain
  · exact absurd hd (hn.named?_substitute? hu)
  · exact absurd hd (hn.named?_mapPrimitive p)
  · exact he
  · rw [DataType.named?_of_isPlain hplain] at hd
    cases hd

theorem named?_mapEnumValues {e : Enumeration} (h : c.mapEnumValues e = .ok d) :
    d.named? ≠ some n := by
  obtain ⟨u, -, h⟩ := bind_eq_ok_iff.mp h
  intro hd
  obtain ⟨_, -, h⟩ := hn.exists_of_mapSimpleWith h hd
  cases h

theorem named?_mapLiteral {values : List Literal} (h : c.mapLiteral t values = .ok d) :
    d.named? ≠ some n := by
  unfold mapLiteral at h
  split at h
  · cases h
  · obtain ⟨hne, hall⟩ := DataType.named?_of_common? (mapError_eq_ok_iff.mp h)
    obtain ⟨u, hu⟩ := List.exists_mem_of_ne_nil _ hne
    rw [← hall u hu]
    split at hu
    · obtain ⟨v, -, rfl⟩ := List.mem_map.mp hu
      exact nofun
    · obtain ⟨v, -, rfl⟩ := List.mem_map.mp hu
      cases v <;> exact hn.named?_mapPrimitive _

/-- Labels do not refer to a free name. -/
theorem named?_mapSimple_labelType (h : c.mapSimple labelType = .ok d) : d.named? ≠ some n := by
  intro hd
  obtain ⟨e, he, -⟩ := hn.exists_of_mapSimpleWith h hd
  cases he

/-- A field of a built-in type does not refer to a free name. -/
theorem named?_mapMember_primitive {p : Primitive} (h : c.mapMember (.primitive p) = .ok d) :
    d.named? ≠ some n := by
  cases (mapMember_primitive p).symm.trans h
  exact hn.named?_mapPrimitive p

end FreeName

/-- **Definitions have different names.** -/
theorem definition_of_qualifiedName {a b : Definition} (ha : c.registry.get? a.name = some a)
    (hb : c.registry.get? b.name = some b) (hna : c.qualifiedName a.moduleName a.name = .ok n)
    (hnb : c.qualifiedName b.moduleName b.name = .ok n) : a = b := by
  have hname : a.name = b.name := by
    obtain ⟨target, -, hna⟩ := bind_eq_ok_iff.mp hna
    obtain ⟨target', -, hnb⟩ := bind_eq_ok_iff.mp hnb
    rw [← pure_eq_ok_iff.mp hna] at hnb
    exact (congrArg QualifiedName.name (pure_eq_ok_iff.mp hnb)).symm
  rw [hname, hb] at ha
  exact (Option.some.inj ha).symm

end SchemaCatalog.Converter
