import SchemaCatalog.Proofs.Converter.Simple
import SchemaCatalog.Proofs.DataType
import SchemaCatalog.Proofs.Dialect
import SchemaCatalog.Record.Encoding

/-!
# Kinds of values for data types

`Dialect.kinds` lists, for each data type that a dialect uses, the kinds of values that fields with
such a column have. Widening and annotations keep the list (`kinds_of_joinDistinct?`,
`kinds_of_applyAnnotation?`), so that it can be read off the data types of built-in types. With the
settings of a dialect the column of a built-in type takes the values of this type, and members of
enumerations with such values (`storedKinds_subset_of_mapSimpleWith`), and that of an enumeration
takes its members (`enum_mem_kinds_of_mapEnum`).
-/

namespace SchemaCatalog

/-- The kind of the values of a built-in type. -/
def Primitive.valueKind : Primitive → String
  | bool => "bool"
  | int | int8 | int16 | int32 | int64 | uint8 | uint16 | uint32 | uint64 => "int"
  | float | float32 | float64 => "float"
  | string => "string"
  | decimal => "decimal"
  | dateTime => "timestamp"
  | date => "date"
  | time => "time"
  | timeDelta => "interval"
  | uuid => "uuid"
  | json => "json"
  | ipv4 | ipv6 => "ip"

/-- The kinds of what is stored for a built-in type: values of the type, and members of
enumerations where these have such values. -/
def Primitive.storedKinds (p : Primitive) : List String :=
  if p ∈ [string, int, bool] then [p.valueKind, "enum"] else [p.valueKind]

theorem Primitive.valueKind_mem_storedKinds (p : Primitive) : p.valueKind ∈ p.storedKinds := by
  unfold storedKinds
  split <;> exact List.mem_cons_self

namespace Dialect

/-- The **kinds of values** of the fields that have a column of a data type in a dialect. Documents
are kept as JSON in MySQL, as text in Delta Lake, and in types of its own in PostgreSQL, where types
known by name are also those of structs, of enumerations and of addresses. -/
def kinds (δ : Dialect) : DataType → List String
  | .boolean => ["bool", "enum"]
  | .integer _ => if δ = mysql then ["int", "enum", "bool"] else ["int", "enum"]
  | .real | .double | .float _ => ["float"]
  | .decimal _ _ => ["decimal"]
  | .fixedBinary _ | .variableBinary _ => ["uuid", "ip"]
  | .fixedCharacter _ | .variableCharacter _ =>
    if δ = delta then ["string", "enum", "json", "list"] else ["string", "enum"]
  | .date => ["date"]
  | .time _ _ => ["time"]
  | .timestamp _ _ => ["timestamp"]
  | .interval => ["interval"]
  | .uuid => ["uuid"]
  | .json => if δ = mysql then ["json", "list"] else []
  | .array _ => ["list"]
  | .enumeration _ => ["enum"]
  | .userDefined n =>
    if δ = postgresql then
      if ValueEncoding.isJsonName n.localName then ["json", "list", "enum"]
      else ["json", "enum", "ip"]
    else []

variable {δ : Dialect}

theorem null_not_mem_kinds {d : DataType} : "null" ∉ δ.kinds d := by
  unfold kinds
  split <;> (repeat' split) <;> decide

/-- Data types that can be joined take the same kinds of values. -/
theorem kinds_of_joinDistinct? {a b d : DataType} (h : DataType.joinDistinct? a b = some d) :
    δ.kinds a = δ.kinds d ∧ δ.kinds b = δ.kinds d := by
  cases a <;> cases b <;> cases h <;> exact ⟨rfl, rfl⟩

/-- Annotations do not change which kinds of values a data type takes. -/
theorem kinds_of_applyAnnotation? {d d' : DataType} {a : Annotation}
    (h : Converter.applyAnnotation? d a = some d') : δ.kinds d' = δ.kinds d := by
  unfold Converter.applyAnnotation? at h
  split at h <;> cases h <;> rfl

/-- Types that are known by name take documents of structs and members of enumerations. -/
theorem mem_kinds_userDefined (n : QualifiedName) {kind : String}
    (h : kind = "json" ∨ kind = "enum") : kind ∈ postgresql.kinds (.userDefined n) := by
  have hboth : "json" ∈ postgresql.kinds (.userDefined n) ∧
      "enum" ∈ postgresql.kinds (.userDefined n) := by
    dsimp only [kinds]
    rw [if_pos rfl]
    split <;> decide
  rcases h with rfl | rfl
  · exact hboth.1
  · exact hboth.2

/-! ### Built-in types and enumerations with the settings of a dialect -/

section Settings

variable {r : DialectRequest} {c : Converter} (ho : δ.options r = .ok c.options)
include ho

/-- A dialect has substitutes of its own for some built-in types, and the standard types for the
others. -/
theorem mapPrimitive_eq (p : Primitive) :
    c.mapPrimitive p =
      (δ.substitutions.lookup (.primitive p)).getD (Converter.standardType {} p) := by
  obtain ⟨-, namespaces, skipped, -, hoptions⟩ := options_eq_ok ho
  have hstandard : Converter.standardType c.options p = Converter.standardType {} p := by
    rw [hoptions]
    cases p <;> rfl
  rw [Converter.mapPrimitive, hstandard, Options.substitute?, hoptions]

theorem start?_eq (u : NativeType) :
    c.start? u = (δ.substitutions.lookup u <|> Converter.provisionalType? u) := by
  obtain ⟨-, namespaces, skipped, -, hoptions⟩ := options_eq_ok ho
  rw [Converter.start?, Options.substitute?, hoptions]

theorem enumKeyType_eq : c.enumKeyType = .integer 4 := by
  obtain ⟨-, namespaces, skipped, -, hoptions⟩ := options_eq_ok ho
  have hkey : Converter.enumKeyPrimitive c.options = .int32 := by
    rw [hoptions]
    rfl
  rw [Converter.enumKeyType, hkey, mapPrimitive_eq ho]
  cases δ <;> rfl

/-- **The data type of a built-in type takes its values**, in every dialect. -/
theorem storedKinds_subset_mapPrimitive (p : Primitive) :
    p.storedKinds ⊆ δ.kinds (c.mapPrimitive p) := by
  rw [mapPrimitive_eq ho]
  cases δ <;> cases p <;> decide +kernel

theorem storedKinds_subset_start {p : Primitive} {d : DataType}
    (h : c.start? (.primitive p) = some d) : p.storedKinds ⊆ δ.kinds d := by
  have hall : ∀ d ∈ (δ.substitutions.lookup (.primitive p) <|>
      Converter.provisionalType? (.primitive p)).toList, p.storedKinds ⊆ δ.kinds d := by
    cases δ <;> cases p <;> decide +kernel
  rw [start?_eq ho] at h
  exact hall d (by rw [h]; exact List.mem_singleton_self d)

/-- The column of a simple type takes what is stored for its built-in type. -/
theorem storedKinds_subset_of_mapSimpleWith
    {ofEnum : Enumeration → Except ConvertError DataType} {t : NativeType} {d : DataType}
    {p : Primitive} (hp : t.unadorned = .primitive p) (h : c.mapSimpleWith ofEnum t = .ok d) :
    p.storedKinds ⊆ δ.kinds d := by
  rcases Converter.mapSimpleWith_eq_ok h with hsub | hplain | hrefined
  · cases t with
    | primitive q =>
      cases hp
      have hd : c.mapPrimitive p = d := by
        rw [Converter.mapPrimitive, hsub]
        rfl
      exact hd ▸ storedKinds_subset_mapPrimitive ho p
    | _ =>
      rw [(substitutesPrimitives_of_options ho).substitute?_eq_none rfl] at hsub
      cases hsub
  · rw [hp] at hplain
    cases hplain
    exact storedKinds_subset_mapPrimitive ho p
  · rw [hp] at hrefined
    obtain ⟨start, hstart, hd⟩ :=
      Converter.exists_eq_of_refine (f := δ.kinds) kinds_of_applyAnnotation? hrefined
    rw [hd]
    exact storedKinds_subset_start ho hstart

/-- The column of the values of an enumeration takes members of it. -/
theorem enum_mem_kinds_of_mapEnumValues {e : Enumeration} {d : DataType}
    (h : c.mapEnumValues e = .ok d) : "enum" ∈ δ.kinds d := by
  obtain ⟨t, ht, h⟩ := bind_eq_ok_iff.mp h
  have hstored : ∃ p, t.unadorned = .primitive p ∧ "enum" ∈ p.storedKinds := by
    rcases Converter.enumValueType_eq_ok ht with rfl | ⟨-, v, -, rfl⟩
    · exact ⟨.string, rfl, by decide⟩
    · cases v with
      | str s => exact ⟨.string, rfl, by decide⟩
      | int i => exact ⟨.int, rfl, by decide⟩
      | bool b => exact ⟨.bool, rfl, by decide⟩
  obtain ⟨p, hp, hstored⟩ := hstored
  exact storedKinds_subset_of_mapSimpleWith ho hp h hstored

theorem enum_mem_kinds_enumKeyType : "enum" ∈ δ.kinds c.enumKeyType := by
  rw [enumKeyType_eq ho]
  cases δ <;> decide

/-- The column of an enumeration takes members of it, whatever represents it. -/
theorem enum_mem_kinds_of_mapEnum {e : Enumeration} {d : DataType} (h : c.mapEnum e = .ok d) :
    "enum" ∈ δ.kinds d := by
  have hkey := enum_mem_kinds_enumKeyType ho
  unfold Converter.mapEnum at h
  split at h
  · cases h
    exact hkey
  · split at h
    · rename_i hmode
      obtain ⟨n, -, h⟩ := bind_eq_ok_iff.mp h
      cases pure_eq_ok_iff.mp h
      rw [eq_postgresql_of_enumMode ho hmode]
      exact mem_kinds_userDefined n (Or.inr rfl)
    · cases h
      exact List.mem_singleton_self _
    · cases h
      exact hkey
    · exact enum_mem_kinds_of_mapEnumValues ho h

end Settings

end Dialect

end SchemaCatalog
