import Mathlib.Algebra.Order.Ring.Int
import SchemaCatalog.Proofs.Converter.KeyDepth
import SchemaCatalog.Proofs.Converter.KeyType
import SchemaCatalog.Proofs.Converter.Simple
import SchemaCatalog.Proofs.DataType.Order

/-!
# Which integers an integer column holds

The integers that a type admits come from built-in types and from listed values, in the type itself
or in the key of an entity that it refers to (`Draws`). Where settings substitute nothing and narrow
integers have standard types, no part of the type has more bytes than the column
(`bytes_le_of_mapMember`): annotations leave integers alone (`mapMember_unadorned_of_integer`), and
the common type of a union is an upper bound. A column has a sign, though. It holds whatever comes
from a signed type or from a list, and it holds an unsigned type exactly when it has a byte more, so
that unsigned types of the width of the column are all that it does not hold
(`heldBy_iff_of_mapMember`).
-/

namespace SchemaCatalog

/-- An integer is **in** the range of a column of `width` bytes. -/
def InColumn (width : Nat) (n : Int) : Prop :=
  -2 ^ (8 * width - 1) ≤ n ∧ n ≤ 2 ^ (8 * width - 1) - 1

instance (width : Nat) (n : Int) : Decidable (InColumn width n) :=
  inferInstanceAs (Decidable (_ ∧ _))

/-- Where integers **come from**. -/
inductive IntegerSource where
  /-- A signed type of some bytes. -/
  | signed (bytes : Nat)
  /-- An unsigned type of some bytes. -/
  | unsigned (bytes : Nat)
  /-- A listed value. -/
  | listed (i : Int64)
  deriving DecidableEq

namespace IntegerSource

/-- An integer comes from a source when it is a value of the type, or the value that is listed. -/
def Gives : IntegerSource → Int → Prop
  | signed bytes, n => InColumn bytes n
  | unsigned bytes, n => 0 ≤ n ∧ n ≤ 2 ^ (8 * bytes) - 1
  | listed i, n => n = i.toInt

/-- The bytes that a source takes; listed values are those of eight. -/
def bytes : IntegerSource → Nat
  | signed bytes | unsigned bytes => bytes
  | listed _ => 8

/-- A column of `width` bytes **holds** a source when every integer from it is in the range of the
column. -/
def HeldBy (s : IntegerSource) (width : Nat) : Prop := ∀ n, s.Gives n → InColumn width n

variable {s : IntegerSource} {width : Nat}

theorem signed_heldBy {b : Nat} (h : b ≤ width) : (signed b).HeldBy width := by
  rintro n ⟨hlo, hhi⟩
  have hpow : (2 : Int) ^ (8 * b - 1) ≤ 2 ^ (8 * width - 1) :=
    pow_le_pow_right₀ (by decide) (by omega)
  exact ⟨by omega, by omega⟩

theorem listed_heldBy {i : Int64} (h : 8 ≤ width) : (listed i).HeldBy width := by
  rintro n rfl
  exact signed_heldBy h _ ⟨i.le_toInt, Int.le_sub_one_of_lt i.toInt_lt⟩

/-- An unsigned type needs more bytes than it has. -/
theorem unsigned_heldBy_iff {b : Nat} (hpos : 0 < width) :
    (unsigned b).HeldBy width ↔ b < width := by
  constructor
  · intro h
    have hone : (1 : Int) ≤ 2 ^ (8 * b) := one_le_pow₀ (by decide)
    obtain ⟨-, hle⟩ := h (2 ^ (8 * b) - 1) ⟨by omega, le_refl _⟩
    have hpow : (2 : Int) ^ (8 * b) ≤ 2 ^ (8 * width - 1) := by omega
    have := (pow_le_pow_iff_right₀ (by decide : (1 : Int) < 2)).mp hpow
    omega
  · rintro h n ⟨hlo, hhi⟩
    have hpow : (2 : Int) ^ (8 * b) ≤ 2 ^ (8 * width - 1) :=
      pow_le_pow_right₀ (by decide) (by omega)
    exact ⟨by omega, by omega⟩

/-- **Where the bytes suffice**, only an unsigned type of just these bytes is not held. -/
theorem heldBy_iff (hpos : 0 < s.bytes) (h : s.bytes ≤ width) :
    s.HeldBy width ↔ s ≠ unsigned width := by
  cases s with
  | signed b => exact iff_of_true (signed_heldBy h) nofun
  | listed i => exact iff_of_true (listed_heldBy h) nofun
  | unsigned b =>
    have hb : b ≤ width := h
    rw [unsigned_heldBy_iff (Nat.lt_of_lt_of_le hpos h), ne_eq, unsigned.injEq]
    omega

end IntegerSource

/-- The integers of a built-in type, if it has integers. -/
def Primitive.integers? : Primitive → Option IntegerSource
  | .int8 => some (.signed 1)
  | .int16 => some (.signed 2)
  | .int32 => some (.signed 4)
  | .int | .int64 => some (.signed 8)
  | .uint8 => some (.unsigned 1)
  | .uint16 => some (.unsigned 2)
  | .uint32 => some (.unsigned 4)
  | .uint64 => some (.unsigned 8)
  | _ => none

namespace DataType

variable {d : DataType} {types : List DataType} {w : UInt8}

/-- The bytes of an integer type. -/
def integerWidth? : DataType → Option UInt8
  | integer width => some width
  | _ => none

/-- Only narrower integers widen to integers. -/
theorem exists_integer_of_widens (h : Widens d (integer w)) : ∃ v, d = integer v ∧ v ≤ w := by
  cases h with
  | refl => exact ⟨w, rfl, UInt8.le_refl w⟩
  | integer h => exact ⟨_, rfl, h⟩

/-- Where the common type is one of integers, so is each of the types. -/
theorem exists_integer_of_common? (h : common? types = .ok (integer w)) (hd : d ∈ types) :
    ∃ v, d = integer v ∧ v ≤ w := by
  have hbound := ((common?_eq_ok_iff_isLUB (List.ne_nil_of_mem hd)).mp h).1 hd
  exact exists_integer_of_widens (le_iff_widens.mp hbound)

end DataType

namespace Converter

variable {c : Converter} {t : NativeType} {s : IntegerSource} {w : UInt8}

/-- A type **draws** integers from a source that is a part of it, or a part of the key of an entity
that it refers to. Values of enumerations count where columns hold them, and no key in their
place. -/
inductive Draws (c : Converter) : NativeType → IntegerSource → Prop
  /-- A built-in type of integers. -/
  | primitive {p : Primitive} {s : IntegerSource} : p.integers? = some s → Draws c (.primitive p) s
  /-- A listed integer. -/
  | literal {values : List Literal} {i : Int64} : .int i ∈ values →
    Draws c (.literal values) (.listed i)
  /-- A value of an enumeration. -/
  | enumeration {t : NativeType} {e : Enumeration} {i : Int64} : c.options.enumMode = .check →
    c.registry.enumeration? t = some e → .int i ∈ e.values → Draws c t (.listed i)
  /-- Annotations do not matter. -/
  | annotated {base : NativeType} {as : List Annotation} {s : IntegerSource} : Draws c base s →
    Draws c (.annotated base as) s
  /-- The key of an entity. -/
  | key {t : NativeType} {e : Entity} {key : Field} {s : IntegerSource} :
    c.registry.entity? t = some e → Registry.keyField e = .ok key → Draws c key.type s →
      Draws c t s
  /-- A member of a union that is no extensible enumeration. -/
  | union {members : List NativeType} {m : NativeType} {s : IntegerSource} :
    c.registry.extensible? (.union members) = none → m ∈ members → Draws c m s →
      Draws c (.union members) s

/-- Built-in types take bytes. -/
theorem Draws.bytes_pos (h : c.Draws t s) : 0 < s.bytes := by
  induction h with
  | @primitive p s hp => cases p <;> cases hp <;> decide
  | literal | enumeration => exact Nat.succ_pos 7
  | annotated _ ih | key _ _ _ ih | union _ _ _ ih => exact ih

section Plain

variable (hsub : c.options.substitutions = [])
include hsub

theorem substitute?_of_nil (t : NativeType) : c.options.substitute? t = none := by
  rw [Options.substitute?, hsub, List.lookup_nil]

theorem substitutesPrimitives_of_nil : c.options.SubstitutesPrimitives := by
  rw [Options.SubstitutesPrimitives, hsub]
  nofun

theorem mapPrimitive_of_nil (p : Primitive) : c.mapPrimitive p = standardType c.options p := by
  rw [mapPrimitive, substitute?_of_nil hsub, Option.getD_none]

/-- Annotations make no integers, so that a simple type of integers is mapped without them. -/
theorem mapPlainWith_of_integer {ofEnum : Enumeration → Except ConvertError DataType}
    (h : c.mapSimpleWith ofEnum t = .ok (.integer w)) :
    c.mapPlainWith ofEnum t.unadorned = .ok (.integer w) := by
  rcases mapSimpleWith_eq_ok h with h | h | h
  · rw [substitute?_of_nil hsub] at h
    cases h
  · exact h
  · have hkeeps : ∀ {d a d'}, applyAnnotation? d a = some d' →
        d'.integerWidth? = d.integerWidth? := by
      intro d a d' h
      unfold applyAnnotation? at h
      split at h <;> cases h <;> rfl
    obtain ⟨start, hstart, hwidth⟩ := exists_eq_of_refine hkeeps h
    rw [start?, substitute?_of_nil hsub] at hstart
    have hstart : provisionalType? t.unadorned = some start := hstart
    unfold provisionalType? at hstart
    split at hstart <;> cases hstart <;> cases hwidth

/-- Annotations of what is not built in do not show. -/
theorem mapMember_unadorned_of_isPrimitive {d : DataType} (ht : t.unadorned.isPrimitive = false)
    (hd : c.mapMember t = .ok d) : c.mapMember t.unadorned = .ok d := by
  rw [mapMember, mapMemberAlong_eq] at hd ⊢
  exact mapMemberWith_unadorned_of_isPrimitive (substitutesPrimitives_of_nil hsub) ht hd

/-- Annotations do not change which integers the column of a field holds. -/
theorem mapMember_unadorned_of_integer (h : c.mapMember t = .ok (.integer w)) :
    c.mapMember t.unadorned = .ok (.integer w) := by
  cases hprimitive : t.unadorned.isPrimitive with
  | false => exact mapMember_unadorned_of_isPrimitive hsub hprimitive h
  | true =>
    cases t with
    | annotated base as =>
      rw [NativeType.unadorned] at hprimitive ⊢
      cases hu : base.unadorned with
      | primitive p =>
        have hsimple : c.registry.isSimple base = true := by
          rw [← Registry.isSimple_unadorned, hu]
          rfl
        rw [mapMember, mapMemberAlong_eq, mapMemberWith_annotated (substitute?_of_nil hsub _),
          if_pos hsimple] at h
        have hplain := mapPlainWith_of_integer hsub h
        rw [NativeType.unadorned, hu] at hplain
        rwa [mapMember, mapMemberAlong_eq, mapMemberWith, substitute?_of_nil hsub]
      | _ =>
        rw [hu] at hprimitive
        cases hprimitive
    | _ => exact h

/-- The column of a literal type is that of its values. -/
theorem mapMember_literal (values : List Literal) :
    c.mapMember (.literal values) = c.mapLiteral (.literal values) values := by
  rw [mapMember, mapMemberAlong_eq, mapMemberWith, substitute?_of_nil hsub]

/-- The column of a reference to an enumeration is that of the enumeration. -/
theorem mapEnum_of_mapMember {d : DataType} {e : Enumeration}
    (he : c.registry.enumeration? t = some e) (hd : c.mapMember t.unadorned = .ok d) :
    c.mapEnum e = .ok d := by
  have hu := Registry.unadorned_of_referenced? (Registry.enumeration?_eq_some_iff.mp he)
  rw [mapMember, mapMemberAlong_eq, hu] at hd
  exact mapEnum_of_mapMemberWith (substitutesPrimitives_of_nil hsub) (by rwa [hu]) hd

/-- A built-in type of integers has a column of at least its bytes. -/
theorem bytes_le_of_mapPrimitive (hextra : c.options.extraNumericTypes = false) {p : Primitive}
    (hp : p.integers? = some s) (h : c.mapPrimitive p = .integer w) : s.bytes ≤ w.toNat := by
  rw [mapPrimitive_of_nil hsub] at h
  cases p <;> cases hp <;> simp only [standardType, narrowInteger, hextra] at h <;> cases h <;>
    decide

/-- A column of listed values has the width of integers. -/
theorem mapPrimitive_int : c.mapPrimitive .int = .integer 8 := mapPrimitive_of_nil hsub .int

theorem eight_le_of_mapLiteral {values : List Literal} {i : Int64} (hi : .int i ∈ values)
    (h : c.mapLiteral t values = .ok (.integer w)) : 8 ≤ w.toNat := by
  unfold mapLiteral at h
  rw [if_neg (by simpa using List.ne_nil_of_mem hi), mapError_eq_ok_iff] at h
  have hstring : values.all Literal.isString = false := by
    rw [List.all_eq_false]
    exact ⟨.int i, hi, Bool.false_ne_true⟩
  rw [hstring, if_neg Bool.false_ne_true] at h
  obtain ⟨v, hv, hle⟩ := DataType.exists_integer_of_common? h (List.mem_map_of_mem hi)
  rw [mapPrimitive_int hsub] at hv
  cases hv
  exact UInt8.le_iff_toNat_le.mp hle

theorem eight_le_of_mapEnum {e : Enumeration} (hmode : c.options.enumMode = .check)
    (h : c.mapEnum e = .ok (.integer w)) : 8 ≤ w.toNat := by
  have hsmall : c.isSmall e = false := by simp [isSmall, hmode]
  rw [mapEnum, hsmall, if_neg Bool.false_ne_true, hmode] at h
  obtain ⟨u, hu, h⟩ := bind_eq_ok_iff.mp h
  have h := mapPlainWith_of_integer hsub h
  rcases enumValueType_eq_ok hu with rfl | ⟨hstring, v, -, rfl⟩
  · have h : Except.ok (c.mapPrimitive .string) = Except.ok (.integer w) := h
    rw [mapPrimitive_of_nil hsub] at h
    cases h
  · cases v with
    | str _ => exact absurd rfl hstring
    | int _ =>
      have h : Except.ok (c.mapPrimitive .int) = Except.ok (.integer w) := h
      rw [mapPrimitive_int hsub] at h
      cases h
      exact le_refl 8
    | bool _ =>
      have h : Except.ok (c.mapPrimitive .bool) = Except.ok (.integer w) := h
      rw [mapPrimitive_of_nil hsub] at h
      cases h

/-- **An integer column is as wide as whatever its type draws from.** -/
theorem bytes_le_of_mapMember (hextra : c.options.extraNumericTypes = false) (h : c.Draws t s)
    (hd : c.mapMember t = .ok (.integer w)) : s.bytes ≤ w.toNat := by
  -- annotations go first, so that the induction is on types without them
  replace hd := mapMember_unadorned_of_integer hsub hd
  induction h generalizing w with
  | @primitive p s hp =>
    have hd : c.mapMember (.primitive p) = .ok (.integer w) := hd
    rw [mapMember, mapMemberAlong_eq, mapMemberWith, substitute?_of_nil hsub] at hd
    exact bytes_le_of_mapPrimitive hsub hextra hp (Except.ok.inj hd)
  | @literal values i hi =>
    exact eight_le_of_mapLiteral hsub hi ((mapMember_literal hsub values).symm.trans hd)
  | enumeration hmode he hi =>
    exact eight_le_of_mapEnum hsub hmode (mapEnum_of_mapMember hsub he hd)
  | annotated _ ih => exact ih hd
  | @key t e key s he hkey _ ih =>
    have href := Registry.entity?_eq_some_iff.mp he
    rw [Registry.unadorned_of_referenced? href] at hd
    exact ih (mapMember_unadorned_of_integer hsub
      (mapMember_key (substitute?_of_nil hsub t) he hkey hd))
  | @union members m s hnone hm _ ih =>
    obtain ⟨types, d', hcommon, hd', hmapped⟩ := exists_mapMember_of_union hm
      (substitute?_of_nil hsub _) hnone (substitute?_of_nil hsub m) hd
    obtain ⟨v, rfl, hle⟩ := DataType.exists_integer_of_common? hcommon hd'
    exact (ih (mapMember_unadorned_of_integer hsub hmapped)).trans (UInt8.le_iff_toNat_le.mp hle)

end Plain

/-- **What an integer column holds**: all that its type draws, except for unsigned types of the
width of the column. -/
theorem heldBy_iff_of_mapMember (hextra : c.options.extraNumericTypes = false)
    (hsub : c.options.substitutions = []) (hd : c.mapMember t = .ok (.integer w)) :
    ∀ s, c.Draws t s → (s.HeldBy w.toNat ↔ s ≠ .unsigned w.toNat) := fun _ h =>
  IntegerSource.heldBy_iff h.bytes_pos (bytes_le_of_mapMember hsub hextra h hd)

namespace Gauges

/-- A station, with a key of four bytes. -/
def station : Entity where
  name := "Station"
  moduleName := "app"
  primaryKey := "id"
  fields := [{ name := "id", type := .primitive .int32 }]

/-- What a gauge may be set to: a station, or an unsigned number of two or of four bytes. -/
def setting : NativeType :=
  .union [.ref "Station", .annotated (.primitive .uint16) [], .primitive .uint32]

end Gauges

/-- A station, with default settings. -/
def gauges : Converter where
  registry := { types := [.entity Gauges.station], nodup_names := by decide }
  options := {}

/-- The column of a setting holds keys of stations and the shorter numbers, but not the longer
ones. -/
theorem heldBy_iff_of_mapMember_gauges :
    gauges.mapMember Gauges.setting = .ok (.integer 4) ∧
      (IntegerSource.signed 4).HeldBy 4 ∧ gauges.Draws Gauges.setting (.signed 4) ∧
      (IntegerSource.unsigned 2).HeldBy 4 ∧ gauges.Draws Gauges.setting (.unsigned 2) ∧
      ¬ (IntegerSource.unsigned 4).HeldBy 4 ∧ gauges.Draws Gauges.setting (.unsigned 4) := by
  have hmap : gauges.mapMember Gauges.setting = .ok (.integer 4) :=
    mapMember_eq_ok_iff.mpr ⟨2, by decide⟩
  have hheld := heldBy_iff_of_mapMember rfl rfl hmap
  have hnone : gauges.registry.extensible? Gauges.setting = none :=
    Registry.extensible?_eq_none (m := .ref "Station") (.head _) rfl
  have hkey : gauges.Draws Gauges.setting (.signed 4) :=
    .union hnone (.head _) (.key (e := Gauges.station) rfl rfl (.primitive rfl))
  have hshort : gauges.Draws Gauges.setting (.unsigned 2) :=
    .union hnone (.tail _ (.head _)) (.annotated (.primitive rfl))
  have hlong : gauges.Draws Gauges.setting (.unsigned 4) :=
    .union hnone (.tail _ (.tail _ (.head _))) (.primitive rfl)
  exact ⟨hmap, (hheld _ hkey).mpr nofun, hkey, (hheld _ hshort).mpr (by decide), hshort,
    fun h => (hheld _ hlong).mp h rfl, hlong⟩

/-- The column of an unsigned type of two bytes, in default settings, has no place for 40000. -/
theorem not_inColumn_uint16 :
    gauges.mapMember (.primitive .uint16) = .ok (.integer 2) ∧
      gauges.Draws (.primitive .uint16) (.unsigned 2) ∧
      (IntegerSource.unsigned 2).Gives 40000 ∧ ¬ InColumn 2 40000 :=
  ⟨mapMember_eq_ok_iff.mpr ⟨1, by decide⟩, .primitive rfl, ⟨by decide, by decide⟩, by decide⟩

end Converter

end SchemaCatalog
