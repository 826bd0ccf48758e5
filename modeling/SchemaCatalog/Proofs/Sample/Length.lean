import SchemaCatalog.Proofs.Converter.KeyDepth
import SchemaCatalog.Proofs.Converter.TextLength
import SchemaCatalog.Proofs.Sample.Keys
import SchemaCatalog.Proofs.Sample.Kind

/-!
# Lengths of drawn strings

Drawing a string and mapping its type find the limit of its length in two ways. The sampler asks the
annotations from the outside to the inside, and stops at the first layer with a limit
(`length_le_of_canDraw`); the conversion refines a data type from the inside to the outside, so that
the last limit stays (`Converter.characterLimit?_of_string`). Where settings do not ignore limits,
both are one limit (`fits_of_isString`). For literals, unions and references to entities the limit
of the column is at least that of what is drawn from (`fitsDrawn_with`), as long as literals are
shorter than `2^32`, beyond which their length is no limit. Keys are followed as for the kinds of
values (`length_le_of_value`).
-/

namespace SchemaCatalog

open Sampler

/-! ### Limits among annotations -/

namespace Sample

theorem lengthLimit?_append (as bs : List Annotation) :
    lengthLimit? (as ++ bs) = (lengthLimit? bs).or (lengthLimit? as) := by
  rw [lengthLimit?, List.reverse_append, List.findSome?_append]
  rfl

theorem lengthLimit?_cons (a : Annotation) (as : List Annotation) :
    lengthLimit? (a :: as) = (lengthLimit? as).or (lengthLimit? [a]) :=
  lengthLimit?_append [a] as

end Sample

namespace Converter

open Sample (lengthLimit?)

variable {d : DataType}

/-- An annotation gives a data type the limit that it has, and keeps the limit if it has none. -/
theorem characterLimit?_of_applyAnnotation? {a : Annotation} {d' : DataType}
    (h : applyAnnotation? d a = some d') :
    d'.characterLimit? = (lengthLimit? [a]).or d.characterLimit? := by
  unfold applyAnnotation? at h
  split at h <;> cases h <;> rfl

/-- **The last limit stays**, where limits are not ignored. -/
theorem exists_characterLimit?_of_refine {o : Options} (hkept : .maxLength ∉ o.skipAnnotations)
    {subject : NativeType} {target : Option DataType} :
    ∀ {as : List Annotation} {start : DataType}, refine o subject (some start) as = .ok target →
      ∃ d, target = some d ∧ d.characterLimit? = (lengthLimit? as).or start.characterLimit?
  | [], start, h => by
    cases h
    exact ⟨start, rfl, rfl⟩
  | a :: as, start, h => by
    rw [Sample.lengthLimit?_cons, Option.or_assoc]
    unfold refine at h
    split at h
    · next hskips =>
      have hnone : lengthLimit? [a] = none := by
        cases a with
        | maxLength n => exact absurd (List.contains_iff_mem.mp hskips) hkept
        | _ => rfl
      rw [hnone, Option.none_or]
      exact exists_characterLimit?_of_refine hkept h
    · dsimp only at h
      split at h
      · next happly =>
        rw [← characterLimit?_of_applyAnnotation? happly]
        exact exists_characterLimit?_of_refine hkept h
      · cases h

/-- **The limit of a column of strings** is the last one among the annotations, or the one that all
strings have. -/
theorem characterLimit?_of_string {c : Converter} (hprimitives : c.options.SubstitutesPrimitives)
    (hkept : .maxLength ∉ c.options.skipAnnotations)
    {ofKey : NativeType → Except ConvertError DataType} {t : NativeType}
    (hstring : t.unadorned = .primitive .string) (h : c.mapMemberWith ofKey t = .ok d) :
    d.characterLimit? =
      (lengthLimit? t.annotations).or (c.mapPrimitive .string).characterLimit? := by
  cases t with
  | primitive p =>
    cases hstring
    rw [mapMemberWith_primitive] at h
    cases h
    rfl
  | annotated base as =>
    have hsimple : c.registry.isSimple base = true := Registry.isSimple_iff.mpr (.inl ⟨_, hstring⟩)
    have hsub := hprimitives.substitute?_eq_none (t := .annotated base as) rfl
    have hbase : base.unadorned = .primitive .string := hstring
    rw [mapMemberWith_annotated hsub, if_pos hsimple, mapSimple, mapSimpleWith_annotated hsub,
      hbase, start?_string] at h
    obtain ⟨target, htarget, h⟩ := bind_eq_ok_iff.mp h
    obtain ⟨d', rfl, hlimit⟩ := exists_characterLimit?_of_refine hkept htarget
    cases h
    exact hlimit
  | _ => cases hstring

end Converter

namespace Draw

theorem length_replicate {α : Type} (n : Nat) (x : Draw α) (d : Draws) :
    (replicate n x d).1.length = n := by
  induction n generalizing d with
  | zero => rfl
  | succ n ih => exact congrArg Nat.succ (ih _)

theorem length_alphanumeric_le (greatest : Nat) (d : Draws) :
    (alphanumeric 0 greatest d).1.length ≤ greatest := by
  have hlength : (alphanumeric 0 greatest d).1.length = (between 0 (max 0 greatest) d).1 :=
    String.length_ofList.trans (length_replicate ..)
  rw [hlength]
  exact (between_le (Nat.zero_le _) d).trans_eq (Nat.zero_max greatest)

end Draw

namespace Sample

variable {s : Sample} {ofType : NativeType → Sampler Value} {t : NativeType} {text : String}

/-- **The outermost limit binds** what is drawn for strings with annotations. -/
theorem length_le_of_canDraw : ∀ {t : NativeType}, t.unadorned = .primitive .string →
    (s.valueWith ofType t).CanDraw (.text text) →
      text.length ≤ ((lengthLimit? t.annotations).map UInt32.toNat).getD stringLimit
  | .primitive p, hstring, h => by
    cases hstring
    rw [valueWith] at h
    obtain ⟨d, hd⟩ := canDraw_lift_iff.mp h
    cases hd
    exact Draw.length_alphanumeric_le stringLimit d
  | .annotated base as, hstring, h => by
    rw [NativeType.annotations, lengthLimit?_append]
    rw [valueWith] at h
    split at h
    · next n hlimit =>
      rw [if_pos (show base.unadorned = .primitive .string from hstring)] at h
      obtain ⟨d, hd⟩ := canDraw_lift_iff.mp h
      cases hd
      rw [hlimit]
      exact Draw.length_alphanumeric_le n.toNat d
    · next hlimit =>
      rw [hlimit, Option.none_or]
      exact length_le_of_canDraw (t := base) hstring h

/-! ### Columns that have room for what is drawn -/

/-- Numbers and truth values are no characters, and strings have a limit beyond that of what is
drawn for them, if any. -/
theorem characterLimit?_mapPrimitive {δ : Dialect} {r : DialectRequest} {c : Converter}
    (ho : δ.options r = .ok c.options) :
    (c.mapPrimitive .int).characterLimit? = none ∧
      (c.mapPrimitive .bool).characterLimit? = none ∧
      ∀ n, (c.mapPrimitive .string).characterLimit? = some n → stringLimit ≤ n.toNat := by
  simp only [Dialect.mapPrimitive_eq ho]
  refine ⟨by cases δ <;> rfl, by cases δ <;> rfl, fun n hn => ?_⟩
  cases δ <;> cases hn
  decide

/-- The literals of a type are **short** when their lengths are limits. -/
def HasShortLiterals (c : Converter) (t : NativeType) : Prop :=
  ∀ l, c.Declares t (.literal l) → l.length < 2 ^ 32

/-- A value **fits** the data type of a type with short literals if it is no text, the data type has
no limit, or the text is within the limit. -/
def Fits (c : Converter) (t : NativeType) (d : DataType) (v : Value) : Prop :=
  ∀ ⦃n : UInt32⦄ ⦃text : String⦄, HasShortLiterals c t → d.characterLimit? = some n →
    v = .text text → text.length ≤ n.toNat

/-- A value that is no text fits every data type. -/
theorem fits_of_kind {c : Converter} {d : DataType} {v : Value} (h : v.kind ≠ "string") :
    Fits c t d v := by
  rintro n text - - rfl
  exact absurd rfl h

/-- The data types of types **fit what is drawn** for the types. -/
def FitsDrawn (c : Converter) (ofKey : NativeType → Except ConvertError DataType)
    (ofType : NativeType → Sampler Value) : Prop :=
  ∀ ⦃t : NativeType⦄ ⦃d : DataType⦄ ⦃v : Value⦄,
    ofKey t = .ok d → (ofType t).CanDraw v → Fits c t d v

section Fits

variable {δ : Dialect} {r : DialectRequest} {c : Converter} (ho : δ.options r = .ok c.options)
  (hkept : .maxLength ∉ r.skipAnnotations) (hs : s.registry = c.registry)
  (hshort : ∀ found ∈ c.registry.types, ∀ f ∈ found.fields, HasShortLiterals c f.type)
  {ofKey : NativeType → Except ConvertError DataType} {d : DataType} {v : Value}

include ho hkept in
/-- A column of strings has room for what is drawn, where limits are not ignored. -/
theorem fits_of_isString (hstring : t.unadorned = .primitive .string)
    (h : c.mapMemberWith ofKey t = .ok d) (hv : (s.valueWith ofType t).CanDraw v) :
    Fits c t d v := by
  rintro n text - hn rfl
  have hlimit := Converter.characterLimit?_of_string
    (Dialect.substitutesPrimitives_of_options ho)
    (mt (Dialect.mem_skipAnnotations_of_options ho).mp hkept) hstring h
  have hlength := length_le_of_canDraw hstring hv
  rw [hn] at hlimit
  cases hlast : lengthLimit? t.annotations with
  | some m =>
    rw [hlast] at hlimit hlength
    cases hlimit
    exact hlength
  | none =>
    rw [hlast] at hlimit hlength
    exact hlength.trans ((characterLimit?_mapPrimitive ho).2.2 n hlimit.symm)

include ho hkept hs in
/-- Of the simple types only strings have values that are texts. -/
theorem fits_of_isSimple (hsimple : c.registry.isSimple t = true)
    (h : c.mapMemberWith ofKey t = .ok d) (hv : (s.valueWith ofType t).CanDraw v) :
    Fits c t d v := by
  rcases Registry.isSimple_iff.mp hsimple with ⟨p, hp⟩ | ⟨e, he⟩
  · by_cases hstring : p = .string
    · exact fits_of_isString ho hkept (hstring ▸ hp) h hv
    · refine fits_of_kind ?_
      rw [kind_of_canDraw hp hv]
      revert hstring
      cases p <;> decide
  · refine fits_of_kind ?_
    rw [kind_of_canDraw_enumeration (hs ▸ he) hv]
    decide

include ho in
theorem fits_of_literal {values : List Literal} (h : c.mapLiteral (.literal values) values = .ok d)
    {l : Literal} (hl : l ∈ values) : Fits c (.literal values) d (literalValue l) := by
  intro n text ht hn htext
  cases l with
  | str l =>
    cases htext
    obtain ⟨hint, hbool, -⟩ := characterLimit?_mapPrimitive ho
    have hle := Converter.literalLimit_le_of_mapLiteral hint hbool hl h hn
    rw [UInt32.le_iff_toNat_le, Converter.toNat_literalLimit (ht text (.literal hl))] at hle
    exact (Nat.le_max_left _ _).trans hle
  | int _ | bool _ => cases htext

include hs hshort in
/-- A reference to an entity has the values and the data type of its key. -/
theorem fits_of_reference (hof : FitsDrawn c ofKey ofType) {name : String}
    (hname : t.referencedName? = some name) (h : c.mapReference ofKey name = .ok d)
    (hv : (s.valueWith ofType t).CanDraw v) : Fits c t d v := by
  obtain ⟨found, hfound, h⟩ := bind_eq_ok_iff.mp h
  have hget := Registry.resolve_eq_ok_iff.mp hfound
  have hdrawn : s.registry.referenced? t = some found := by
    rw [hs]
    exact Registry.referenced?_eq_some_iff.mpr ⟨name, hname, hget⟩
  cases found with
  | entity e =>
    obtain ⟨key, hkey, h⟩ := bind_eq_ok_iff.mp h
    obtain ⟨key', hkey', hv⟩ := exists_key_of_canDraw hdrawn hv
    cases hkey.symm.trans hkey'
    have hfield := (Registry.mem_of_keyField hkey).1
    have hkeyShort := hshort _ (Registry.get?_eq_some_iff.mp hget).1 key hfield
    exact fun n text _ hn htext => hof h hv hkeyShort hn htext
  | enumeration e =>
    rw [referenceWith_of_referenced? hdrawn] at hv
    refine fits_of_kind ?_
    rw [kind_of_canDraw_enumMember hv]
    decide
  | struct d =>
    refine fits_of_kind ?_
    rw [kind_of_canDraw_struct hdrawn hv]
    decide

include ho hkept hs hshort

/-- **Data types fit what is drawn for types**, if those of the types of keys do. -/
theorem fitsDrawn_with (hof : FitsDrawn c ofKey ofType) :
    FitsDrawn c (c.mapMemberWith ofKey) (s.valueWith ofType) := by
  intro t d v h hv
  have hprimitives := Dialect.substitutesPrimitives_of_options ho
  match t with
  | .primitive p => exact fits_of_isSimple ho hkept hs rfl h hv
  | .annotated base as =>
    by_cases hsimple : c.registry.isSimple (.annotated base as) = true
    · exact fits_of_isSimple ho hkept hs hsimple h hv
    · have hbase : ¬ c.registry.isSimple base = true := hsimple
      rw [Converter.mapMemberWith_annotated (hprimitives.substitute?_eq_none rfl),
        if_neg hbase] at h
      split at h
      · have hdrawn : (s.valueWith ofType base).CanDraw v := by
          refine (canDraw_annotated hv).resolve_left ?_
          rintro ⟨hstring, -⟩
          exact hbase (Registry.isSimple_iff.mpr (Or.inl ⟨_, hstring⟩))
        exact fun n text ht => fitsDrawn_with hof h hdrawn fun l hl => ht l (.annotated hl)
      · cases h
  | .ref name | .forward name =>
    rw [Converter.mapMemberWith_reference rfl (hprimitives.substitute?_eq_none rfl)] at h
    exact fits_of_reference hs hshort hof rfl h hv
  | .literal values =>
    rw [Converter.mapMemberWith, hprimitives.substitute?_eq_none rfl] at h
    obtain ⟨l, hl, rfl⟩ := exists_literal_of_canDraw hv
    exact fits_of_literal ho h hl
  | .list item =>
    refine fits_of_kind ?_
    rw [kind_of_canDraw_list hv]
    decide
  | .union members =>
    rcases canDraw_union hv with ⟨e, -, hkind⟩ | ⟨hnone, i, hv⟩
    · refine fits_of_kind ?_
      rw [hkind]
      decide
    -- the limit of the common type is at least that of the member
    · intro n text ht hn htext
      obtain ⟨m, hm, hv⟩ := exists_mem_of_canDraw_memberWith hv
      rw [hs] at hnone
      obtain ⟨types, d', hcommon, hd', hmapped⟩ := Converter.exists_mapMemberWith_of_union hm
        (hprimitives.substitute?_eq_none rfl) hnone hprimitives.substitute?_eq_none h
      obtain ⟨limit, hlimit, hle⟩ := DataType.exists_characterLimit?_of_common? hcommon hn hd'
      have hlength := fitsDrawn_with hof hmapped hv (fun l hl => ht l (.union hnone hm hl)) hlimit
        htext
      exact hlength.trans (UInt32.le_iff_toNat_le.mp hle)
  | .custom moduleName name => exact absurd hv not_canDraw_custom

/-- **Drawn texts fit their columns.** With settings of a dialect that do not ignore limits, and
with short literals in the definitions and in the type, a column with a limit has room for every
text that can be drawn for its type. -/
theorem length_le_of_value {n : UInt32} (ht : HasShortLiterals c t) (h : c.mapMember t = .ok d)
    (hn : d.characterLimit? = some n) (hv : (s.value t).CanDraw (.text text)) :
    text.length ≤ n.toNat :=
  forall_canDraw_along (R := Fits c) (fitsDrawn_with ho hkept hs hshort) s.depth _ h hv ht hn rfl

end Fits

/-! ### Destinations of trains -/

/-- The code of a station, with three limits of its length, of which the last one stays. -/
def stationCode : Field where
  name := "code"
  type := .annotated (.annotated (.primitive .string) [.maxLength 40, .maxLength 12]) [.maxLength 6]

/-- A railway with stations, in MySQL. -/
def railway : Converter where
  registry :=
    { types := [.entity ⟨"Station", "rail", "code", [stationCode], none⟩]
      nodup_names := by decide }
  options := Dialect.mysql.defaultOptions

/-- A destination is a direction or the code of a station. -/
def destination : NativeType := .union [.literal [.str "north", .str "south"], .ref "Station"]

theorem hasShortLiterals_stationCode : HasShortLiterals railway stationCode.type :=
  fun _ hl => absurd hl.isPrimitive_unadorned (by decide)

theorem hasShortLiterals_destination : HasShortLiterals railway destination := by
  intro l hl
  cases hl with
  | union _ hm hl =>
    rcases List.mem_cons.mp hm with rfl | hm
    · cases hl with
      | literal hl =>
        rcases List.mem_pair.mp hl with hl | hl <;> cases hl <;> decide
    · cases List.mem_singleton.mp hm
      cases hl

/-- A code that is drawn for a destination fits the column of destinations. -/
theorem length_le_of_value_destination :
    railway.mapMember destination = .ok (.varchar 6) ∧
      ((Sample.mk railway.registry earliest [] 2).value destination).CanDraw (.text "FFFFF") ∧
        "FFFFF".length ≤ (6 : UInt32).toNat := by
  have hmapped : railway.mapMember destination = .ok (.varchar 6) :=
    Converter.mapMember_eq_ok_iff.mpr ⟨2, rfl⟩
  have hdrawn : ((Sample.mk railway.registry earliest [] 2).value destination).CanDraw
      (.text "FFFFF") := ⟨⟨fun _ => 5, 0⟩, _, rfl⟩
  refine ⟨hmapped, hdrawn, length_le_of_value (Dialect.options_default .mysql)
    (List.not_mem_nil) rfl ?_ hasShortLiterals_destination hmapped rfl hdrawn⟩
  intro found hfound f hf
  cases List.mem_singleton.mp hfound
  cases List.mem_singleton.mp hf
  exact hasShortLiterals_stationCode

end Sample

end SchemaCatalog
