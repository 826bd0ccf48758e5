import SchemaCatalog.Proofs.Converter.Simple
import SchemaCatalog.Proofs.Converter.Table

/-!
# The shape of lookup tables

Under every setting a lookup table has a generated key and a column of labels, which differ and
are never null (`lookupTable_eq_ok_iff`). What settings decide is the type of the labels. They are
bounded strings, so a substitute of that very type comes first; otherwise the bound refines the
type of strings, be it a substitute or not, which leaves a character type of that limit
(`eq_of_applyAnnotation?_maxLength`), unless settings ignore limits of lengths
(`isLabelType_of_mapSimple`).
-/

namespace SchemaCatalog.Converter

variable {c : Converter} {d : DataType} {e : Enumeration} {t : Table}

/-! ### The type of labels -/

/-- A limit of lengths makes a character type of this limit. -/
theorem eq_of_applyAnnotation?_maxLength {d' : DataType} {n : UInt32}
    (h : applyAnnotation? d (.maxLength n) = some d') : d' = .varchar n ∨ d' = .fixedChar n := by
  cases d with
  | variableCharacter limit => exact .inl (Option.some.inj h).symm
  | fixedCharacter limit => exact .inr (Option.some.inj h).symm
  | _ => cases h

/-- The data types that labels have in lookup tables. -/
inductive IsLabelType (c : Converter) : DataType → Prop
  /-- Settings substitute the type of labels. -/
  | substitute {d : DataType} : c.options.substitute? labelType = some d → IsLabelType c d
  /-- Settings ignore limits of lengths: labels are like all strings. -/
  | unlimited : c.options.substitute? labelType = none →
    .maxLength ∈ c.options.skipAnnotations → IsLabelType c (c.mapPrimitive .string)
  /-- Otherwise labels have a character type with their limit. -/
  | limited {d : DataType} : c.options.substitute? labelType = none →
    .maxLength ∉ c.options.skipAnnotations → d = .varchar labelLimit ∨ d = .fixedChar labelLimit →
    IsLabelType c d

theorem mapSimple_labelType (hs : c.options.substitute? labelType = none) :
    c.mapSimple labelType =
      refine c.options labelType (c.start? (.primitive .string)) [.maxLength labelLimit] >>=
        fun target =>
          match target with
          | some d => .ok d
          | none => c.mapPlainWith c.mapEnum (.primitive .string) :=
  mapSimpleWith_annotated hs

theorem isLabelType_of_mapSimple (h : c.mapSimple labelType = .ok d) : c.IsLabelType d := by
  cases hs : c.options.substitute? labelType with
  | some s =>
    unfold mapSimple mapSimpleWith at h
    rw [hs] at h
    cases h
    exact .substitute hs
  | none =>
    rw [mapSimple_labelType hs, start?_string, refine] at h
    split at h
    · next hskips =>
      cases h
      exact .unlimited hs (List.contains_iff_mem.mp hskips)
    · next hskips =>
      cases hlimited : applyAnnotation? (c.mapPrimitive .string) (.maxLength labelLimit) with
      | none =>
        rw [hlimited] at h
        cases h
      | some limited =>
        rw [hlimited] at h
        cases h
        exact .limited hs (mt List.contains_iff_mem.mpr hskips)
          (eq_of_applyAnnotation?_maxLength hlimited)

/-! ### The table -/

/-- The columns of a lookup table, of labels of a data type. -/
def lookupColumns (c : Converter) (d : DataType) : List Column :=
  [⟨lookupKey, c.enumKeyType, false, none, true, none⟩,
    ⟨lookupLabel, d, false, none, false, none⟩]

theorem nodup_names_lookupColumns : ((c.lookupColumns d).map Column.name).Nodup := by
  show [lookupKey, lookupLabel].Nodup
  decide

/-- Two columns of different names, the first of them the key, and one constraint pass every
check of a table. -/
theorem form_lookupColumns (n : QualifiedName) (constraint : Constraint)
    (description : Option String) :
    Table.form n (c.lookupColumns d) [lookupKey] [constraint] description =
      .ok ⟨n, Table.columnsByName (c.lookupColumns d), [lookupKey], [constraint], description⟩ := by
  have hconstraints : ([constraint].map Constraint.name).Nodup := List.nodup_singleton _
  rw [Table.form_singleton nodup_names_lookupColumns hconstraints]
  exact if_pos List.mem_cons_self

/-- A lookup table in full: it has a key and labels, and it fails only where the enumeration has no
name or labels have no data type. -/
theorem lookupTable_eq_ok_iff (hplain : c.options.factory = .plain) :
    c.lookupTable e = .ok t ↔
      ∃ d n, c.mapSimple labelType = .ok d ∧ c.qualifiedName e.moduleName e.name = .ok n ∧
        t = ⟨n, Table.columnsByName (c.lookupColumns d), [lookupKey],
          [.unique ("uq_" ++ e.name) [lookupLabel]], e.description⟩ := by
  have hform : c.lookupTable e = c.mapSimple labelType >>= fun d =>
      c.qualifiedName e.moduleName e.name >>= fun n =>
        (Table.form n (c.lookupColumns d) [lookupKey] [.unique ("uq_" ++ e.name) [lookupLabel]]
          e.description).mapError .formation := by
    unfold lookupTable
    rw [hplain]
    rfl
  simp only [hform, form_lookupColumns, bind_eq_ok_iff, mapError_eq_ok_iff, Except.ok.injEq]
  constructor
  · rintro ⟨d, hd, n, hn, rfl⟩
    exact ⟨d, n, hd, hn, rfl⟩
  · rintro ⟨d, n, hd, hn, rfl⟩
    exact ⟨d, hd, n, hn, rfl⟩

/-- **The shape of lookup tables.** A lookup table has the column `id`, whose values are generated
and have the type of enumeration keys, and then the column `value`, of a type of labels. Neither
accepts nulls or has a default. The first is the primary key, and the only constraint is that the
second is unique. -/
theorem lookupTable_shape (hplain : c.options.factory = .plain) (h : c.lookupTable e = .ok t) :
    ∃ d, c.IsLabelType d ∧
      t.columns.entries =
        [("id", ⟨"id", c.enumKeyType, false, none, true, none⟩),
          ("value", ⟨"value", d, false, none, false, none⟩)] ∧
      t.primaryKey = ["id"] ∧ t.constraints = [.unique ("uq_" ++ e.name) ["value"]] := by
  obtain ⟨d, n, hd, -, rfl⟩ := (lookupTable_eq_ok_iff hplain).mp h
  exact ⟨d, isLabelType_of_mapSimple hd, Table.entries_columnsByName nodup_names_lookupColumns,
    rfl, rfl⟩

/-- The flavours of a bakery. -/
def flavour : Enumeration :=
  ⟨"Flavour", "bakery", Enumeration.membersOfLabels ["caramel", "vanilla"], none⟩

/-- A bakery that keeps strings in long columns. -/
def bakery : Converter where
  registry := { types := [.enumeration flavour], nodup_names := by decide }
  options := { substitutions := [(.primitive .string, .varchar 16777215)] }

/-- The columns for flavours have the limit of labels nevertheless. -/
theorem lookupTable_shape_bakery :
    ∃ t d, bakery.lookupTable flavour = .ok t ∧ (d = .varchar 64 ∨ d = .fixedChar 64) ∧
      t.columns.entries = [("id", ⟨"id", .integer 4, false, none, true, none⟩),
        ("value", ⟨"value", d, false, none, false, none⟩)] ∧
      t.primaryKey = ["id"] ∧ t.constraints = [.unique "uq_Flavour" ["value"]] := by
  have htable : ∃ t, bakery.lookupTable flavour = .ok t := ⟨_, rfl⟩
  obtain ⟨t, ht⟩ := htable
  obtain ⟨d, hd, hshape⟩ := lookupTable_shape rfl ht
  refine ⟨t, d, ht, ?_, hshape⟩
  cases hd with
  | substitute hs => cases hs
  | unlimited hs hskip => cases hskip
  | limited hs hskip h => exact h

/-- Where settings ignore limits of lengths, or substitute the type of labels, labels are not held
in a character type with their limit. -/
theorem not_limited_bakery :
    (∃ t col, (Converter.mk bakery.registry { skipAnnotations := [.maxLength] }).lookupTable
        flavour = .ok t ∧ t.column? lookupLabel = some col ∧ col.dataType = .text) ∧
      ∃ t col, (Converter.mk bakery.registry
        { substitutions := [(labelType, .varchar 80)] }).lookupTable flavour = .ok t ∧
          t.column? lookupLabel = some col ∧ col.dataType = .varchar 80 :=
  ⟨⟨_, _, rfl, rfl, rfl⟩, _, _, rfl, rfl, rfl⟩

end SchemaCatalog.Converter
