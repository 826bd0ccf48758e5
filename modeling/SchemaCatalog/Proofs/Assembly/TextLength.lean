import SchemaCatalog.Proofs.Assembly.Objects
import SchemaCatalog.Proofs.Converter.TextLength

/-!
# Whether a catalog has room for declared texts

The texts that a textual field declares have to fit the limit of its column, and the labels of an
enumeration that of its lookup table. A catalog holds them all exactly when the textual fields in
reach are brief and no enumeration with a lookup table has a label longer than labels may be
(`holdsTexts_iff`). Nothing checks the lengths of labels, so that it may not
(`not_holdsTexts_courtroom`).
-/

namespace SchemaCatalog.Converter

variable {c : Converter} {roots : List String} {types : List Definition} {p : PlacedObjects}
  {owner : Entity} {e : Enumeration} {f : Field} {t : Table} {k : Catalog}

/-- An enumeration **is looked up** in reach of some roots when a field of an entity that they reach
holds keys of it, or is a relationship to it. -/
def LookedUpInReach (c : Converter) (roots : List String) (e : Enumeration) : Prop :=
  ∃ owner, c.registry.ReachesDefinition roots (.entity owner) ∧ ∃ f ∈ owner.fields,
    .enumeration e ∈ c.keyItems f ∨ c.role f.type = .relationship (.enumeration e)

/-- Enumerations have labels **within** a length when their members and the values of these do. -/
def LabelsWithin (length : Nat) (e : Enumeration) : Prop :=
  ∀ m ∈ e.members, m.1.length ≤ length ∧ m.2.label.length ≤ length

instance (length : Nat) (e : Enumeration) : Decidable (LabelsWithin length e) :=
  inferInstanceAs (Decidable (∀ m ∈ e.members, _))

theorem LabelsWithin.length_le {length : Nat} (h : LabelsWithin length e) {s : String}
    (hs : .str s ∈ e.values) : s.length ≤ length := by
  obtain ⟨⟨label, v⟩, hm, rfl⟩ := List.mem_map.mp hs
  exact (h _ hm).2

/-- A catalog **holds texts** when its columns have room for the texts that are declared. -/
structure HoldsTexts (c : Converter) (roots : List String) (k : Catalog) : Prop where
  /-- The column of a textual field has room for it, if it is a column of limited characters. -/
  columns : ∀ owner, c.registry.ReachesDefinition roots (.entity owner) → ∀ f ∈ owner.fields,
    c.IsTextual f.type → ∃ t ∈ k.tables, c.table owner = .ok t ∧
      ∃ col, t.column? f.name = some col ∧ c.mapMember f.type = .ok col.dataType ∧
        ∀ n, col.dataType.characterLimit? = some n → HasRoom n c f.type
  /-- The label column of a lookup table has room for the labels. -/
  lookups : ∀ e, c.LookedUpInReach roots e → ∃ t ∈ k.tables, c.lookupTable e = .ok t ∧
    ∃ col n, t.column? lookupLabel = some col ∧ col.dataType.characterLimit? = some n ∧
      LabelsWithin n.toNat e

/-- A textual field is no relationship. -/
theorem IsTextual.isRelationship_eq_false {u : NativeType} (h : c.IsTextual u) :
    c.isRelationship u = false := by
  induction h with
  | literal | union => rfl
  | @enumeration u _ _ he =>
    cases u with
    | ref _ | forward _ => rfl
    | _ => cases he
  | annotated _ ih => exact ih

/-- The label column of a lookup table has the limit of labels. -/
theorem exists_labelColumn_of_lookupTable (hf : c.options.factory.Faithful)
    (hsub : c.options.substitutions = []) (hskip : c.options.skipAnnotations = [])
    (h : c.lookupTable e = .ok t) :
    ∃ col, t.column? lookupLabel = some col ∧ col.dataType = .varchar labelLimit := by
  obtain ⟨labels, hlabels, h⟩ := bind_eq_ok_iff.mp h
  obtain ⟨n, -, h⟩ := bind_eq_ok_iff.mp h
  have hformed := hf.formedFrom (mapError_eq_ok_iff.mp h)
  obtain ⟨col, hcol, htype⟩ := hf.exists_column? hformed (.tail _ (.head _))
  rw [mapSimple, mapSimpleWith_labelType hsub hskip] at hlabels
  cases hlabels
  exact ⟨col, hcol, htype⟩

/-- The table of an entity that is reached is in the catalog, with a column for each textual
field. -/
theorem exists_column_of_isTextual (hf : c.options.factory.Faithful)
    (hr : c.reachable roots = .ok types) (hp : c.objects types = .ok p)
    (howner : c.registry.ReachesDefinition roots (.entity owner)) (hfield : f ∈ owner.fields)
    (htextual : c.IsTextual f.type) :
    ∃ t ∈ (c.group p).tables, c.table owner = .ok t ∧
      ∃ col, t.column? f.name = some col ∧ c.mapMember f.type = .ok col.dataType := by
  have hmem : .entity owner ∈ c.tableItems (types.filterMap Definition.entity?) :=
    mem_tableItems_entity_iff.mpr (mem_entities_iff.mpr ((mem_reachable_iff hr).mpr howner))
  obtain ⟨t, ht, hfound⟩ := table?_of_mem_tableItems hf hr hp hmem
  obtain ⟨-, columns, hcolumns, hformed, -⟩ := exists_parts_of_table hf ht
  obtain ⟨col, hcol, hmade⟩ :=
    exists_column_of_mem_fields hcolumns hfield htextual.isRelationship_eq_false
  obtain ⟨hname, htype⟩ := column_eq_ok hf hmade
  exact ⟨t, List.mem_of_find?_eq_some hfound, ht, col, hname ▸ hformed.column?_eq hcol, htype⟩

/-- The lookup table of an enumeration that is looked up is in the catalog. -/
theorem exists_table_of_lookedUpInReach (hf : c.options.factory.Faithful)
    (hr : c.reachable roots = .ok types) (hp : c.objects types = .ok p)
    (he : c.LookedUpInReach roots e) :
    ∃ t ∈ (c.group p).tables, c.lookupTable e = .ok t := by
  obtain ⟨owner, howner, f, hfield, hitem⟩ := he
  obtain ⟨t, ht, hfound⟩ := table?_of_mem_tableItems hf hr hp
    (mem_tableItems hr ((mem_reachable_iff hr).mpr howner) hfield hitem)
  exact ⟨t, List.mem_of_find?_eq_some hfound, ht⟩

/-- **When a catalog holds texts**: the textual fields in reach have to be brief, and the labels of
lookup tables within the limit of labels. -/
theorem holdsTexts_iff (hf : c.options.factory.Faithful) (hsub : c.options.substitutions = [])
    (hskip : c.options.skipAnnotations = []) (h : c.assemble roots = .ok k) :
    c.HoldsTexts roots k ↔
      (∀ owner, c.registry.ReachesDefinition roots (.entity owner) → ∀ f ∈ owner.fields,
        c.IsTextual f.type → ∀ d n, c.mapMember f.type = .ok d → d.characterLimit? = some n →
          c.IsBrief f.type) ∧
      ∀ e, c.LookedUpInReach roots e → LabelsWithin labelLimit.toNat e := by
  obtain ⟨types, p, hr, hp, rfl⟩ := assemble_eq_ok_iff.mp h
  constructor
  · intro hholds
    refine ⟨fun owner howner f hfield htextual d n hd hn => ?_, fun e he => ?_⟩
    · obtain ⟨-, -, -, col, -, htype, hroom⟩ := hholds.columns owner howner f hfield htextual
      cases hd.symm.trans htype
      exact (hasRoom_iff_of_mapMember hsub hskip htextual hd hn).mp (hroom n hn)
    · obtain ⟨t, -, ht, col, n, hcol, hn, hwithin⟩ := hholds.lookups e he
      obtain ⟨col', hcol', htype⟩ := exists_labelColumn_of_lookupTable hf hsub hskip ht
      cases hcol.symm.trans hcol'
      rw [htype] at hn
      cases hn
      exact hwithin
  · rintro ⟨hbrief, hwithin⟩
    refine ⟨fun owner howner f hfield htextual => ?_, fun e he => ?_⟩
    · obtain ⟨t, hmem, ht, col, hcol, htype⟩ :=
        exists_column_of_isTextual hf hr hp howner hfield htextual
      refine ⟨t, hmem, ht, col, hcol, htype, fun n hn => ?_⟩
      exact (hasRoom_iff_of_mapMember hsub hskip htextual htype hn).mpr
        (hbrief owner howner f hfield htextual _ n htype hn)
    · obtain ⟨t, hmem, ht⟩ := exists_table_of_lookedUpInReach hf hr hp he
      obtain ⟨col, hcol, htype⟩ := exists_labelColumn_of_lookupTable hf hsub hskip ht
      exact ⟨t, hmem, ht, col, labelLimit, hcol, by rw [htype]; rfl, hwithin e he⟩

/-! ### A courtroom -/

namespace Courtroom

/-- Verdicts, with some words for an acquittal. -/
def verdict (acquittal : String) : Enumeration where
  name := "Verdict"
  moduleName := "app"
  members := [("guilty", .str "guilty"), ("acquitted", .str acquittal)]

/-- The verdict of a trial. -/
def verdictField : Field := { name := "verdict", type := .ref "Verdict" }

/-- The verdict of the public, in whatever words. -/
def opinionField : Field where
  name := "opinion"
  type := .union [.ref "Verdict", .primitive .string]

/-- A trial has a plea, a verdict and an opinion of the public. -/
def trial : Entity where
  name := "Trial"
  moduleName := "app"
  primaryKey := "id"
  fields :=
    [{ name := "id", type := .primitive .int64 },
      { name := "plea", type := .literal [.str "guilty", .str "not guilty"] },
      verdictField, opinionField]

/-- Words for an acquittal that are longer than labels may be. -/
def insanity : String := "not guilty by reason of insanity at the time when the act was committed"

end Courtroom

open Courtroom

/-- A courtroom whose verdicts are checked. -/
def courtroom (acquittal : String) : Converter where
  registry :=
    { types := [.enumeration (verdict acquittal), .entity trial]
      nodup_names := (by decide : ["Verdict", "Trial"].Nodup) }
  options := { enumMode := .check }

theorem reachable_courtroom (acquittal : String) : (courtroom acquittal).reachable ["Trial"] =
    .ok (["Trial", "Verdict"].filterMap (courtroom acquittal).registry.get?) := by
  have hnames : (courtroom acquittal).registry.closure ["Trial"] = .ok ["Trial", "Verdict"] := by
    cbv
  exact reachable_eq_ok hnames (by decide) (by decide)

/-- Trials are reached, and so is no other entity. -/
theorem reachesDefinition_courtroom_iff {acquittal : String} :
    (courtroom acquittal).registry.ReachesDefinition ["Trial"] (.entity owner) ↔ owner = trial := by
  have htypes : ["Trial", "Verdict"].filterMap (courtroom acquittal).registry.get? =
      [.entity trial, .enumeration (verdict acquittal)] := rfl
  rw [← mem_reachable_iff (reachable_courtroom acquittal), htypes]
  simp

/-- Words of a few letters have room. -/
theorem holdsTexts_courtroom :
    ∃ k, (courtroom "not guilty").assemble ["Trial"] = .ok k ∧ k.tables.length = 2 ∧
      (courtroom "not guilty").HoldsTexts ["Trial"] k := by
  have hlength : ((courtroom "not guilty").assemble ["Trial"]).toOption.map
      (fun k => k.tables.length) = some 2 := by
    rw [assemble, reachable_courtroom]
    decide +kernel
  obtain ⟨k, hk, hlength⟩ := exists_eq_ok_of_toOption hlength
  have hlabels : LabelsWithin labelLimit.toNat (verdict "not guilty") := by decide
  refine ⟨k, hk, hlength, (holdsTexts_iff ObjectFactory.faithful_plain rfl rfl hk).mpr
    ⟨fun owner howner f hfield _ d n _ _ => ?_, fun e he => ?_⟩⟩
  · cases reachesDefinition_courtroom_iff.mp howner
    refine isBrief_of_length_le fun x hx => ?_
    simp only [trial, List.mem_cons, List.not_mem_nil, or_false] at hfield
    rcases hfield with rfl | rfl | rfl | rfl
    · cases hx with
      | enumeration _ hnone => cases hnone
    · cases hx with
      | literal hs =>
        have hshort : ∀ v ∈ [Literal.str "guilty", .str "not guilty"],
            v.label.length ≤ labelLimit.toNat := by decide
        exact hshort _ hs
      | enumeration _ hnone => cases hnone
    · cases hx with
      | enumeration _ he hs =>
        cases he
        exact hlabels.length_le hs
    · cases hx with
      | enumeration _ hnone => cases hnone
      | union hnone => cases hnone
  · obtain ⟨owner, -, f, -, hitem⟩ := he
    have hget := get?_of_lookup (mem_keyItems_or_relationship_iff.mp hitem)
    have hmem := (Registry.get?_eq_some_iff.mp hget).1
    simp only [courtroom, List.mem_cons, List.not_mem_nil, Definition.enumeration.injEq,
      reduceCtorEq, or_false] at hmem
    exact hmem ▸ hlabels

/-- Longer words have no room, neither in the column of the verdict nor in the lookup table that the
opinion needs. -/
theorem not_holdsTexts_courtroom :
    ∃ k, (courtroom insanity).assemble ["Trial"] = .ok k ∧
      (courtroom insanity).mapMember verdictField.type = .ok (.varchar labelLimit) ∧
      ¬ HasRoom labelLimit (courtroom insanity) verdictField.type ∧
      (courtroom insanity).LookedUpInReach ["Trial"] (verdict insanity) ∧
      ¬ LabelsWithin labelLimit.toNat (verdict insanity) ∧
      ¬ (courtroom insanity).HoldsTexts ["Trial"] k := by
  have hlength : ((courtroom insanity).assemble ["Trial"]).toOption.map
      (fun k => k.tables.length) = some 2 := by
    rw [assemble, reachable_courtroom]
    decide +kernel
  obtain ⟨k, hk, -⟩ := exists_eq_ok_of_toOption hlength
  have htrial : (courtroom insanity).registry.ReachesDefinition ["Trial"] (.entity trial) :=
    reachesDefinition_courtroom_iff.mpr rfl
  have hlong : ¬ insanity.length ≤ labelLimit.toNat := by decide
  have hlooked : (courtroom insanity).LookedUpInReach ["Trial"] (verdict insanity) :=
    ⟨trial, htrial, opinionField, by simp [trial], Or.inl (.head _)⟩
  have hmap : (courtroom insanity).mapMember verdictField.type = .ok (.varchar labelLimit) :=
    mapMember_eq_ok_iff.mpr ⟨1, by decide⟩
  have hvalue : .str insanity ∈ (verdict insanity).values := .tail _ (.head _)
  have hdeclares : (courtroom insanity).Declares verdictField.type (.label insanity) :=
    .enumeration rfl rfl hvalue
  have hroom : ¬ HasRoom labelLimit (courtroom insanity) verdictField.type := fun h =>
    hlong (h _ hdeclares)
  refine ⟨k, hk, hmap, hroom, hlooked, fun h => hlong (h.length_le hvalue), fun h => ?_⟩
  obtain ⟨t, -, -, col, -, htype, hcolumn⟩ := h.columns trial htrial verdictField (by simp [trial])
    (.enumeration rfl rfl (by decide))
  have hlimit : col.dataType.characterLimit? = some labelLimit := by
    rw [← Except.ok.inj (hmap.symm.trans htype)]
    rfl
  exact hroom (hcolumn _ hlimit)

end SchemaCatalog.Converter
