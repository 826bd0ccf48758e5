import SchemaCatalog.Proofs.Assembly.Arises
import SchemaCatalog.Proofs.Assembly.EnumTypes

/-!
# What a dialect can express

A dialect refuses the modes that make what it does not have. As everything in a catalog arises in
one of a few ways, each of these modes is the only source of what it makes: enumeration types and
composite types come of no other mode (`enums_eq_nil`, `structs_eq_nil`), and neither do lists of
labels and arrays, at any depth of a data type (`enumeration_not_mem_typeParts`,
`array_not_mem_typeParts`). So the catalogs of a dialect suit it (`suits_of_assemble`).
-/

namespace SchemaCatalog

namespace Converter

variable {c : Converter} {roots : List String} {k : Catalog}

/-! ### What comes of one mode only -/

/-- Enumeration types come of a mode only. -/
theorem enums_eq_nil (hmode : c.options.enumMode ≠ .type) (h : c.assemble roots = .ok k) :
    k.enums = [] := by
  obtain ⟨types, p, -, hp, rfl⟩ := assemble_eq_ok_iff.mp h
  refine List.eq_nil_iff_forall_not_mem.mpr fun u hu => ?_
  obtain ⟨o, ho, -⟩ := mem_enums_group.mp hu
  obtain ⟨e, he, -⟩ := exists_of_mem_right (forall₂_enums hp) ho
  rw [nativeEnums, if_neg hmode] at he
  cases he

/-- Composite types come of a mode only. -/
theorem structs_eq_nil (hmode : c.options.structMode ≠ .type) (h : c.assemble roots = .ok k) :
    k.structs = [] := by
  obtain ⟨types, p, -, hp, rfl⟩ := assemble_eq_ok_iff.mp h
  refine List.eq_nil_iff_forall_not_mem.mpr fun t ht => ?_
  obtain ⟨o, ho, -⟩ := mem_structs_group.mp ht
  obtain ⟨structs, -, hnone, hplaced⟩ := exists_forall₂_structs hp
  obtain ⟨s, hs, -⟩ := exists_of_mem_right hplaced ho
  rw [hnone hmode] at hs
  cases hs

/-- A type without definition **gives a name** when a field of a definition that is reached
mentions it. -/
def NamesCustom (c : Converter) (roots : List String) (n : QualifiedName) : Prop :=
  ∃ owner, c.registry.ReachesDefinition roots owner ∧
    ∃ f ∈ owner.fields, ∃ u ∈ f.type.customs, c.qualifiedName u.1 u.2 = .ok n

section Modes

variable (hf : c.options.factory.Faithful) (hk : c.options.factory.KeepsComposites)
  (h : c.assemble roots = .ok k)
include hf hk h

/-- Lists of labels come of a mode only, if no substitute has them. -/
theorem enumeration_not_mem_typeParts (hmode : c.options.enumMode ≠ .inlined)
    {labels : List String}
    (hsub : ∀ s ∈ c.options.substitutions, .enumeration labels ∉ s.2.parts) :
    .enumeration labels ∉ k.typeParts := by
  intro hd
  cases arises_of_mem_typeParts hf hk h hd with
  | plain hplain => cases hplain
  | substitute hs hd => exact hsub _ hs hd
  | labels hinlined => exact hmode hinlined

/-- Arrays come of a mode only, if no substitute has them. -/
theorem array_not_mem_typeParts (hmode : c.options.arrayMode ≠ .array) {element : DataType}
    (hsub : ∀ s ∈ c.options.substitutions, .array element ∉ s.2.parts) :
    .array element ∉ k.typeParts := by
  intro hd
  cases arises_of_mem_typeParts hf hk h hd with
  | plain hplain => cases hplain
  | substitute hs hd => exact hsub _ hs hd
  | array harray => exact hmode harray

/-- Where nothing else is known by name, a name in a data type is that of a type without
definition. -/
theorem namesCustom_of_mem_typeParts (henum : c.options.enumMode ≠ .type)
    (hstruct : c.options.structMode ≠ .type) (harray : c.options.arrayMode ≠ .array)
    (hextra : c.options.extraNumericTypes = false) {n : QualifiedName}
    (hsub : ∀ s ∈ c.options.substitutions, .userDefined n ∉ s.2.parts)
    (hn : .userDefined n ∈ k.typeParts) : c.NamesCustom roots n := by
  have harises := arises_of_mem_typeParts hf hk h hn
  cases harises with
  | plain hplain => cases hplain
  | substitute hs hd => exact absurd hd (hsub _ hs)
  | native hon =>
    rw [hextra] at hon
    cases hon
  | enumeration htype => exact absurd htype henum
  | struct hmode => exact absurd hmode (not_or.mpr ⟨hstruct, harray⟩)
  | custom howner hfield hu hn => exact ⟨_, howner, _, hfield, _, hu, hn⟩

end Modes

/-! ### Dialects -/

/-- A catalog **suits** a dialect when it has nothing that the dialect does not have. -/
def Suits (c : Converter) (roots : List String) (k : Catalog) : Dialect → Prop
  | .postgresql => ∀ labels, .enumeration labels ∉ k.typeParts
  | .mysql => k.enums = [] ∧ k.structs = [] ∧ (∀ element, .array element ∉ k.typeParts) ∧
      ∀ n, .userDefined n ∈ k.typeParts → c.NamesCustom roots n
  | .delta => k.enums = [] ∧ k.structs = [] ∧ ∀ labels, .enumeration labels ∉ k.typeParts

/-- What no substitute is, no substitute of a dialect has inside it: plain data types and names
have no other parts. -/
theorem not_mem_parts_substitutions {δ : Dialect} {d : DataType} (hplain : d.isPlain = false)
    (hnative : δ = .postgresql → ∀ name, d ≠ .native name) :
    ∀ s ∈ δ.substitutions, d ∉ s.2.parts := by
  intro s hs hd
  rcases δ.isPlain_of_mem_substitutions s hs with hs | ⟨hδ, name, hs⟩
  · rw [DataType.eq_of_mem_parts_of_isPlain hs hd, hs] at hplain
    cases hplain
  · rw [hs] at hd
    exact hnative hδ name (List.mem_singleton.mp hd)

/-- **What a dialect can express**: the catalogs that it makes suit it, whatever is asked of it and
whatever the registry. -/
theorem suits_of_assemble {δ : Dialect} {r : DialectRequest} (ho : δ.options r = .ok c.options)
    (h : c.assemble roots = .ok k) : c.Suits roots k δ := by
  have hf := Dialect.faithful_of_options ho
  have hk : c.options.factory.KeepsComposites := by
    rw [Dialect.factory_of_options ho]
    exact ObjectFactory.keepsComposites_plain
  obtain ⟨henum, hstruct, harray⟩ := Dialect.takesModes_of_options ho
  have hsub := Dialect.substitutions_of_options ho
  have hlabels : c.options.enumMode ≠ .inlined → ∀ labels, .enumeration labels ∉ k.typeParts :=
    fun hmode labels => enumeration_not_mem_typeParts hf hk h hmode
      (hsub ▸ not_mem_parts_substitutions rfl nofun)
  cases δ with
  | postgresql => exact hlabels (of_decide_eq_true henum)
  | mysql =>
    have henum : c.options.enumMode ≠ .type := of_decide_eq_true henum
    have hstruct : c.options.structMode ≠ .type := of_decide_eq_true hstruct
    have harray : c.options.arrayMode ≠ .array := of_decide_eq_true harray
    refine ⟨enums_eq_nil henum h, structs_eq_nil hstruct h, fun element => ?_, fun n hn => ?_⟩
    · exact array_not_mem_typeParts hf hk h harray
        (hsub ▸ not_mem_parts_substitutions rfl nofun)
    · exact namesCustom_of_mem_typeParts hf hk h henum hstruct harray
        (Dialect.extraNumericTypes_of_options ho)
        (hsub ▸ not_mem_parts_substitutions rfl nofun) hn
  | delta =>
    have henum : c.options.enumMode = .check := of_decide_eq_true henum
    have hstruct : c.options.structMode ≠ .type := of_decide_eq_true hstruct
    refine ⟨enums_eq_nil ?_ h, structs_eq_nil hstruct h, hlabels ?_⟩
    · rw [henum]
      exact nofun
    · rw [henum]
      exact nofun

/-! ### A workshop -/

namespace Workshop

/-- How the surface of a part looks. -/
def finish : Enumeration :=
  ⟨"Finish", "app", [("matt", .str "matt"), ("gloss", .str "gloss")], none⟩

/-- A hole in a part. -/
def hole : Struct where
  name := "Hole"
  moduleName := "app"
  fields := [{ name := "width", type := .primitive .float64 }]

/-- Parts have an outline, for which there is no definition. -/
def part : Entity where
  name := "Part"
  moduleName := "app"
  primaryKey := "id"
  fields :=
    [{ name := "id", type := .primitive .int64 },
      { name := "finish", type := .ref "Finish" },
      { name := "largest", type := .forward "Hole", nullable := true },
      { name := "holes", type := .list (.ref "Hole") },
      { name := "notes", type := .list (.primitive .string) },
      { name := "outline", type := .custom "geo" "Polygon" }]

end Workshop

/-- A workshop, with the settings of a dialect that are not asked for. -/
def workshop (δ : Dialect) : Converter where
  registry :=
    { types := [.enumeration Workshop.finish, .struct Workshop.hole, .entity Workshop.part]
      nodup_names := by decide }
  options := δ.defaultOptions

theorem reachable_workshop (δ : Dialect) : (workshop δ).reachable ["Part"] =
    .ok (["Finish", "Hole", "Part"].filterMap (workshop δ).registry.get?) := by
  have hnames : (workshop δ).registry.closure ["Part"] = .ok ["Part", "Finish", "Hole"] := by cbv
  exact reachable_eq_ok hnames (by decide) (by decide)

/-- The data types of the workshop that are not plain, in each dialect. -/
theorem suits_workshop :
    (∃ k, (workshop .postgresql).assemble ["Part"] = .ok k ∧
      k.typeParts.filter (fun d => !d.isPlain) =
        [.native "Finish", .native "Hole", .array (.native "Hole"), .native "Hole", .array .text,
          .native "Polygon"] ∧ (workshop .postgresql).Suits ["Part"] k .postgresql) ∧
    (∃ k, (workshop .mysql).assemble ["Part"] = .ok k ∧
      k.typeParts.filter (fun d => !d.isPlain) =
        [.enumeration ["matt", "gloss"], .userDefined ⟨none, "Polygon", .prefixed⟩] ∧
      (workshop .mysql).Suits ["Part"] k .mysql) ∧
    ∃ k, (workshop .delta).assemble ["Part"] = .ok k ∧
      k.typeParts.filter (fun d => !d.isPlain) =
        [.array (.native "Hole"), .native "Hole", .array .text, .native "Polygon"] ∧
      (workshop .delta).Suits ["Part"] k .delta := by
  have htypes : ∀ δ, ((workshop δ).assemble ["Part"]).toOption.map
      (fun k => k.typeParts.filter fun d => !d.isPlain) = some (match δ with
        | .postgresql => [.native "Finish", .native "Hole", .array (.native "Hole"),
            .native "Hole", .array .text, .native "Polygon"]
        | .mysql => [.enumeration ["matt", "gloss"], .userDefined ⟨none, "Polygon", .prefixed⟩]
        | .delta =>
          [.array (.native "Hole"), .native "Hole", .array .text, .native "Polygon"]) := by
    intro δ
    rw [assemble, reachable_workshop]
    cases δ <;> decide +kernel
  refine ⟨?_, ?_, ?_⟩
  all_goals
    obtain ⟨k, hk, htypes⟩ := exists_eq_ok_of_toOption (htypes _)
    exact ⟨k, hk, htypes, suits_of_assemble (Dialect.options_default _) hk⟩

end Converter

end SchemaCatalog
