import SchemaCatalog.Proofs.Converter.KeyDepth

/-!
# Substituted items of lists

A substitution of the settings comes first wherever a type is mapped on its own. The items of a list
are mapped on their own only when they are simple (`mapSimpleArray_of_substitute?`). Other items
give the list their name (`mapList_eq_array_iff`), be it that of a struct or of a type without
definition, and no substitution is looked up for them. `mapMember_list_eq_ok_iff` says when an array
has items of the substituted data type: when the item is simple, or when the substitute happens to
be the name that the item has anyway.
-/

namespace SchemaCatalog.Converter

variable {c : Converter} {t item : NativeType} {d : DataType}

/-- A list without substitute of its own is mapped by its items. -/
theorem mapMember_list (hs : c.options.substitute? (.list item) = none) :
    c.mapMember (.list item) = c.mapList (.list item) item := by
  rw [mapMember, mapMemberAlong_eq, mapMemberWith, hs]

/-- A substitute comes first where a simple type is mapped. -/
theorem mapSimple_of_substitute? (hs : c.options.substitute? item = some d) :
    c.mapSimple item = .ok d := by
  unfold mapSimple mapSimpleWith
  rw [hs]

/-- Simple items that are no enumerations may have a substitute. -/
theorem mapSimpleArray_of_substitute? (henum : c.registry.enumeration? item.unadorned = none)
    (hs : c.options.substitute? item = some d) : c.mapSimpleArray t item = .ok (.array d) := by
  rw [mapSimpleArray, henum, mapSimple_of_substitute? hs]
  rfl

/-- Where lists are arrays, items that are not simple give them their name, if they have one and are
no entities. -/
theorem mapList_eq_array_iff (harray : c.options.arrayMode = .array)
    (hsimple : c.registry.isSimple item = false) :
    c.mapList t item = .ok (.array d) ↔ c.registry.entity? item = none ∧
      ∃ n, c.itemName t item = .ok n ∧ d = .userDefined n := by
  rw [mapList, hsimple, if_neg Bool.false_ne_true]
  cases c.registry.entity? item with
  | some e => exact iff_of_false nofun nofun
  | none =>
    rw [if_neg (by simp), bind_eq_ok_iff, harray, and_iff_right rfl]
    refine exists_congr fun n => and_congr_right fun _ => ?_
    rw [pure_eq_ok_iff, DataType.array.injEq, eq_comm]

/-- **Which lists have substituted items**: those of simple items, and those whose items have the
substitute for a name. -/
theorem mapMember_list_eq_ok_iff (harray : c.options.arrayMode = .array)
    (henum : c.registry.enumeration? item.unadorned = none)
    (hlist : c.options.substitute? (.list item) = none)
    (hitem : c.options.substitute? item = some d) :
    c.mapMember (.list item) = .ok (.array d) ↔ c.registry.isSimple item = true ∨
      c.registry.entity? item = none ∧
        ∃ n, c.itemName (.list item) item = .ok n ∧ d = .userDefined n := by
  rw [mapMember_list hlist]
  cases hsimple : c.registry.isSimple item with
  | true =>
    rw [mapList, hsimple, if_pos rfl, harray]
    exact iff_of_true (mapSimpleArray_of_substitute? henum hitem) (Or.inl rfl)
  | false => rw [mapList_eq_array_iff harray hsimple, or_iff_right Bool.false_ne_true]

namespace Survey

/-- A point of a plan. -/
def point : Struct where
  name := "Point"
  moduleName := "app"
  fields := [{ name := "x", type := .primitive .float64 }]

end Survey

/-- A point, a digest without definition and identifiers, which are all substituted. -/
def survey : Converter where
  registry := { types := [.struct Survey.point], nodup_names := by decide }
  options :=
    { substitutions :=
        [(.ref "Point", .json), (.custom "geo" "Hash", .binary 8), (.primitive .uuid, .text)] }

/-- A list of identifiers has substituted items, lists of points and of digests have not. -/
theorem mapMember_list_eq_ok_iff_survey :
    survey.mapMember (.list (.primitive .uuid)) = .ok (.array .text) ∧
      survey.mapMember (.list (.ref "Point")) ≠ .ok (.array .json) ∧
      survey.mapMember (.list (.custom "geo" "Hash")) ≠ .ok (.array (.binary 8)) := by
  refine ⟨(mapMember_list_eq_ok_iff rfl rfl rfl rfl).mpr (Or.inl rfl), fun h => ?_, fun h => ?_⟩
  · rcases (mapMember_list_eq_ok_iff rfl rfl rfl rfl).mp h with hsimple | ⟨-, n, -, hn⟩
    · cases hsimple
    · cases hn
  · rcases (mapMember_list_eq_ok_iff rfl rfl rfl rfl).mp h with hsimple | ⟨-, n, -, hn⟩
    · cases hsimple
    · cases hn

/-- A substitute for a struct does not show in lists of it. -/
theorem not_substituted_point :
    survey.registry.struct? (.ref "Point") = some Survey.point ∧
      survey.options.substitute? (.list (.ref "Point")) = none ∧
      survey.options.substitute? (.ref "Point") = some .json ∧
      survey.mapMember (.ref "Point") = .ok .json ∧
      survey.mapMember (.list (.ref "Point")) =
        .ok (.array (.userDefined ⟨none, "Point", .qualified⟩)) ∧
      survey.mapMember (.list (.ref "Point")) ≠ .ok (.array .json) := by
  have hlist : survey.mapMember (.list (.ref "Point")) =
      .ok (.array (.userDefined ⟨none, "Point", .qualified⟩)) :=
    mapMember_eq_ok_iff.mpr ⟨1, by decide⟩
  refine ⟨rfl, by decide, by decide, mapMember_eq_ok_iff.mpr ⟨1, by decide⟩, hlist, ?_⟩
  rw [hlist]
  decide

end SchemaCatalog.Converter
