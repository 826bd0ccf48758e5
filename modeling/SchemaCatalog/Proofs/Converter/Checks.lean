import SchemaCatalog.Proofs.Constant.Reader
import SchemaCatalog.Proofs.Converter.KeyType
import SchemaCatalog.Proofs.Converter.Table

/-!
# Checks of enumerations

Where enumerations are checked, the table of an entity has a constraint for each field of an
enumeration, and its predicate lists the values (`constraint?_of_enumeration`). The list is read
back as exactly these values, whatever characters they consist of (`list?_constraint`). They are of
one kind, because the column of the field could not have been mapped otherwise
(`nativeType_eq_of_mapEnum`).
-/

namespace SchemaCatalog

theorem Table.constraint?_of_mem {t : Table} (h : (t.constraints.map Constraint.name).Nodup)
    {k : Constraint} (hk : k ∈ t.constraints) : t.constraint? k.name = some k :=
  find?_eq_some_of_nodup_map h hk

namespace Converter

variable {c : Converter} {e : Entity} {en : Enumeration} {f : Field} {t : Table}

/-! ### Kinds of values -/

/-- Values with a common type all have this type, which is that of the values so far. -/
theorem eq_of_commonValueType {name : String} :
    ∀ {vs : List Literal} {found found' : Option NativeType},
      commonValueType name found vs = .ok found' →
        (∀ t ∈ found, found' = some t) ∧ ∀ v ∈ vs, found' = some v.nativeType
  | [], found, _, h => by
    cases h
    exact ⟨fun _ ht => ht, nofun⟩
  | v :: vs, found, found', h => by
    have hlater : commonValueType name (some v.nativeType) vs = .ok found' ∧
        ∀ t ∈ found, t = v.nativeType := by
      unfold commonValueType at h
      split at h
      · rename_i t
        split at h
        · rename_i heq
          exact ⟨heq ▸ h, fun t' ht' => (Option.some.inj ht').symm.trans heq⟩
        · cases h
      · exact ⟨h, nofun⟩
    obtain ⟨hv, hvs⟩ := eq_of_commonValueType hlater.1
    have hv : found' = some v.nativeType := hv _ rfl
    exact ⟨fun t ht => hlater.2 t ht ▸ hv, List.forall_mem_cons.mpr ⟨hv, hvs⟩⟩

/-- An enumeration that is checked has a data type only if its values are of one kind. -/
theorem nativeType_eq_of_mapEnum (hmode : c.options.enumMode = .check) {d : DataType}
    (h : c.mapEnum en = .ok d) : ∃ u, ∀ v ∈ en.values, v.nativeType = u := by
  rw [mapEnum, isSmall, hmode] at h
  obtain ⟨t, ht, -⟩ := bind_eq_ok_iff.mp h
  obtain ⟨found, hfound, -⟩ := bind_eq_ok_iff.mp ht
  have hvalues := (eq_of_commonValueType hfound).2
  cases found with
  | none => exact ⟨labelType, fun v hv => nomatch hvalues v hv⟩
  | some t => exact ⟨t, fun v hv => (Option.some.inj (hvalues v hv)).symm⟩

/-! ### Constraints of tables -/

/-- The checks of an entity are constraints of its table, whose names differ. -/
theorem checkConstraints_subset (hf : c.options.factory.Faithful) (h : c.table e = .ok t) :
    ∃ stem, c.stem e.moduleName e.name = .ok stem ∧
      c.checkConstraints stem e ⊆ t.constraints ∧ (t.constraints.map Constraint.name).Nodup := by
  unfold table ConvertError.nameOwner at h
  rw [mapError_eq_ok_iff] at h
  obtain ⟨columns, -, h⟩ := bind_eq_ok_iff.mp h
  obtain ⟨constraints, -, h⟩ := bind_eq_ok_iff.mp h
  obtain ⟨stem, hstem, h⟩ := bind_eq_ok_iff.mp h
  obtain ⟨lookups, -, h⟩ := bind_eq_ok_iff.mp h
  obtain ⟨n, -, h⟩ := bind_eq_ok_iff.mp h
  obtain ⟨description, h⟩ := hf.table (mapError_eq_ok_iff.mp h)
  obtain ⟨-, -, -, hnodup, rfl⟩ := Table.form_eq_ok_iff.mp h
  exact ⟨stem, hstem, List.subset_append_right _ _, hnodup⟩

/-- The check of a field is found under its name. -/
theorem constraint?_of_enumeration (hf : c.options.factory.Faithful)
    (hmode : c.options.enumMode = .check) (h : c.table e = .ok t) (hfield : f ∈ e.fields)
    (hrole : c.role f.type = .enumeration en) :
    ∃ stem, c.stem e.moduleName e.name = .ok stem ∧
      t.constraint? ("ch_" ++ stem ++ "_" ++ f.name) =
        some (.check ("ch_" ++ stem ++ "_" ++ f.name) (membership f.name en)) := by
  obtain ⟨stem, hstem, hsubset, hnodup⟩ := checkConstraints_subset hf h
  have hcheck : .check ("ch_" ++ stem ++ "_" ++ f.name) (membership f.name en) ∈
      c.checkConstraints stem e := by
    rw [checkConstraints, if_pos hmode]
    exact List.mem_filterMap.mpr ⟨f, hfield, by rw [checkConstraint?, hrole]⟩
  exact ⟨stem, hstem, Table.constraint?_of_mem hnodup (hsubset hcheck)⟩

/-- The column of a field of an enumeration has the data type of the enumeration. -/
theorem exists_mapEnum_of_table (hf : c.options.factory.Faithful)
    (hs : c.options.SubstitutesPrimitives) (h : c.table e = .ok t) (hfield : f ∈ e.fields)
    (hrole : c.role f.type = .enumeration en) : ∃ d, c.mapEnum en = .ok d := by
  have henum : c.registry.enumeration? f.type.unadorned = some en := by
    have hhas := hrole ▸ c.hasRole f.type
    cases hhas with
    | enumeration href => exact Registry.enumeration?_eq_some_iff.mpr href
  have hplain : c.isRelationship f.type = false := by
    rw [Bool.eq_false_iff, ne_eq, isRelationship_iff]
    simp [hrole]
  obtain ⟨-, columns, hcolumns, -⟩ := table_eq_ok hf h
  obtain ⟨col, -, hcol⟩ := exists_column_of_mem_fields hcolumns hfield hplain
  have hd := (column_eq_ok hf hcol).2
  rw [mapMember, mapMemberAlong_eq] at hd
  exact ⟨_, mapEnum_of_mapMemberWith hs henum hd⟩

/-- **The values of a check are read back**: its predicate names the field and lists the values of
the enumeration, which are of one kind, so that they are read in order and nothing else is. -/
theorem list?_constraint (hf : c.options.factory.Faithful) (hs : c.options.SubstitutesPrimitives)
    (hmode : c.options.enumMode = .check) (h : c.table e = .ok t) (hfield : f ∈ e.fields)
    (hrole : c.role f.type = .enumeration en) (hmembers : en.members ≠ []) :
    ∃ stem text, c.stem e.moduleName e.name = .ok stem ∧
      t.constraint? ("ch_" ++ stem ++ "_" ++ f.name) =
        some (.check ("ch_" ++ stem ++ "_" ++ f.name) (f.name ++ " IN (" ++ text)) ∧
      Constant.list? text.toList = some (en.values, []) ∧
      ∃ u, ∀ v ∈ en.values, v.nativeType = u := by
  obtain ⟨stem, hstem, hcheck⟩ := constraint?_of_enumeration hf hmode h hfield hrole
  obtain ⟨d, hd⟩ := exists_mapEnum_of_table hf hs h hfield hrole
  have hvalues : en.values ≠ [] := by simpa [Enumeration.values] using hmembers
  refine ⟨stem, ", ".intercalate (en.values.map fun v => (literalConstant v).toSql) ++ ")", hstem,
    ?_, ?_, nativeType_eq_of_mapEnum hmode hd⟩
  · have htext : membership f.name en = f.name ++ " IN (" ++
        (", ".intercalate (en.values.map fun v => (literalConstant v).toSql) ++ ")") :=
      String.append_assoc
    rw [hcheck, htext]
  · rw [String.toList_append]
    exact Constant.list?_intercalate hvalues []

/-! ### A quiz -/

namespace Quiz

/-- Answers full of quotes, commas and parentheses. -/
def answer : Enumeration where
  name := "Answer"
  moduleName := "app"
  members := [("own", .str "it's"), ("pair", .str "a', 'b"), ("end", .str "')"), ("none", .str "")]

/-- A question has a number and an answer. -/
def question : Entity where
  name := "Question"
  moduleName := "app"
  primaryKey := "id"
  fields :=
    [{ name := "id", type := .primitive .int64 }, { name := "answer", type := .ref "Answer" }]

end Quiz

/-- A quiz whose enumerations are checked. -/
def quiz : Converter where
  registry :=
    { types := [.enumeration Quiz.answer, .entity Quiz.question], nodup_names := by decide }
  options := { enumMode := .check }

/-- The four answers are read back from the check of questions. -/
theorem list?_constraint_quiz :
    ∃ t text, quiz.table Quiz.question = .ok t ∧
      t.constraint? "ch_Question_answer" =
        some (.check "ch_Question_answer" ("answer IN (" ++ text)) ∧
      text = "'it''s', 'a'', ''b', ''')', '')" ∧
      Constant.list? text.toList = some ([.str "it's", .str "a', 'b", .str "')", .str ""], []) := by
  have hcheck : (quiz.table Quiz.question).toOption.map
      (fun t => t.constraint? "ch_Question_answer") = some (some (.check "ch_Question_answer"
        ("answer IN (" ++ "'it''s', 'a'', ''b', ''')', '')"))) := by
    decide +kernel
  obtain ⟨t, ht, hcheck⟩ := exists_eq_ok_of_toOption hcheck
  have hprimitives : quiz.options.SubstitutesPrimitives := nofun
  obtain ⟨stem, text, hstem, hfound, hread, -⟩ :=
    list?_constraint (f := { name := "answer", type := .ref "Answer" })
      ObjectFactory.faithful_plain hprimitives rfl ht (.tail _ (.head _)) rfl (by decide)
  have hquestion : quiz.stem "app" "Question" = .ok "Question" := by decide +kernel
  cases hquestion.symm.trans hstem
  have hname : "ch_" ++ "Question" ++ "_" ++ "answer" = "ch_Question_answer" := by decide
  have hfound : t.constraint? "ch_Question_answer" =
      some (.check "ch_Question_answer" ("answer IN (" ++ text)) := hname ▸ hfound
  have htext := (Constraint.check.inj (Option.some.inj (hfound.symm.trans hcheck))).2
  exact ⟨t, text, ht, hfound, (String.append_right_inj _).mp htext, hread⟩

end Converter

end SchemaCatalog
