import SchemaCatalog.Proofs.Converter.Failure

/-!
# The definitions that errors name

Whatever goes wrong in an entity or struct goes wrong without its name: no step of a conversion
that gives data types, names, columns or constraints names a definition (`anonymous_mapMember`,
`anonymous_tableParts`), for it fails directly or at a key that refers back to itself. The name is
put around such an error afterwards (`Anonymous.owner?_nameOwner`), in one place for tables and in
one place for composite types. That of a table is outermost, so that every error names the entity.
That of a composite type is around its members only: an error of a member names the struct or
entity, and one of the module or of the parts as a whole does not (`owner?_of_error`).
-/

namespace SchemaCatalog

/-- Direct errors name no definition. -/
theorem owner?_of_direct : ∀ err : ConvertError, err.Direct → err.owner? = none
  | .within _ _, h => h.elim
  | .configuration _, _ | .unsupported _ _, _ | .inconsistentKeys _ _, _ | .incompatibleUnion _ _, _
  | .duplicateTarget _, _ | .unmappedModule _, _ | .unknownType _, _ | .duplicateType _, _
  | .circular _, _ | .formation _, _ => rfl

/-- A step is **anonymous** when its error, if it has one, names no definition. -/
def Anonymous {α : Type} (x : Except ConvertError α) : Prop :=
  ∀ err, x = .error err → err.owner? = none

theorem Anonymous.mapM {α β : Type} {f : α → Except ConvertError β} (hf : ∀ a, Anonymous (f a))
    (as : List α) : Anonymous (as.mapM f) :=
  FailsOnly.mapM fun a _ => hf a

/-- An anonymous error names the definition that it is wrapped with. -/
theorem Anonymous.owner?_nameOwner {α : Type} {x : Except ConvertError α} (hx : Anonymous x)
    {owner : String} {err : ConvertError} (h : ConvertError.nameOwner owner x = .error err) :
    err.owner? = some owner := by
  obtain ⟨e, he, rfl⟩ := mapError_eq_error_iff.mp h
  rw [ConvertError.owner?, hx e he]
  rfl

namespace Converter

variable {c : Converter}

theorem anonymous_mapMemberAlong (keys : List NativeType) (t : NativeType) :
    Anonymous (c.mapMemberAlong keys t) := by
  rw [mapMemberAlong_eq]
  refine failsOnly_mapMemberWith owner?_of_direct fun key _ => ?_
  unfold keyAlong
  split
  · exact anonymous_mapMemberAlong (otherKeys key keys) key
  · exact FailsOnly.error rfl
termination_by keys.length
decreasing_by exact length_otherKeys_lt ‹_›

/-- **Mapping** a type of a field names no definition. -/
theorem anonymous_mapMember (t : NativeType) : Anonymous (c.mapMember t) :=
  anonymous_mapMemberAlong _ t

/-- **The parts of a table** are made without naming the entity. -/
theorem anonymous_tableParts (e : Entity) : Anonymous (c.tableParts e) :=
  failsOnly_tableParts owner?_of_direct anonymous_mapMember e

theorem anonymous_compositeMember (f : Field) : Anonymous (c.compositeMember f) :=
  failsOnly_compositeMember anonymous_mapMember f

/-! ### Composite types -/

theorem eq_unmappedModule_of_qualifiedName {moduleName name : String} {err : ConvertError}
    (h : c.qualifiedName moduleName name = .error err) : err = .unmappedModule moduleName := by
  unfold qualifiedName NamespaceMapping.target at h
  split at h
  · cases h
  · split at h
    · cases h
    · exact (Except.error.inj h).symm

/-- Members that are not made have a type that is not mapped. -/
theorem exists_unmapped_of_error {fs : List Field} {err : ConvertError}
    (h : fs.mapM c.compositeMember = .error err) : ∃ f ∈ fs, ∀ t, c.mapMember f.type ≠ .ok t := by
  by_contra hmapped
  push Not at hmapped
  obtain ⟨members, hmembers⟩ := exists_mapM_eq_ok (f := c.compositeMember) fun f hf => by
    obtain ⟨t, ht⟩ := hmapped f hf
    exact ⟨_, bind_eq_ok_iff.mpr ⟨t, ht, rfl⟩⟩
  rw [hmembers] at h
  cases h

theorem exists_mapMember_of_mapM {fs : List Field} {members : List CompositeMember}
    (h : fs.mapM c.compositeMember = .ok members) :
    ∀ f ∈ fs, ∃ t, c.mapMember f.type = .ok t := by
  intro f hf
  obtain ⟨m, -, hm⟩ := exists_of_mem_left (mapM_eq_ok_iff.mp h) hf
  obtain ⟨t, ht, -⟩ := bind_eq_ok_iff.mp hm
  exact ⟨t, ht⟩

/-- A composite type fails in its members, in its module, or when it is put together. -/
theorem composite_eq_error {d : Definition} (hd : d.enumeration? = none) {err : ConvertError}
    (h : c.composite d = .error err) :
    ConvertError.nameOwner d.name (d.fields.mapM c.compositeMember) = .error err ∨
      (∃ members, d.fields.mapM c.compositeMember = .ok members) ∧
        (err = .unmappedModule d.moduleName ∨ ∃ source, err = .formation source) := by
  have heq : c.composite d =
      ConvertError.nameOwner d.name (d.fields.mapM c.compositeMember) >>= fun members =>
        c.qualifiedName d.moduleName d.name >>= fun n =>
          (c.options.factory.composite n members d.description).mapError .formation := by
    cases d with
    | entity _ | struct _ => rfl
    | enumeration _ => cases hd
  rw [heq] at h
  obtain h | ⟨members, hmembers, h⟩ := bind_eq_error_iff.mp h
  · exact .inl h
  refine .inr ⟨⟨members, mapError_eq_ok_iff.mp hmembers⟩, ?_⟩
  obtain h | ⟨n, -, h⟩ := bind_eq_error_iff.mp h
  · exact .inl (eq_unmappedModule_of_qualifiedName h)
  · obtain ⟨source, -, rfl⟩ := mapError_eq_error_iff.mp h
    exact .inr ⟨source, rfl⟩

/-- **Which errors name the definition**: every error of a table names the entity. An error of a
composite type names the struct or entity when the type of a field is not mapped; otherwise, when
the module has no target or the parts form no composite type, it names nothing. -/
theorem owner?_of_error (c : Converter) :
    (∀ e err, c.table e = .error err → err.owner? = some e.name) ∧
      ∀ d : Definition, d.enumeration? = none → ∀ err, c.composite d = .error err →
        (err.owner? = some d.name ∧ ∃ f ∈ d.fields, ∀ t, c.mapMember f.type ≠ .ok t) ∨
          (err.owner? = none ∧ (∀ f ∈ d.fields, ∃ t, c.mapMember f.type = .ok t) ∧
            (err = .unmappedModule d.moduleName ∨ ∃ source, err = .formation source)) := by
  refine ⟨fun e err herr => (anonymous_tableParts e).owner?_nameOwner herr,
    fun d hd err herr => ?_⟩
  obtain herr | ⟨⟨members, hmembers⟩, hcause⟩ := composite_eq_error hd herr
  · have hmembers := Anonymous.mapM (anonymous_compositeMember (c := c)) d.fields
    obtain ⟨source, hsource, -⟩ := mapError_eq_error_iff.mp herr
    exact .inl ⟨hmembers.owner?_nameOwner herr, exists_unmapped_of_error hsource⟩
  · refine .inr ⟨?_, exists_mapMember_of_mapM hmembers, hcause⟩
    obtain rfl | ⟨source, rfl⟩ := hcause <;> rfl

/-! ### Sample definitions -/

namespace Drafts

/-- A point whose coordinates have one name. -/
def point : Struct where
  name := "Point"
  moduleName := "app"
  fields := [{ name := "x", type := .primitive .float64 },
    { name := "x", type := .primitive .float64 }]

/-- A line to something that is not defined. -/
def line : Struct where
  name := "Line"
  moduleName := "app"
  fields := [{ name := "start", type := .primitive .float64 },
    { name := "end", type := .ref "Nowhere" }]

/-- A sheet whose number is not among its fields. -/
def sheet : Entity where
  name := "Sheet"
  moduleName := "app"
  primaryKey := "number"
  fields := [{ name := "width", type := .primitive .float64 }]

end Drafts

/-- Definitions with a mistake each, with default settings. -/
def drafts : Converter where
  registry :=
    { types := [.struct Drafts.point, .struct Drafts.line, .entity Drafts.sheet]
      nodup_names := by decide }
  options := {}

/-- The errors of the sheet and of the line name them; that of the point does not. -/
theorem owner?_of_error_drafts :
    (∃ err, drafts.table Drafts.sheet = .error err ∧ err.owner? = some "Sheet") ∧
      (∃ err, drafts.composite (.struct Drafts.line) = .error err ∧ err.owner? = some "Line") ∧
      ∃ err, drafts.composite (.struct Drafts.point) = .error err ∧ err.owner? = none := by
  obtain ⟨htable, hcomposite⟩ := owner?_of_error drafts
  refine ⟨?_, ?_, ?_⟩
  · obtain ⟨err, herr⟩ := exists_eq_error_of_toOption
      (x := drafts.table Drafts.sheet) (by decide +kernel)
    exact ⟨err, herr, htable _ _ herr⟩
  · obtain ⟨err, herr⟩ := exists_eq_error_of_toOption
      (x := drafts.composite (.struct Drafts.line)) (by decide +kernel)
    obtain ⟨hname, -⟩ | ⟨-, hmapped, -⟩ := hcomposite _ rfl _ herr
    · exact ⟨err, herr, hname⟩
    · have hnowhere : (drafts.mapMember (.ref "Nowhere")).toOption = none := by decide +kernel
      obtain ⟨t, ht⟩ := hmapped { name := "end", type := .ref "Nowhere" } (.tail _ (.head _))
      rw [ht] at hnowhere
      cases hnowhere
  · obtain ⟨err, herr⟩ := exists_eq_error_of_toOption
      (x := drafts.composite (.struct Drafts.point)) (by decide +kernel)
    obtain ⟨-, f, hf, hunmapped⟩ | ⟨hname, -⟩ := hcomposite _ rfl _ herr
    · have hmembers : (Drafts.point.fields.mapM drafts.compositeMember).toOption.map
          List.length = some 2 := by
        decide +kernel
      obtain ⟨members, hmembers, -⟩ := exists_eq_ok_of_toOption hmembers
      obtain ⟨t, ht⟩ := exists_mapMember_of_mapM hmembers f hf
      exact absurd ht (hunmapped t)
    · exact ⟨err, herr, hname⟩

/-- The error of a composite type whose members share a name is not that of the struct. -/
theorem not_owner?_point :
    drafts.composite (.struct Drafts.point) = .error (.formation (.duplicateColumn "Point" "x")) ∧
      ¬ ∀ err, drafts.composite (.struct Drafts.point) = .error err →
        err.owner? = some Drafts.point.name := by
  have hpoint : drafts.composite (.struct Drafts.point) =
      .error (.formation (.duplicateColumn "Point" "x")) := by
    decide +kernel
  exact ⟨hpoint, fun h => by cases h _ hpoint⟩

end Converter

end SchemaCatalog
