import SchemaCatalog.Dialect
import SchemaCatalog.Proofs.Converter.Member
import SchemaCatalog.Proofs.Table

/-!
# Settings of a dialect

`Dialect.options_eq_ok` says what the settings for a request are: the modes that were asked for
or those of the dialect, with the substitutions of the dialect. What is ignored is the only
setting that the fold over the requested kinds changes (`Options.foldl_skipping`). The
conditions that theorems about catalogs put on settings hold for those of every dialect
(`Dialect.substitutesPrimitives_of_options`, `Dialect.faithful_of_options`), and their modes are
modes that the dialect takes (`Dialect.takesModes_of_options`).
-/

namespace SchemaCatalog

/-- Ignoring kinds of annotations changes nothing else. -/
theorem Options.foldl_skipping (ks : List AnnotationKind) (o : Options) :
    ∃ skipped, ks.foldl skipping o = { o with skipAnnotations := skipped } := by
  induction ks generalizing o with
  | nil => exact ⟨o.skipAnnotations, rfl⟩
  | cons k ks ih =>
    obtain ⟨skipped, hskipped⟩ := ih (o.skipping k)
    refine ⟨skipped, ?_⟩
    rw [List.foldl_cons, hskipped, skipping]
    split <;> rfl

theorem Options.mem_skipAnnotations_foldl_skipping {k : AnnotationKind} {ks : List AnnotationKind}
    {o : Options} :
    k ∈ (ks.foldl skipping o).skipAnnotations ↔ k ∈ o.skipAnnotations ∨ k ∈ ks := by
  induction ks generalizing o with
  | nil => simp
  | cons k' ks ih =>
    rw [List.foldl_cons, ih, skipping]
    split
    · next hk' =>
      refine ⟨Or.imp_right (List.mem_cons_of_mem k'), ?_⟩
      rintro (hk | hk)
      · exact .inl hk
      · rcases List.mem_cons.mp hk with rfl | hk
        · exact .inl hk'
        · exact .inr hk
    · simp [or_assoc]

namespace Dialect

variable {d : Dialect} {r : DialectRequest} {o : Options}

/-- **The settings for a request**: it is accepted when the dialect takes the modes that it asks
for. -/
theorem options_eq_ok (h : d.options r = .ok o) :
    d.checkModes r = .ok () ∧
      ∃ namespaces skipped, NamespaceMapping.ofList r.namespaces = .ok namespaces ∧
        o = { enumMode := r.enumMode.getD d.defaultEnumMode
              structMode := r.structMode.getD d.defaultStructMode
              arrayMode := r.arrayMode.getD d.defaultArrayMode
              qualifiedNames := d ≠ .mysql
              namespaces := namespaces
              foreignConstraints := d.writesForeignKeys r.foreignConstraints
              substitutions := d.substitutions
              skipAnnotations := skipped } := by
  obtain ⟨_, hmodes, h⟩ := bind_eq_ok_iff.mp h
  obtain ⟨namespaces, hnamespaces, h⟩ := bind_eq_ok_iff.mp h
  obtain ⟨_, -, h⟩ := bind_eq_ok_iff.mp h
  obtain ⟨skipped, hskipped⟩ := Options.foldl_skipping r.skipAnnotations _
  exact ⟨hmodes, namespaces, skipped, hnamespaces, (pure_eq_ok_iff.mp h).symm.trans hskipped⟩

/-- A check of a mode passes when the mode that was asked for, if there is one, is taken. -/
theorem checkMode_eq_ok_iff {μ : Type} {kind : String} {takes : μ → Bool} {toText : μ → String}
    {m? : Option μ} :
    d.checkMode kind takes toText m? = .ok () ↔ ∀ m, m? = some m → takes m = true := by
  cases m? with
  | none => simp [checkMode]
  | some m => by_cases hm : takes m = true <;> simp [checkMode, hm]

/-- **The modes of accepted settings are modes that the dialect takes**, be they asked for or
not. -/
theorem takesModes_of_options (h : d.options r = .ok o) :
    d.takesEnumMode o.enumMode = true ∧ d.takesStructMode o.structMode = true ∧
      d.takesArrayMode o.arrayMode = true := by
  obtain ⟨hmodes, namespaces, skipped, -, rfl⟩ := options_eq_ok h
  obtain ⟨_, henum, hmodes⟩ := bind_eq_ok_iff.mp hmodes
  obtain ⟨_, hstruct, harray⟩ := bind_eq_ok_iff.mp hmodes
  have taken : ∀ {μ : Type} {takes : μ → Bool} {default : μ} {m? : Option μ},
      takes default = true → (∀ m, m? = some m → takes m = true) →
        takes (m?.getD default) = true := by
    intro μ takes default m? hdefault hasked
    cases m? with
    | none => exact hdefault
    | some m => exact hasked m rfl
  refine ⟨taken ?_ (checkMode_eq_ok_iff.mp henum), taken ?_ (checkMode_eq_ok_iff.mp hstruct),
    taken ?_ (checkMode_eq_ok_iff.mp harray)⟩ <;> cases d <;> rfl

/-- Only PostgreSQL has enumeration types. -/
theorem eq_postgresql_of_enumMode (h : d.options r = .ok o) (hmode : o.enumMode = .type) :
    d = .postgresql := by
  have htaken := (takesModes_of_options h).1
  rw [hmode] at htaken
  cases d <;> first | rfl | cases htaken

/-- Only PostgreSQL has composite types. -/
theorem eq_postgresql_of_structMode (h : d.options r = .ok o) (hmode : o.structMode = .type) :
    d = .postgresql := by
  have htaken := (takesModes_of_options h).2.1
  rw [hmode] at htaken
  cases d <;> first | rfl | cases htaken

/-- A dialect replaces the data types of built-in types only. -/
theorem isPrimitive_of_mem_substitutions : ∀ (d : Dialect), ∀ s ∈ d.substitutions, s.1.isPrimitive
  | postgresql | mysql | delta => by simp [substitutions, NativeType.isPrimitive]

theorem substitutesPrimitives_of_options (h : d.options r = .ok o) : o.SubstitutesPrimitives := by
  obtain ⟨-, namespaces, skipped, -, rfl⟩ := options_eq_ok h
  exact d.isPrimitive_of_mem_substitutions

theorem factory_of_options (h : d.options r = .ok o) : o.factory = .plain := by
  obtain ⟨-, namespaces, skipped, -, rfl⟩ := options_eq_ok h
  rfl

theorem faithful_of_options (h : d.options r = .ok o) : o.factory.Faithful := by
  rw [factory_of_options h]
  exact ObjectFactory.faithful_plain

theorem extraNumericTypes_of_options (h : d.options r = .ok o) : o.extraNumericTypes = false := by
  obtain ⟨-, namespaces, skipped, -, rfl⟩ := options_eq_ok h
  rfl

theorem substitutions_of_options (h : d.options r = .ok o) : o.substitutions = d.substitutions := by
  obtain ⟨-, namespaces, skipped, -, rfl⟩ := options_eq_ok h
  rfl

/-- What is ignored is what was asked for. -/
theorem mem_skipAnnotations_of_options {k : AnnotationKind} (h : d.options r = .ok o) :
    k ∈ o.skipAnnotations ↔ k ∈ r.skipAnnotations := by
  obtain ⟨_, -, h⟩ := bind_eq_ok_iff.mp h
  obtain ⟨_, -, h⟩ := bind_eq_ok_iff.mp h
  obtain ⟨_, -, h⟩ := bind_eq_ok_iff.mp h
  rw [← pure_eq_ok_iff.mp h, Options.mem_skipAnnotations_foldl_skipping]
  simp

/-- A dialect puts plain data types in the place of others, or types of PostgreSQL that are known
by name. -/
theorem isPlain_of_mem_substitutions : ∀ (d : Dialect), ∀ s ∈ d.substitutions,
    s.2.isPlain = true ∨ d = .postgresql ∧ ∃ name, s.2 = .native name
  | mysql | delta => by simp [substitutions, DataType.isPlain, DataType.varchar, DataType.binary,
      DataType.text]
  | postgresql => by simp [substitutions, DataType.native, QualifiedName.global]

/-- The settings of a dialect for a request that asks for nothing. -/
def defaultOptions (d : Dialect) : Options where
  enumMode := d.defaultEnumMode
  structMode := d.defaultStructMode
  arrayMode := d.defaultArrayMode
  qualifiedNames := d ≠ .mysql
  foreignConstraints := d.writesForeignKeys true
  substitutions := d.substitutions

theorem options_default (d : Dialect) : d.options {} = .ok d.defaultOptions := by
  cases d <;> rfl

end Dialect

end SchemaCatalog
