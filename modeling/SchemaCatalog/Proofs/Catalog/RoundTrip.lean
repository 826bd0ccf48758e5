import SchemaCatalog.Catalog.Reader
import SchemaCatalog.Catalog.Writer
import SchemaCatalog.Proofs.Assembly.Declarations
import SchemaCatalog.Proofs.Json.Reader

/-!
# Reading back the canonical text of a catalog
-/

namespace SchemaCatalog

open Json Json.Reader

/-- A byte that may be absent is written as a number or as null. -/
theorem reads_optionalByte : ∀ b : Option UInt8, Reads byte.optional 0 (optionalByte b) b
  | none => reads_null
  | some b => reads_some (reads_byte b) nofun

/-- A word that may be absent is written as a number or as null. -/
theorem reads_optionalWord : ∀ w : Option UInt32, Reads word.optional 0 (optionalWord w) w
  | none => reads_null
  | some w => reads_some (reads_word w) nofun

theorem NameStyle.reads_toJson (s : NameStyle) : Reads reader 0 s.toJson s :=
  reads_unitAlternative (by cases s <;> rfl)

/-- A qualified name is read from its three members, of which the namespace may be null. -/
theorem QualifiedName.reads_toJson (q : QualifiedName) : Reads reader 1 q.toJson q := by
  refine reads_record rfl (by decide) fun n hn => ?_
  rw [Members.optional_eq rfl (reads_optional q.namespaceName) hn,
    Members.required_eq rfl (reads_text q.name) hn,
    Members.required_eq rfl q.style.reads_toJson hn]
  rfl

/-! ### Data types -/

/-- The entries of a map make the map. -/
theorem OrderedMap.ofList_entries {α : Type} (m : OrderedMap α) : ofList m.entries = m := by
  obtain ⟨es, hnodup⟩ := m
  have hentries : (ofList es).entries = es := entries_ofList hnodup
  cases hm : ofList es
  simp_all

namespace DataType

/-- The number of arrays that a data type nests. -/
def nesting : DataType → Nat
  | array element => element.nesting + 1
  | _ => 0

variable {name : String} {j : Json} {levels : Nat} {d : DataType} {element : Reader DataType}

/-- A data type without parameters is read from its name alone. -/
theorem reads_plain (h : plain? name = some d) : Reads reader levels (.str name) d := by
  intro n _
  cases n with
  | zero => exact h
  | succ n =>
    have hunit : Reader.unitAlternative plain? (n + 1) (written (.str name)) = some d := h
    simp only [reader, hunit]

/-- A data type with parameters is read from an object with one member, whose name selects the
reader of the parameters. -/
theorem reads_parameters (hplain : plain? name = none)
    (h : ∀ n, levels ≤ n → parameterReader (fun _ => reader n) name n j.written = some d) :
    Reads reader (levels + 1) (.obj [(name, j)]) d := by
  intro n hn
  obtain ⟨n, rfl⟩ : ∃ m, n = m + 1 := ⟨n - 1, by omega⟩
  have hunit : Reader.unitAlternative plain? (n + 1) (written (.obj [(name, j)])) = none := by
    rw [written, writtenMembers, writtenMembers]
    unfold Reader.unitAlternative
    split <;> simp_all
  simp only [reader, hunit]
  exact h n (by omega)

/-- A limit is the only parameter of types of characters and of binary data. -/
theorem reads_limit {f : Option UInt32 → DataType} (limit : Option UInt32) :
    Reads (limitReader name f) 1 (.obj [(name, optionalWord limit)]) (f limit) := by
  refine reads_record rfl (List.nodup_singleton name) fun n hn => ?_
  rw [Members.optional_eq (by simp) (reads_optionalWord limit) hn]
  rfl

/-- A precision and a time zone are the parameters of times and of timestamps. -/
theorem reads_temporal {f : Option UInt8 → Bool → DataType} (precision : Option UInt8)
    (zone : Bool) :
    Reads (temporalReader f) 1
      (.obj [("precision", optionalByte precision), ("with_time_zone", .bool zone)])
      (f precision zone) := by
  refine reads_record rfl (by decide) fun n hn => ?_
  rw [Members.optional_eq rfl (reads_optionalByte precision) hn,
    Members.required_eq rfl (reads_bool zone) hn]
  rfl

theorem reads_width (width : UInt8) :
    Reads (parameterReader element "integer") 1 (.obj [("width", .int width.toNat)])
      (integer width) := by
  unfold parameterReader
  refine reads_record rfl (by decide) fun n hn => ?_
  rw [Members.required_eq rfl (reads_byte width) n.zero_le]
  rfl

theorem reads_precision (precision : Option UInt8) :
    Reads (parameterReader element "float") 1 (.obj [("precision", optionalByte precision)])
      (float precision) := by
  unfold parameterReader
  refine reads_record rfl (by decide) fun n hn => ?_
  rw [Members.optional_eq rfl (reads_optionalByte precision) n.zero_le]
  rfl

theorem reads_decimal (precision scale : Option UInt8) :
    Reads (parameterReader element "decimal") 1
      (.obj [("precision", optionalByte precision), ("scale", optionalByte scale)])
      (decimal precision scale) := by
  unfold parameterReader
  refine reads_record rfl (by decide) fun n hn => ?_
  rw [Members.optional_eq rfl (reads_optionalByte precision) hn,
    Members.optional_eq rfl (reads_optionalByte scale) hn]
  rfl

/-- The labels of an inlined enumeration are read in order, repeated ones included. -/
theorem reads_values (values : List String) :
    Reads (parameterReader element "enum") 2 (.obj [("values", .arr (values.map .str))])
      (enumeration values) := by
  unfold parameterReader
  refine reads_record rfl (by decide) fun n hn => ?_
  rw [Members.required_eq rfl (reads_texts values) hn]
  rfl

/-- **A data type is read back** from its document at the depth to which it nests arrays. -/
theorem reads_toJson (d : DataType) : Reads reader (d.nesting + 3) d.toJson d := by
  induction d with
  | boolean => exact reads_plain rfl
  | real => exact reads_plain rfl
  | double => exact reads_plain rfl
  | date => exact reads_plain rfl
  | interval => exact reads_plain rfl
  | uuid => exact reads_plain rfl
  | json => exact reads_plain rfl
  | integer width => exact reads_parameters rfl fun n hn => reads_width width n (by omega)
  | float precision => exact reads_parameters rfl fun n hn => reads_precision precision n (by omega)
  | decimal precision scale =>
    exact reads_parameters rfl fun n hn => reads_decimal precision scale n (by omega)
  | fixedBinary storage => exact reads_parameters rfl ((reads_limit storage).mono (by omega))
  | variableBinary storage => exact reads_parameters rfl ((reads_limit storage).mono (by omega))
  | fixedCharacter limit => exact reads_parameters rfl ((reads_limit limit).mono (by omega))
  | variableCharacter limit => exact reads_parameters rfl ((reads_limit limit).mono (by omega))
  | time precision zone =>
    exact reads_parameters rfl ((reads_temporal precision zone).mono (by omega))
  | timestamp precision zone =>
    exact reads_parameters rfl ((reads_temporal precision zone).mono (by omega))
  | array element ih =>
    exact reads_parameters rfl fun n hn => congrArg (Option.map array) (ih n hn)
  | enumeration values =>
    exact reads_parameters rfl fun n hn => reads_values values n (by omega)
  | userDefined name =>
    refine reads_parameters rfl fun n hn => ?_
    exact congrArg (Option.map userDefined) (name.reads_toJson.mono (Nat.le_succ 1) n hn)

end DataType

/-! ### Columns and constraints -/

/-- A column is read back one level above its data type. -/
theorem Column.reads_toJson (c : Column) :
    Reads reader (c.dataType.nesting + 4) c.toJson c := by
  refine reads_record rfl (by decide) fun n hn => ?_
  rw [Members.required_eq rfl (reads_text c.name) n.zero_le,
    Members.required_eq rfl c.dataType.reads_toJson hn,
    Members.required_eq rfl (reads_bool c.nullable) n.zero_le,
    Members.optional_eq rfl (reads_optional c.default) n.zero_le,
    Members.required_eq rfl (reads_bool c.identity) n.zero_le,
    Members.optional_eq rfl (reads_optional c.description) n.zero_le]
  rfl

theorem KeyReference.reads_toJson (r : KeyReference) : Reads reader 2 r.toJson r := by
  refine reads_record rfl (by decide) fun n hn => ?_
  rw [Members.required_eq rfl r.table.reads_toJson hn,
    Members.required_eq rfl (reads_texts r.columns) hn]
  rfl

/-- A constraint is read back by its tag, which selects the members that are read. -/
theorem Constraint.reads_toJson (c : Constraint) : Reads reader 5 c.toJson c := by
  cases c with
  | unique name columns =>
    refine reads_alternative (reads_record rfl (by decide) fun n hn => ?_)
    rw [Members.required_eq rfl (reads_text name) n.zero_le,
      Members.required_eq rfl (reads_texts columns) (by omega)]
    rfl
  | check name predicate =>
    refine reads_alternative (reads_record rfl (by decide) fun n hn => ?_)
    rw [Members.required_eq rfl (reads_text name) n.zero_le,
      Members.required_eq rfl (reads_text predicate) n.zero_le]
    rfl
  | foreignKey name columns reference =>
    refine reads_alternative (reads_record rfl (by decide) fun n hn => ?_)
    rw [Members.required_eq rfl (reads_text name) n.zero_le,
      Members.required_eq rfl (reads_texts columns) (by omega),
      Members.required_eq rfl reference.reads_toJson (by omega)]
    rfl
  | discriminated name columns references =>
    refine reads_alternative (reads_record rfl (by decide) fun n hn => ?_)
    rw [Members.required_eq rfl (reads_text name) n.zero_le,
      Members.required_eq rfl (reads_texts columns) (by omega),
      Members.required_eq rfl (reads_list fun r _ => r.reads_toJson) hn]
    rfl

/-! ### Tables, types and namespaces -/

variable {bound : Nat}

/-- A table is read back above all data types of its columns. Its columns are read in order, and as
no two of them have the same key, none of them is lost. -/
theorem Table.reads_toJson {t : Table} (h : ∀ d ∈ t.dataTypes, d.nesting < bound) :
    Reads reader (bound + 7) t.toJson t := by
  have hcolumns : ∀ e ∈ t.columns.entries, Reads Column.reader (bound + 3) e.2.toJson e.2 := by
    intro e he
    have hnesting : e.2.dataType.nesting < bound :=
      h _ (List.mem_map_of_mem (List.mem_map_of_mem he))
    exact e.2.reads_toJson.mono (by omega)
  refine reads_record rfl (by decide) fun n hn => ?_
  rw [Members.required_eq rfl t.name.reads_toJson (by omega),
    Members.required_eq rfl (reads_entries hcolumns) (by omega),
    Members.required_eq rfl (reads_texts t.primaryKey) (by omega),
    Members.required_eq rfl (reads_list fun c _ => c.reads_toJson) (by omega),
    Members.optional_eq rfl (reads_optional t.description) n.zero_le]
  have hentries : OrderedMap.ofList t.columns.entries = t.columns := t.columns.ofList_entries
  simp [hentries]

theorem CompositeMember.reads_toJson (m : CompositeMember) :
    Reads reader (m.dataType.nesting + 4) m.toJson m := by
  refine reads_record rfl (by decide) fun n hn => ?_
  rw [Members.required_eq rfl (reads_text m.name) n.zero_le,
    Members.required_eq rfl m.dataType.reads_toJson hn,
    Members.optional_eq rfl (reads_optional m.description) n.zero_le]
  rfl

/-- A composite type is read back above all data types of its members. -/
theorem CompositeType.reads_toJson {t : CompositeType} (h : ∀ d ∈ t.dataTypes, d.nesting < bound) :
    Reads reader (bound + 5) t.toJson t := by
  have hmembers : ∀ m ∈ t.members, Reads CompositeMember.reader (bound + 3) m.toJson m := by
    intro m hm
    have hnesting : m.dataType.nesting < bound := h _ (List.mem_map_of_mem hm)
    exact m.reads_toJson.mono (by omega)
  refine reads_record rfl (by decide) fun n hn => ?_
  rw [Members.required_eq rfl t.name.reads_toJson (by omega),
    Members.required_eq rfl (reads_list hmembers) hn,
    Members.optional_eq rfl (reads_optional t.description) n.zero_le]
  rfl

theorem EnumerationType.reads_toJson (t : EnumerationType) : Reads reader 2 t.toJson t := by
  refine reads_record rfl (by decide) fun n hn => ?_
  rw [Members.required_eq rfl t.name.reads_toJson hn,
    Members.required_eq rfl (reads_texts t.values) hn]
  rfl

/-- A namespace is read back when its objects are, each list of them in order. -/
theorem Namespace.reads_toJson {ns : Namespace}
    (hstructs : ∀ s ∈ ns.structs, ∀ d ∈ s.dataTypes, d.nesting < bound)
    (htables : ∀ t ∈ ns.tables, ∀ d ∈ t.dataTypes, d.nesting < bound) :
    Reads reader (bound + 9) ns.toJson ns := by
  refine reads_record rfl (by decide) fun n hn => ?_
  rw [Members.required_eq rfl (reads_text ns.name) n.zero_le,
    Members.required_eq rfl (reads_list fun e _ => e.reads_toJson) (by omega),
    Members.required_eq rfl (reads_list fun s hs => CompositeType.reads_toJson (hstructs s hs))
      (by omega),
    Members.required_eq rfl (reads_list fun t ht => Table.reads_toJson (htables t ht)) hn]
  rfl

/-! ### No document has a floating point number -/

/-- A list of documents is exact when all of them are. -/
theorem allExact_map {α : Type} {f : α → Json} {as : List α}
    (h : ∀ a ∈ as, (f a).isExact = true) : allExact (as.map f) = true := by
  simpa [allExact_iff] using h

@[simp]
theorem allExact_texts (ss : List String) : allExact (ss.map .str) = true :=
  allExact_map fun _ _ => rfl

@[simp]
theorem isExact_optional : ∀ s : Option String, (Json.optional s).isExact = true
  | none => rfl
  | some _ => rfl

@[simp]
theorem isExact_optionalByte : ∀ b : Option UInt8, (optionalByte b).isExact = true
  | none => rfl
  | some _ => rfl

@[simp]
theorem isExact_optionalWord : ∀ w : Option UInt32, (optionalWord w).isExact = true
  | none => rfl
  | some _ => rfl

@[simp]
theorem QualifiedName.isExact_toJson (q : QualifiedName) : q.toJson.isExact = true := by
  simp [toJson, NameStyle.toJson, isExact, allExactMembers]

/-- What is written for a data type holds no floating point number. -/
@[simp]
theorem DataType.isExact_toJson (d : DataType) : d.toJson.isExact = true := by
  induction d with
  | array element ih => simpa [toJson, isExact, allExactMembers] using ih
  | _ => simp [toJson, isExact, allExactMembers]

@[simp]
theorem Column.isExact_toJson (c : Column) : c.toJson.isExact = true := by
  simp [toJson, isExact, allExactMembers]

@[simp]
theorem KeyReference.isExact_toJson (r : KeyReference) : r.toJson.isExact = true := by
  simp [toJson, isExact, allExactMembers]

@[simp]
theorem Constraint.isExact_toJson (c : Constraint) : c.toJson.isExact = true := by
  cases c with
  | discriminated name columns references =>
    have hreferences : allExact (references.map (·.toJson)) = true :=
      allExact_map fun r _ => r.isExact_toJson
    simp [toJson, isExact, allExactMembers, hreferences]
  | _ => simp [toJson, isExact, allExactMembers]

@[simp]
theorem Table.isExact_toJson (t : Table) : t.toJson.isExact = true := by
  have hcolumns : allExactMembers (t.columns.entries.map fun e => (e.1, e.2.toJson)) = true := by
    rw [allExactMembers_iff, List.forall_mem_map]
    exact fun e _ => e.2.isExact_toJson
  have hconstraints : allExact (t.constraints.map (·.toJson)) = true :=
    allExact_map fun c _ => c.isExact_toJson
  simp [toJson, isExact, allExactMembers, hcolumns, hconstraints]

@[simp]
theorem CompositeType.isExact_toJson (t : CompositeType) : t.toJson.isExact = true := by
  have hmembers : allExact (t.members.map (·.toJson)) = true :=
    allExact_map fun m _ => by simp [CompositeMember.toJson, isExact, allExactMembers]
  simp [toJson, isExact, allExactMembers, hmembers]

@[simp]
theorem EnumerationType.isExact_toJson (t : EnumerationType) : t.toJson.isExact = true := by
  simp [toJson, isExact, allExactMembers]

@[simp]
theorem Namespace.isExact_toJson (ns : Namespace) : ns.toJson.isExact = true := by
  have henums : allExact (ns.enums.map (·.toJson)) = true :=
    allExact_map fun e _ => e.isExact_toJson
  have hstructs : allExact (ns.structs.map (·.toJson)) = true :=
    allExact_map fun s _ => s.isExact_toJson
  have htables : allExact (ns.tables.map (·.toJson)) = true :=
    allExact_map fun t _ => t.isExact_toJson
  simp [toJson, isExact, allExactMembers, henums, hstructs, htables]

/-- What is written for a catalog holds no floating point number, so that its text is read as it is
written. -/
theorem Catalog.isExact_toJson (k : Catalog) : k.toJson.isExact = true := by
  have hspaces : allExact (k.namespaces.map (·.toJson)) = true :=
    allExact_map fun ns _ => ns.isExact_toJson
  simp [toJson, isExact, allExactMembers, hspaces]

/-! ### Catalogs -/

namespace Catalog

/-- Every data type of a catalog nests fewer arrays than a number. -/
def NestsBelow (bound : Nat) (k : Catalog) : Prop := ∀ d ∈ k.dataTypes, d.nesting < bound

instance (bound : Nat) (k : Catalog) : Decidable (k.NestsBelow bound) :=
  inferInstanceAs (Decidable (∀ d ∈ k.dataTypes, d.nesting < bound))

/-- **A catalog is read back** from its document within a bound on the depth of its data types. -/
theorem reads_toJson {k : Catalog} (h : k.NestsBelow bound) :
    Reads reader (bound + 11) k.toJson k := by
  have hspaces : ∀ ns ∈ k.namespaces, Reads Namespace.reader (bound + 9) ns.toJson ns := by
    intro ns hns
    refine Namespace.reads_toJson (fun s hs d hd => h d ?_) (fun t ht d hd => h d ?_)
    · exact List.mem_append_right _
        (List.mem_flatMap_of_mem (List.mem_flatMap_of_mem hns hs) hd)
    · exact List.mem_append_left _
        (List.mem_flatMap_of_mem (List.mem_flatMap_of_mem hns ht) hd)
  refine reads_record rfl (by decide) fun n hn => ?_
  rw [Members.required_eq rfl (reads_list hspaces) hn]
  rfl

/-- A catalog is read back from its canonical text. -/
theorem parse?_of_nestsBelow {k : Catalog} (h : k.NestsBelow 100) :
    parse? k.render = some k := by
  have hread : reader Raw.nestingLimit k.toJson.written = some k := reads_toJson h _ (by decide)
  rw [parse?, read?, render, Raw.parse?_print k.isExact_toJson, Option.bind_some, hread]

/-- **Round trip**: a catalog whose data types nest fewer than 100 arrays is read back from its
canonical text as it is. So two such catalogs with one text are equal, and the canonical text of
a catalog that was read from any text is read as that catalog. -/
theorem parse?_render :
    (∀ k : Catalog, k.NestsBelow 100 → parse? k.render = some k) ∧
      (∀ k l : Catalog, k.NestsBelow 100 → l.NestsBelow 100 → k.render = l.render → k = l) ∧
      ∀ (text : String) (k : Catalog), parse? text = some k → k.NestsBelow 100 →
        parse? k.render = some k := by
  refine ⟨fun k h => parse?_of_nestsBelow h, fun k l hk hl htext => ?_,
    fun _ k _ h => parse?_of_nestsBelow h⟩
  have hread : parse? l.render = some k := htext ▸ parse?_of_nestsBelow hk
  exact Option.some.inj (hread.symm.trans (parse?_of_nestsBelow hl))

/-- A catalog with text of every kind of escape and with data types in one another. -/
def awkward : Catalog :=
  ⟨[⟨"a \"b\" \\ \n \x01 é 𝄞",
    [⟨⟨some "", "", .prefixed⟩, ["", "\x7f", "\x08\x0c\r\t"]⟩],
    [⟨.global "s", [⟨"m", .array (.array (.decimal (some 255) none)), some "/"⟩], none⟩],
    [⟨⟨some "n", "t", .qualified⟩,
      OrderedMap.ofList [("z", .plain "z" (.enumeration ["\u2028"]) true),
        ("a", .plain "other" (.userDefined (.global "s")) false)],
      ["z"], [.discriminated "dk" ["z"] [⟨.global "t", ["a", "a"]⟩, ⟨.global "u", []⟩]],
      some ""⟩]⟩]⟩

theorem awkward_nestsBelow : awkward.NestsBelow 100 := by decide

/-- A catalog with an empty namespace only. -/
def quiet : Catalog := ⟨[⟨"é", [], [], []⟩]⟩

/-- A text of the quiet catalog with blanks, an escape that is not needed, another order of members
and one member more. -/
def quietText : String :=
  "\x7b \"remark\": [1, 2.5e0],\n \"namespaces\": [\x7b \"tables\": [], \"structs\": [], " ++
    "\"enums\": [], \"name\": \"\\u00e9\" \x7d] \x7d"

theorem parse?_quietText : parse? quietText = some quiet := by decide +kernel

/-- The catalog with awkward texts is the only one with its text. The quiet catalog is read from a
text that is not its canonical one, and then from its canonical text. -/
theorem parse?_render_awkward :
    awkward.NestsBelow 100 ∧ parse? awkward.render = some awkward ∧
      (∀ k : Catalog, k.NestsBelow 100 → k.render = awkward.render → k = awkward) ∧
      quiet.NestsBelow 100 ∧ quietText ≠ quiet.render ∧ parse? quietText = some quiet ∧
      parse? quiet.render = some quiet := by
  have hquiet : quiet.NestsBelow 100 := by decide
  have hother : quietText ≠ quiet.render := by decide +kernel
  exact ⟨awkward_nestsBelow, parse?_render.1 _ awkward_nestsBelow,
    fun _ h htext => parse?_render.2.1 _ _ h awkward_nestsBelow htext, hquiet, hother,
    parse?_quietText, parse?_render.2.2 _ _ parse?_quietText hquiet⟩

end Catalog

end SchemaCatalog
