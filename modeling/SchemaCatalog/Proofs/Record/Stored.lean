import SchemaCatalog.Proofs.Record.Row

/-!
# What rows hold

Columns of octets are to hold octets, columns of documents and characters no documents, and columns
of integers no truth values. The encoding of a column is chosen from the type of its field alone,
and so it is not always that of the value: the column of a field may get its data type from the key
of another entity, from the values of a literal or of an enumeration, or from the members of a
union. The laws below say of every cell what it holds (`holdsOctets_of_canDraw`,
`holdsText_of_canDraw`, `holdsIntegers_of_canDraw`), and a pet of the shelter shows that rows need
not be as they should.
-/

namespace SchemaCatalog

namespace Value

/-- Whether a value is a byte string or absent. -/
def isOctets : Value → Bool
  | null | bytes _ => true
  | _ => false

/-- Whether a value is a truth value. -/
def isBool : Value → Bool
  | bool _ => true
  | _ => false

end Value

namespace Table

/-- A record **has a row** in a table of its entity, and what the row holds for a column, what the
record holds for the field and the type of the field are as the property says. -/
def HasRow (t : Table) (e : Entity) (record : Record)
    (P : Column → NativeType → Value → Value → Prop) : Prop :=
  ∃ x row, Extractor.create t e = .ok x ∧ x.extract record = .ok row ∧
    List.Forall₂ (fun col v => ∃ f w, e.field? col.name = some f ∧
      record.get? col.name = some w ∧ P col f.type w v) t.columns.values row

/-- Whether the columns of some data types hold allowed values only. -/
def holdsOnly (t : Table) (row : List Value) (columns : DataType → Bool)
    (allowed : Value → Bool) : Bool :=
  (t.columns.values.zip row).all fun (col, v) => !columns col.dataType || allowed v

end Table

namespace Shelter

/-- Whether the row of the drawn pet has allowed values only in the columns of some data types. -/
def holdsOnly? (δ : Dialect) (columns : DataType → Bool) (allowed : Value → Bool) :
    Option Bool := do
  let t ← ((converter δ).table pet).toOption
  let x ← (Extractor.create t pet).toOption
  let row ← (x.extract drawn).toOption
  return t.holdsOnly row columns allowed

theorem exists_table (δ : Dialect) : ∃ t, (converter δ).table pet = .ok t := by
  have hname : ((converter δ).table pet).toOption.map (fun t => t.name.localName) = some "Pet" := by
    cases δ <;> decide +kernel
  obtain ⟨t, ht, -⟩ := exists_eq_ok_of_toOption hname
  exact ⟨t, ht⟩

theorem exists_row_of_holdsOnly? {δ : Dialect} {columns : DataType → Bool}
    {allowed : Value → Bool} {b : Bool} (h : holdsOnly? δ columns allowed = some b) :
    ∃ t x row, (converter δ).table pet = .ok t ∧ Extractor.create t pet = .ok x ∧
      x.extract drawn = .ok row ∧ t.holdsOnly row columns allowed = b := by
  obtain ⟨t, ht, h⟩ := Option.bind_eq_some_iff.mp h
  obtain ⟨x, hx, h⟩ := Option.bind_eq_some_iff.mp h
  obtain ⟨row, hrow, h⟩ := Option.bind_eq_some_iff.mp h
  exact ⟨t, x, row, toOption_eq_some_iff.mp ht, toOption_eq_some_iff.mp hx,
    toOption_eq_some_iff.mp hrow, Option.some.inj h⟩

end Shelter

namespace Converter

variable {δ : Dialect} {r : DialectRequest} {c : Converter} (ho : δ.options r = .ok c.options)
  {e : Entity} (hn : (e.fields.map Field.name).Nodup) {t : Table} (ht : c.table e = .ok t)
  {record : Record} (hrecord : c.registry.CanDraw e record)

include ho hn ht hrecord in
/-- A row is as a property says when its cells are. -/
theorem hasRow_of_cells {P : Column → NativeType → Value → Value → Prop}
    (hP : ∀ {col f w v}, Cell δ e record col f w v → P col f.type w v) : t.HasRow e record P := by
  obtain ⟨x, hcreate, hslots⟩ := exists_create ho hn ht
  obtain ⟨row, hrow, -, hcells⟩ := exists_row ho hn ht hslots hrecord
  refine ⟨x, row, hcreate, hrow, hcells.imp fun col v hcell => ?_⟩
  obtain ⟨f, w, hcell⟩ := hcell
  exact ⟨f, w, hcell.field?_eq, hcell.get?_eq, hP hcell⟩

include ho hn ht hrecord in
/-- **Columns of octets** hold the octets of an identifier or an address if the field has a built-in
type. What comes from the key of an entity or from a member of a union is held as it is. -/
theorem holdsOctets_of_canDraw :
    t.HasRow e record fun col type w v => col.dataType.isBinary = true →
      w = .null ∧ v = .null ∨
        ∃ bs, w.octets? = some bs ∧ v = if type.unadorned.isPrimitive then .bytes bs else w := by
  refine hasRow_of_cells ho hn ht hrecord fun hcell hbinary => ?_
  exact hcell.stored.imp_right fun ⟨hfits, hv⟩ => hfits.encode_of_isBinary hbinary hv

/-- The identifier of the owner of a pet is not a value for a built-in type. -/
theorem holdsOctets_shelter : ∃ t, (Shelter.converter .mysql).table Shelter.pet = .ok t ∧
    t.HasRow Shelter.pet Shelter.drawn fun col type w v => col.dataType.isBinary = true →
      w = .null ∧ v = .null ∨
        ∃ bs, w.octets? = some bs ∧ v = if type.unadorned.isPrimitive then .bytes bs else w := by
  obtain ⟨t, ht⟩ := Shelter.exists_table .mysql
  exact ⟨t, ht, holdsOctets_of_canDraw (Shelter.options_eq .mysql) (by decide) ht
    Shelter.canDraw_drawn⟩

/-- In MySQL, the row of a pet does not hold the octets of its owner. -/
theorem not_holdsOctets_shelter : Dialect.mysql.options {} = .ok (Shelter.options .mysql) ∧
    (Shelter.pet.fields.map Field.name).Nodup ∧
    Shelter.registry.CanDraw Shelter.pet Shelter.drawn ∧
    ∃ t x row, (Shelter.converter .mysql).table Shelter.pet = .ok t ∧
      Extractor.create t Shelter.pet = .ok x ∧ x.extract Shelter.drawn = .ok row ∧
      t.holdsOnly row DataType.isBinary Value.isOctets = false := by
  have hchecked : Shelter.holdsOnly? .mysql DataType.isBinary Value.isOctets = some false := by
    decide +kernel
  exact ⟨rfl, by decide, Shelter.canDraw_drawn, Shelter.exists_row_of_holdsOnly? hchecked⟩

include ho hn ht hrecord in
/-- **Columns of documents and characters** hold documents and lists as JSON text, unless the field
of a column of characters is a forward reference or a union: in Delta Lake, such columns hold
documents as they are. -/
theorem holdsText_of_canDraw :
    t.HasRow e record fun col type w v =>
      col.dataType.isJson = true ∨ col.dataType.isCharacter = true →
        (v.isDocument = true → w.isDocument = true) ∧
          (w.isDocument = true →
            if col.dataType.isCharacter ∧ type.unadorned.isForwardOrUnion then δ = .delta ∧ v = w
            else v = .text w.toJson.print) := by
  refine hasRow_of_cells ho hn ht hrecord fun hcell hcolumn => ?_
  rcases hcell.stored with ⟨rfl, rfl⟩ | ⟨hfits, hv⟩
  · exact ⟨nofun, nofun⟩
  · exact hfits.encode_of_isJson_or_isCharacter hcolumn hv

/-- The place of a pet is a document for a forward reference. -/
theorem holdsText_shelter : ∃ t, (Shelter.converter .delta).table Shelter.pet = .ok t ∧
    t.HasRow Shelter.pet Shelter.drawn fun col type w v =>
      col.dataType.isJson = true ∨ col.dataType.isCharacter = true →
        (v.isDocument = true → w.isDocument = true) ∧
          (w.isDocument = true →
            if col.dataType.isCharacter ∧ type.unadorned.isForwardOrUnion then
              Dialect.delta = .delta ∧ v = w
            else v = .text w.toJson.print) := by
  obtain ⟨t, ht⟩ := Shelter.exists_table .delta
  exact ⟨t, ht, holdsText_of_canDraw (Shelter.options_eq .delta) (by decide) ht
    Shelter.canDraw_drawn⟩

/-- In Delta Lake, the row of a pet holds its place as a document. -/
theorem not_holdsText_shelter : Dialect.delta.options {} = .ok (Shelter.options .delta) ∧
    (Shelter.pet.fields.map Field.name).Nodup ∧
    Shelter.registry.CanDraw Shelter.pet Shelter.drawn ∧
    ∃ t x row, (Shelter.converter .delta).table Shelter.pet = .ok t ∧
      Extractor.create t Shelter.pet = .ok x ∧ x.extract Shelter.drawn = .ok row ∧
      t.holdsOnly row (fun d => d.isJson || d.isCharacter) (fun v => !v.isDocument) = false := by
  have hchecked : Shelter.holdsOnly? .delta (fun d => d.isJson || d.isCharacter)
      (fun v => !v.isDocument) = some false := by decide +kernel
  exact ⟨rfl, by decide, Shelter.canDraw_drawn, Shelter.exists_row_of_holdsOnly? hchecked⟩

include ho hn ht hrecord in
/-- **Columns of integers** hold truth values as zero and one if the field has a built-in type,
which never is that of members of an enumeration. What comes from the key of an entity, from the
values of a literal or of an enumeration, or from a member of a union is held as it is. -/
theorem holdsIntegers_of_canDraw :
    t.HasRow e record fun col type w v => col.dataType.isInteger = true →
      (∀ b, v = .bool b → w.truth? = some b) ∧
        ∀ b, w.truth? = some b →
          if type.unadorned.isPrimitive then w = .bool b ∧ v = .ofBool b else v = .bool b := by
  refine hasRow_of_cells ho hn ht hrecord fun hcell hinteger => ?_
  rcases hcell.stored with ⟨rfl, rfl⟩ | ⟨hfits, hv⟩
  · exact ⟨nofun, nofun⟩
  · exact hfits.encode_of_isInteger hinteger hv

/-- Whether a pet is tame is a value for a literal type. -/
theorem holdsIntegers_shelter : ∃ t, (Shelter.converter .mysql).table Shelter.pet = .ok t ∧
    t.HasRow Shelter.pet Shelter.drawn fun col type w v => col.dataType.isInteger = true →
      (∀ b, v = .bool b → w.truth? = some b) ∧
        ∀ b, w.truth? = some b →
          if type.unadorned.isPrimitive then w = .bool b ∧ v = .ofBool b else v = .bool b := by
  obtain ⟨t, ht⟩ := Shelter.exists_table .mysql
  exact ⟨t, ht, holdsIntegers_of_canDraw (Shelter.options_eq .mysql) (by decide) ht
    Shelter.canDraw_drawn⟩

/-- In MySQL, the row of a pet holds a truth value in a column of integers. -/
theorem not_holdsIntegers_shelter : Dialect.mysql.options {} = .ok (Shelter.options .mysql) ∧
    (Shelter.pet.fields.map Field.name).Nodup ∧
    Shelter.registry.CanDraw Shelter.pet Shelter.drawn ∧
    ∃ t x row, (Shelter.converter .mysql).table Shelter.pet = .ok t ∧
      Extractor.create t Shelter.pet = .ok x ∧ x.extract Shelter.drawn = .ok row ∧
      t.holdsOnly row DataType.isInteger (fun v => !v.isBool) = false := by
  have hchecked :
      Shelter.holdsOnly? .mysql DataType.isInteger (fun v => !v.isBool) = some false := by
    decide +kernel
  exact ⟨rfl, by decide, Shelter.canDraw_drawn, Shelter.exists_row_of_holdsOnly? hchecked⟩

end Converter

end SchemaCatalog
