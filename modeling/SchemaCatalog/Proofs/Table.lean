import Mathlib.Data.List.Nodup
import SchemaCatalog.Options.Factory

/-!
# Forming tables

`Table.form_eq_ok_iff` says exactly when a table is formed and what it is then, and
`Table.FormedFrom` keeps of it what does not depend on documentation; columns are then found
by their names (`FormedFrom.column?_eq`). An `ObjectFactory` is `Faithful` when the tables it
makes are formed from the parts it is given and its columns keep their name and data type:
what it documents is its own affair.
-/

namespace SchemaCatalog

namespace OrderedMap

variable {α : Type*}

/-- Where no two entries have the same key, each entry is found under its key. -/
theorem lookup_eq_some_of_mem {k : String} {a : α} :
    ∀ {es : List (String × α)}, (es.map Prod.fst).Nodup → (k, a) ∈ es → es.lookup k = some a
  | (j, b) :: es, hn, hm => by
    rw [List.map_cons, List.nodup_cons] at hn
    rcases List.mem_cons.mp hm with h | h
    · cases h
      simp
    · have hmem : k ∈ es.map Prod.fst := List.mem_map_of_mem (f := Prod.fst) h
      have hj : k ≠ j := fun hkj => hn.1 (hkj ▸ hmem)
      rw [List.lookup_cons, beq_eq_false_iff_ne.mpr hj]
      exact lookup_eq_some_of_mem hn.2 h

theorem mem_keys_of_get? {m : OrderedMap α} {k : String} {a : α} (h : m.get? k = some a) :
    k ∈ m.keys := by
  obtain ⟨before, after, hentries, -⟩ := List.lookup_eq_some_iff.mp h
  rw [keys, hentries]
  simp

end OrderedMap

namespace Table

variable {name : QualifiedName} {columns : List Column} {key : List String}
  {constraints : List Constraint} {description : Option String} {t : Table}

/-- Columns of different names stay in order when they are put under their names. -/
theorem entries_columnsByName (h : (columns.map Column.name).Nodup) :
    (columnsByName columns).entries = columns.map fun c => (c.name, c) :=
  OrderedMap.entries_ofList (by simpa [Function.comp_def] using h)

theorem keys_columnsByName (h : (columns.map Column.name).Nodup) :
    (columnsByName columns).keys = columns.map Column.name := by
  rw [OrderedMap.keys, entries_columnsByName h, List.map_map]
  rfl

theorem values_columnsByName (h : (columns.map Column.name).Nodup) :
    (columnsByName columns).values = columns := by
  rw [OrderedMap.values, entries_columnsByName h, List.map_map]
  exact List.map_id _

/-- A column is found under its name. -/
theorem get?_columnsByName (h : (columns.map Column.name).Nodup) {c : Column} (hc : c ∈ columns) :
    (columnsByName columns).get? c.name = some c := by
  rw [OrderedMap.get?, entries_columnsByName h]
  refine OrderedMap.lookup_eq_some_of_mem ?_ (List.mem_map_of_mem (f := fun c => (c.name, c)) hc)
  simpa [Function.comp_def] using h

/-- **When a table is formed**: its column names differ, its key is a nonempty list of columns,
and its constraint names differ. -/
theorem form_eq_ok_iff :
    form name columns key constraints description = .ok t ↔
      (columns.map Column.name).Nodup ∧ key ≠ [] ∧ (∀ k ∈ key, k ∈ columns.map Column.name) ∧
        (constraints.map Constraint.name).Nodup ∧
        t = ⟨name, columnsByName columns, key, constraints, description⟩ := by
  have hcolumns : firstRepeated? (columns.map Column.name) = none ↔ _ :=
    firstRepeated?_eq_none_iff
  have hconstraints : firstRepeated? (constraints.map Constraint.name) = none ↔ _ :=
    firstRepeated?_eq_none_iff
  have hkey : (key.find? fun k => !(columns.map Column.name).contains k) = none ↔
      ∀ k ∈ key, k ∈ columns.map Column.name := by
    rw [List.find?_eq_none]
    simp
  rw [← hcolumns, ← hkey, ← hconstraints, form]
  -- one case for each check, in the order in which they are made
  cases firstRepeated? (columns.map Column.name) with
  | some c => simp
  | none =>
    by_cases hempty : key = []
    · simp [hempty]
    cases key.find? fun k => !(columns.map Column.name).contains k with
    | some k => simp [hempty]
    | none =>
      cases firstRepeated? (constraints.map Constraint.name) with
      | some c => simp [hempty]
      | none => simp [hempty, eq_comm (b := t)]

/-- A column that is declared twice is refused first of all. -/
theorem form_of_firstRepeated? {repeated : String}
    (h : firstRepeated? (columns.map Column.name) = some repeated) :
    form name columns key constraints description =
      .error (.duplicateColumn name.compact repeated) := by
  rw [form, h]

/-- With columns and constraints of different names, a table is formed exactly when its key is a
column. -/
theorem form_singleton {k : String} (hcolumns : (columns.map Column.name).Nodup)
    (hconstraints : (constraints.map Constraint.name).Nodup) :
    form name columns [k] constraints description =
      if k ∈ columns.map Column.name then
        .ok ⟨name, columnsByName columns, [k], constraints, description⟩
      else .error (.missingPrimaryKeyColumn name.compact k) := by
  split
  · rename_i hk
    exact form_eq_ok_iff.mpr ⟨hcolumns, by simp, by simpa using hk, hconstraints, rfl⟩
  · rename_i hk
    rw [form, firstRepeated?_eq_none_iff.mpr hcolumns]
    simp only [List.find?_cons, List.contains_eq_mem, hk]
    rfl

/-- A table has been **formed from** the given parts. -/
structure FormedFrom (t : Table) (name : QualifiedName) (columns : List Column)
    (key : List String) (constraints : List Constraint) : Prop where
  /-- The name is the given one. -/
  name_eq : t.name = name
  /-- The columns are the given ones, in order. -/
  columns_eq : t.columns = columnsByName columns
  /-- The key is the given one. -/
  primaryKey_eq : t.primaryKey = key
  /-- The constraints are the given ones, in order. -/
  constraints_eq : t.constraints = constraints
  /-- No column is declared twice. -/
  nodup_columns : (columns.map Column.name).Nodup
  /-- The key names columns. -/
  key_mem : ∀ k ∈ key, k ∈ columns.map Column.name

namespace FormedFrom

theorem keys_columns (h : t.FormedFrom name columns key constraints) :
    t.columns.keys = columns.map Column.name := by
  rw [h.columns_eq, keys_columnsByName h.nodup_columns]

theorem values_columns (h : t.FormedFrom name columns key constraints) :
    t.columns.values = columns := by
  rw [h.columns_eq, values_columnsByName h.nodup_columns]

/-- A column that a table is formed from is found in it. -/
theorem column?_eq (h : t.FormedFrom name columns key constraints) {c : Column}
    (hc : c ∈ columns) : t.column? c.name = some c := by
  rw [column?, h.columns_eq, get?_columnsByName h.nodup_columns hc]

end FormedFrom

end Table

/-! ### Factories -/

namespace ObjectFactory

/-- A factory is **faithful** when it changes documentation only: its columns keep their name
and data type, and its tables are formed from the parts it is given. -/
structure Faithful (f : ObjectFactory) : Prop where
  /-- A column has the name it is given. -/
  column_name (p : ColumnParts) : (f.column p).name = p.name
  /-- A column has the data type it is given. -/
  column_dataType (p : ColumnParts) : (f.column p).dataType = p.dataType
  /-- A table is formed from the given parts, with documentation of the factory's own. -/
  table {name : QualifiedName} {columns : List Column} {key : List String}
    {constraints : List Constraint} {description : Option String} {t : Table} :
    f.table name columns key constraints description = .ok t →
      ∃ description', Table.form name columns key constraints description' = .ok t

/-- A table that a faithful factory makes is formed from what the factory is given. -/
theorem Faithful.formedFrom {f : ObjectFactory} (hf : f.Faithful) {name : QualifiedName}
    {columns : List Column} {key : List String} {constraints : List Constraint}
    {description : Option String} {t : Table}
    (h : f.table name columns key constraints description = .ok t) :
    t.FormedFrom name columns key constraints := by
  obtain ⟨description', h⟩ := hf.table h
  obtain ⟨hcolumns, -, hkey, -, rfl⟩ := Table.form_eq_ok_iff.mp h
  exact ⟨rfl, rfl, rfl, rfl, hcolumns, hkey⟩

/-- A column that a factory has made is found under its name, with its data type. -/
theorem Faithful.exists_column? {f : ObjectFactory} (hf : f.Faithful) {name : QualifiedName}
    {columns : List Column} {key : List String} {constraints : List Constraint} {t : Table}
    (ht : t.FormedFrom name columns key constraints) {p : ColumnParts}
    (hp : f.column p ∈ columns) :
    ∃ col, t.column? p.name = some col ∧ col.dataType = p.dataType := by
  have hcol := ht.column?_eq hp
  rw [hf.column_name] at hcol
  exact ⟨_, hcol, hf.column_dataType p⟩

theorem column_plain (p : ColumnParts) :
    p.column.name = p.name ∧ p.column.dataType = p.dataType := by
  obtain ⟨name, dataType, nullable, default, identity, description⟩ := p
  cases default <;> cases identity <;> cases description <;> exact ⟨rfl, rfl⟩

/-- The value of a column may be left out where nulls are accepted or the database generates it,
and this is what was asked for. -/
theorem acceptsNull_plain (p : ColumnParts) :
    (p.column.nullable || p.column.identity) = (p.nullable || p.identity) := by
  obtain ⟨name, dataType, nullable, default, identity, description⟩ := p
  cases default <;> cases identity <;> cases description <;> cases nullable <;> rfl

theorem faithful_plain : plain.Faithful where
  column_name p := (column_plain p).1
  column_dataType p := (column_plain p).2
  table h := ⟨_, h⟩

theorem faithful_described : described.Faithful where
  column_name _ := faithful_plain.column_name _
  column_dataType _ := faithful_plain.column_dataType _
  table h := ⟨_, h⟩

end ObjectFactory

end SchemaCatalog
