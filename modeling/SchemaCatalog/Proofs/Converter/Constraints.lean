import SchemaCatalog.Proofs.Converter.Table

/-!
# The columns that constraints name

The columns of a table and its constraints are made from the fields of an entity separately. A
constraint that holds keys is made for fields with a column only, but a uniqueness constraint is
made for every unique field, also for a relationship, which has no column.
`constraintsNameColumns_iff` says that this is the only way in which a constraint of a table can
name what is not one of its columns.
-/

namespace SchemaCatalog

/-- The constraints of a table **name columns** of it. -/
def Table.ConstraintsNameColumns (t : Table) : Prop :=
  ∀ k ∈ t.constraints, ∀ name ∈ k.columns, name ∈ t.columns.keys

instance (t : Table) : Decidable t.ConstraintsNameColumns :=
  inferInstanceAs (Decidable (∀ k ∈ t.constraints, ∀ name ∈ k.columns, name ∈ t.columns.keys))

namespace Converter

variable {c : Converter} {e : Entity} {t : Table}

/-- The columns of the table of an entity bear the names of the fields that are not
relationships. -/
theorem mem_keys_columns_iff (hf : c.options.factory.Faithful) (h : c.table e = .ok t)
    {name : String} :
    name ∈ t.columns.keys ↔ ∃ f ∈ e.fields, c.isRelationship f.type = false ∧ f.name = name := by
  obtain ⟨-, columns, hcolumns, hformed, -⟩ := exists_parts_of_table hf h
  rw [hformed.keys_columns, List.mem_map]
  simp only [mem_columns_iff hcolumns]
  constructor
  · rintro ⟨col, ⟨f, hfield, hplain, hcol⟩, rfl⟩
    exact ⟨f, hfield, hplain, (column_eq_ok hf hcol).1.symm⟩
  · rintro ⟨f, hfield, hplain, rfl⟩
    obtain ⟨col, -, hcol⟩ := exists_column_of_mem_fields hcolumns hfield hplain
    exact ⟨col, ⟨f, hfield, hplain, hcol⟩, (column_eq_ok hf hcol).1⟩

/-- **When constraints name columns**: all unique fields, those that are relationships too, have
to bear the name of a field with a column. -/
theorem constraintsNameColumns_iff (hf : c.options.factory.Faithful) (h : c.table e = .ok t) :
    t.ConstraintsNameColumns ↔ ∀ f ∈ e.fields, f.unique = true →
      ∃ g ∈ e.fields, c.isRelationship g.type = false ∧ g.name = f.name := by
  obtain ⟨-, columns, hcolumns, hformed, stem, hunique, hmem⟩ := exists_parts_of_table hf h
  constructor
  · intro hall f hfield hf_unique
    have hk := hunique (mem_uniqueConstraints_iff.mpr ⟨f, hfield, hf_unique, rfl⟩)
    exact (mem_keys_columns_iff hf h).mp (hall _ hk f.name (List.mem_singleton_self _))
  · intro hfields k hk name hname
    rw [mem_keys_columns_iff hf h]
    rcases hmem k hk with hk | hcheck | ⟨f, hfield, hholds⟩
    · obtain ⟨f, hfield, hf_unique, rfl⟩ := mem_uniqueConstraints_iff.mp hk
      rw [Constraint.columns, List.mem_singleton] at hname
      exact hname ▸ hfields f hfield hf_unique
    · cases k with
      | check => cases hname
      | _ => cases hcheck
    -- a constraint that holds keys is that of a field with a column
    · rw [hholds.columns_eq, List.mem_singleton] at hname
      exact ⟨f, hfield, hholds.isColumn, hname.symm⟩

/-! ### A small library -/

namespace Library

/-- Those who write books. -/
def author : Entity where
  name := "Author"
  moduleName := "app"
  primaryKey := "id"
  fields := [{ name := "id", type := .primitive .int64 }]

/-- Books have a number of their own, perhaps a sequel, and authors. -/
def book : Entity where
  name := "Book"
  moduleName := "app"
  primaryKey := "id"
  fields :=
    [{ name := "id", type := .primitive .int64 },
      { name := "isbn", type := .primitive .string, unique := true },
      { name := "sequel", type := .ref "Book", nullable := true },
      { name := "authors", type := .list (.ref "Author") }]

/-- No two shelves have the same books. -/
def shelf : Entity where
  name := "Shelf"
  moduleName := "app"
  primaryKey := "id"
  fields :=
    [{ name := "id", type := .primitive .int64 },
      { name := "books", type := .list (.ref "Book"), unique := true }]

end Library

/-- A library, with default settings. -/
def library : Converter where
  registry :=
    { types := [.entity Library.author, .entity Library.book, .entity Library.shelf]
      nodup_names := by decide }
  options := {}

/-- Both constraints of books name columns: the number is one, and the sequel holds a key. -/
theorem constraintsNameColumns_book :
    ∃ t, library.table Library.book = .ok t ∧ t.constraints.length = 2 ∧
      t.ConstraintsNameColumns := by
  have hlength : (library.table Library.book).toOption.map (fun t => t.constraints.length) =
      some 2 := by
    decide +kernel
  obtain ⟨t, ht, hlength⟩ := exists_eq_ok_of_toOption hlength
  refine ⟨t, ht, hlength, (constraintsNameColumns_iff ObjectFactory.faithful_plain ht).mpr ?_⟩
  decide

/-- The uniqueness of a relationship names no column. -/
theorem not_constraintsNameColumns_shelf :
    ∃ t, library.table Library.shelf = .ok t ∧ ¬ t.ConstraintsNameColumns := by
  have hnames : (library.table Library.shelf).toOption.map
      (fun t => decide t.ConstraintsNameColumns) = some false := by
    decide +kernel
  obtain ⟨t, ht, hnames⟩ := exists_eq_ok_of_toOption hnames
  exact ⟨t, ht, of_decide_eq_false hnames⟩

end Converter

end SchemaCatalog
