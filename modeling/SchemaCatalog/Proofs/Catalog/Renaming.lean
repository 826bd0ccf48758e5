import Mathlib.Logic.Function.Basic
import SchemaCatalog.Options.Factory
import SchemaCatalog.Proofs.DataType
import SchemaCatalog.Proofs.Result

/-!
# Other names for catalog objects

`mapNames f` gives each name in a catalog another one: the names of tables and types, those that
data types refer to, and those that foreign keys point at; so it is for each part of a catalog.
Two changes one after the other are a single one (`Catalog.mapNames_mapNames`). A change that
identifies no two names commutes with the search for a common type of data types
(`DataType.follows_common?`), and tables and composite types with changed names are formed when they
are formed without (`Table.follows_form`, `CompositeType.follows_form`).
-/

namespace SchemaCatalog

universe u v

/-! ### Maps in insertion order -/

namespace OrderedMap

variable {α : Type u} {β : Type v}

/-- A map is its entries in order. -/
theorem ext_entries {m n : OrderedMap α} (h : m.entries = n.entries) : m = n := by
  cases m
  cases n
  cases h
  rfl

/-- A map with its values changed, in place. -/
def mapValues (f : α → β) (m : OrderedMap α) : OrderedMap β where
  entries := m.entries.map (Prod.map id f)
  nodup_keys := by simpa [Function.comp_def] using m.nodup_keys

theorem mapValues_mapValues {γ : Type*} (f : α → β) (g : β → γ) (m : OrderedMap α) :
    (m.mapValues f).mapValues g = m.mapValues (g ∘ f) :=
  ext_entries (by simp [mapValues, Prod.map_comp_map])

/-- An entry is set before or after its values are changed. -/
theorem setEntry_map (f : α → β) (k : String) (a : α) :
    ∀ es : List (String × α),
      setEntry k (f a) (es.map (Prod.map id f)) = (setEntry k a es).map (Prod.map id f)
  | [] => rfl
  | e :: es => by
    by_cases hk : e.1 = k
    · simp [setEntry, hk]
    · simp [setEntry, hk, setEntry_map f k a es]

theorem ofList_map (f : α → β) (es : List (String × α)) :
    ofList (es.map (Prod.map id f)) = (ofList es).mapValues f := by
  have hempty : (empty : OrderedMap β) = (empty : OrderedMap α).mapValues f := rfl
  rw [ofList, List.foldl_map, hempty]
  refine List.foldl_hom (mapValues f) fun m e => ?_
  exact ext_entries (setEntry_map f e.1 e.2 m.entries)

end OrderedMap

/-! ### Changing names -/

section Names

variable (f g : QualifiedName → QualifiedName)

/-- A data type with the names in it changed. -/
def DataType.mapNames : DataType → DataType
  | array element => array element.mapNames
  | userDefined name => userDefined (f name)
  | d => d

/-- A column with the names in it changed. -/
def Column.mapNames (c : Column) : Column := { c with dataType := c.dataType.mapNames f }

/-- The parts of a column with the names in it changed. -/
def ColumnParts.mapNames (p : ColumnParts) : ColumnParts :=
  { p with dataType := p.dataType.mapNames f }

/-- A member with the names in it changed. -/
def CompositeMember.mapNames (m : CompositeMember) : CompositeMember :=
  { m with dataType := m.dataType.mapNames f }

/-- A composite type with its name and those in it changed. -/
def CompositeType.mapNames (t : CompositeType) : CompositeType :=
  { t with name := f t.name, members := t.members.map (CompositeMember.mapNames f) }

/-- An enumeration type with its name changed. -/
def EnumerationType.mapNames (t : EnumerationType) : EnumerationType := { t with name := f t.name }

/-- What a foreign key points at, with its name changed. -/
def KeyReference.mapNames (r : KeyReference) : KeyReference := { r with table := f r.table }

/-- A constraint with the names that it points at changed. -/
def Constraint.mapNames : Constraint → Constraint
  | foreignKey name columns reference => foreignKey name columns (reference.mapNames f)
  | discriminated name columns references =>
    discriminated name columns (references.map (KeyReference.mapNames f))
  | k => k

/-- A table with its name and those in it changed. -/
def Table.mapNames (t : Table) : Table :=
  { t with
    name := f t.name
    columns := t.columns.mapValues (Column.mapNames f)
    constraints := t.constraints.map (Constraint.mapNames f) }

/-- A namespace with the names of and in its objects changed. -/
def Namespace.mapNames (n : Namespace) : Namespace :=
  { n with
    enums := n.enums.map (EnumerationType.mapNames f)
    structs := n.structs.map (CompositeType.mapNames f)
    tables := n.tables.map (Table.mapNames f) }

/-- A catalog with the names of and in its objects changed. -/
def Catalog.mapNames (k : Catalog) : Catalog := ⟨k.namespaces.map (Namespace.mapNames f)⟩

/-! ### Changes one after the other -/

/-- Names are changed one after the other or at once, at any depth of a data type. -/
@[simp]
theorem DataType.mapNames_mapNames (d : DataType) :
    (d.mapNames f).mapNames g = d.mapNames (g ∘ f) := by
  induction d with
  | array element ih => exact congrArg array ih
  | _ => rfl

@[simp]
theorem Column.mapNames_mapNames (c : Column) :
    (c.mapNames f).mapNames g = c.mapNames (g ∘ f) := by
  simp [mapNames]

@[simp]
theorem CompositeMember.mapNames_mapNames (m : CompositeMember) :
    (m.mapNames f).mapNames g = m.mapNames (g ∘ f) := by
  simp [mapNames]

@[simp]
theorem CompositeType.mapNames_mapNames (t : CompositeType) :
    (t.mapNames f).mapNames g = t.mapNames (g ∘ f) := by
  simp [mapNames, Function.comp_def]

@[simp]
theorem EnumerationType.mapNames_mapNames (t : EnumerationType) :
    (t.mapNames f).mapNames g = t.mapNames (g ∘ f) := rfl

@[simp]
theorem KeyReference.mapNames_mapNames (r : KeyReference) :
    (r.mapNames f).mapNames g = r.mapNames (g ∘ f) := rfl

@[simp]
theorem Constraint.mapNames_mapNames (k : Constraint) :
    (k.mapNames f).mapNames g = k.mapNames (g ∘ f) := by
  cases k <;> simp [mapNames, Function.comp_def]

@[simp]
theorem Table.mapNames_mapNames (t : Table) :
    (t.mapNames f).mapNames g = t.mapNames (g ∘ f) := by
  simp [mapNames, OrderedMap.mapValues_mapValues, Function.comp_def]

@[simp]
theorem Namespace.mapNames_mapNames (n : Namespace) :
    (n.mapNames f).mapNames g = n.mapNames (g ∘ f) := by
  simp [mapNames, Function.comp_def]

@[simp]
theorem Catalog.mapNames_mapNames (k : Catalog) :
    (k.mapNames f).mapNames g = k.mapNames (g ∘ f) := by
  simp [mapNames, Function.comp_def]

end Names

/-! ### Data types -/

namespace DataType

variable {f : QualifiedName → QualifiedName} {d : DataType}

/-- Plain data types have no names to change. -/
theorem mapNames_of_isPlain (h : d.isPlain = true) : d.mapNames f = d := by
  cases d <;> first | rfl | cases h

/-- **Joining looks at names only to compare them**, so that names are changed before or after it.
-/
theorem joinDistinct?_mapNames (a b : DataType) :
    joinDistinct? (a.mapNames f) (b.mapNames f) = (joinDistinct? a b).map (mapNames f) := by
  cases a <;> cases b <;> rfl

section Injective

variable (hf : Function.Injective f)
include hf

/-- Data types are changed without loss when names are. -/
theorem injective_mapNames : Function.Injective (mapNames f) := by
  intro a b h
  induction a generalizing b with
  | array element ih =>
    cases b with
    | array element' => exact congrArg array (ih (array.inj h))
    | _ => cases h
  | userDefined name =>
    cases b with
    | userDefined name' => exact congrArg userDefined (hf (userDefined.inj h))
    | _ => cases h
  | _ =>
    cases b <;> first | exact h | cases h

theorem join?_mapNames (a b : DataType) :
    join? (a.mapNames f) (b.mapNames f) = (join? a b).map (mapNames f) := by
  unfold join?
  by_cases hab : a = b
  · rw [if_pos hab, if_pos (congrArg _ hab)]
    rfl
  · rw [if_neg hab, if_neg ((injective_mapNames hf).ne hab), joinDistinct?_mapNames]

/-- **The common type** of data types with other names is theirs with other names. -/
theorem follows_common? (ts : List DataType) :
    Follows (mapNames f) (common? ts) (common? (ts.map (mapNames f))) := by
  cases ts with
  | nil => rfl
  | cons t ts =>
    have hfold : ∀ (ts : List DataType) (t : DataType),
        (ts.map (mapNames f)).foldlM join? (t.mapNames f) =
          (ts.foldlM join? t).map (mapNames f) := by
      intro ts
      induction ts with
      | nil => exact fun _ => rfl
      | cons u ts ih =>
        intro t
        rw [List.map_cons, List.foldlM_cons, List.foldlM_cons, join?_mapNames hf]
        cases join? t u with
        | none => rfl
        | some d => exact ih d
    rw [Follows, List.map_cons, common?, common?, hfold]
    cases ts.foldlM join? t <;> rfl

end Injective

end DataType

/-! ### Tables and composite types -/

section Formed

variable (f : QualifiedName → QualifiedName)

/-- **A composite type** of another name and with other names in it is formed alike. -/
theorem CompositeType.follows_form (name : QualifiedName) (members : List CompositeMember)
    (description : Option String) :
    Follows (mapNames f) (form name members description)
      (form (f name) (members.map (CompositeMember.mapNames f)) description) := by
  have hnames : (members.map (CompositeMember.mapNames f)).map CompositeMember.name =
      members.map CompositeMember.name := by
    rw [List.map_map]
    rfl
  unfold form
  rw [hnames]
  split <;> rfl

/-- **A table** of another name and with other names in it is formed alike. -/
theorem Table.follows_form (name : QualifiedName) (columns : List Column) (key : List String)
    (constraints : List Constraint) (description : Option String) :
    Follows (mapNames f) (form name columns key constraints description)
      (form (f name) (columns.map (Column.mapNames f)) key
        (constraints.map (Constraint.mapNames f)) description) := by
  have hcolumns : (columns.map (Column.mapNames f)).map Column.name = columns.map Column.name := by
    rw [List.map_map]
    rfl
  have hconstraints : (constraints.map (Constraint.mapNames f)).map Constraint.name =
      constraints.map Constraint.name := by
    rw [List.map_map]
    exact List.map_congr_left fun k _ => by cases k <;> rfl
  have hbyName : columnsByName (columns.map (Column.mapNames f)) =
      (columnsByName columns).mapValues (Column.mapNames f) := by
    rw [columnsByName, columnsByName, ← OrderedMap.ofList_map, List.map_map, List.map_map]
    rfl
  unfold form
  rw [hcolumns, hconstraints, hbyName]
  split
  · rfl
  · split
    · rfl
    · split
      · rfl
      · split <;> rfl

end Formed

end SchemaCatalog
