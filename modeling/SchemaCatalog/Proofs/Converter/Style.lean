import SchemaCatalog.Converter.Composite
import SchemaCatalog.Converter.Join
import SchemaCatalog.Proofs.Catalog.Renaming
import SchemaCatalog.Proofs.Converter.Member
import SchemaCatalog.Proofs.Converter.Simple

/-!
# Conversions in the other style

The setting for qualified names gives every name one of two styles, and names go into most of what a
conversion makes: into the prefixes of constraints and join tables, into data types, which are
compared with each other, and into what foreign keys point at. `c.restyled` is the converter with
that setting the other way round. Where nothing else in the settings concerns styles
(`Options.StyleFree`), each of its conversions follows the one of `c` along the change of styles: it
succeeds when that one does and gives the same with names in the other style. So it is for the data
type of a field (`follows_mapMember`) and from there for entity, lookup and join tables
(`follows_table`, `follows_lookupTable`, `follows_joinTable`) and composite types
(`follows_composite`). Prefixes are the same in both styles since all names are names in the default
namespace (`qualifiedName_eq`, `stem_restyled`).

A factory may be any function of the parts of an object, and may so read the style of a name;
`ObjectFactory.StyleBlind` says that it does not.
-/

namespace SchemaCatalog

/-! ### Styles -/

/-- The other style. -/
def NameStyle.other : NameStyle → NameStyle
  | qualified => prefixed
  | prefixed => qualified

namespace QualifiedName

/-- A name in the other style. -/
def restyled (n : QualifiedName) : QualifiedName := { n with style := n.style.other }

/-- No two names become one in the other style. -/
theorem injective_restyled : Function.Injective restyled := by
  refine Function.LeftInverse.injective (g := restyled) fun n => ?_
  obtain ⟨target, name, style⟩ := n
  cases style <;> rfl

/-- In the default namespace both styles write a name alike. -/
theorem compact_restyled {n : QualifiedName} (h : n.namespaceName = none) :
    n.restyled.compact = n.compact := by
  obtain ⟨target, name, style⟩ := n
  cases h
  cases style <;> rfl

end QualifiedName

namespace ObjectFactory

/-- A factory is **blind to styles** when the objects that it makes of parts with names in the other
style are those that it makes of the parts, with names in the other style; the name of a table or
composite type is one in the default namespace. -/
structure StyleBlind (f : ObjectFactory) : Prop where
  /-- Columns are made alike. -/
  column (p : ColumnParts) : f.column (p.mapNames .restyled) = (f.column p).mapNames .restyled
  /-- Tables are made alike. -/
  table {name : QualifiedName} (columns : List Column) (key : List String)
    (constraints : List Constraint) (description : Option String) : name.namespaceName = none →
      Follows (Table.mapNames .restyled) (f.table name columns key constraints description)
        (f.table name.restyled (columns.map (Column.mapNames .restyled)) key
          (constraints.map (Constraint.mapNames .restyled)) description)
  /-- Composite types are made alike. -/
  composite {name : QualifiedName} (members : List CompositeMember) (description : Option String) :
    name.namespaceName = none →
      Follows (CompositeType.mapNames .restyled) (f.composite name members description)
        (f.composite name.restyled (members.map (CompositeMember.mapNames .restyled)) description)

/-- What the plain factory makes of a column depends on names only through the data type. -/
theorem column_plain_mapNames (f : QualifiedName → QualifiedName) (p : ColumnParts) :
    plain.column (p.mapNames f) = (plain.column p).mapNames f := by
  obtain ⟨name, dataType, nullable, default, identity, description⟩ := p
  cases identity <;> cases default <;> cases description <;> rfl

/-- The plain factory looks at no style of a name. -/
theorem styleBlind_plain : plain.StyleBlind where
  column p := column_plain_mapNames _ p
  table columns key constraints description _ :=
    Table.follows_form _ _ columns key constraints description
  composite members description _ := CompositeType.follows_form _ _ members description

/-- The factory that writes descriptions looks at no style of a name either. -/
theorem styleBlind_described : described.StyleBlind where
  column p := column_plain_mapNames _
    { p with description := some (p.description.getD ("column " ++ p.name)) }
  table columns key constraints description h := by
    rw [described]
    dsimp only
    rw [QualifiedName.compact_restyled h]
    exact Table.follows_form _ _ columns key constraints _
  composite members description h := by
    rw [described]
    dsimp only
    rw [QualifiedName.compact_restyled h]
    exact CompositeType.follows_form _ _ members _

end ObjectFactory

/-- Settings are **free of styles** when nothing in them but the setting for styles concerns the
style of names: no module has a namespace of its own, no data type is put in the place of another,
narrow integers are standard ones, and the factory is blind to styles. -/
structure Options.StyleFree (o : Options) : Prop where
  /-- No module has a namespace of its own. -/
  namespaces : o.namespaces.isEmpty = true
  /-- No data type is put in the place of another. -/
  substitutions : o.substitutions = []
  /-- Narrow integers are standard ones. -/
  extraNumericTypes : o.extraNumericTypes = false
  /-- The factory is blind to styles. -/
  factory : o.factory.StyleBlind

namespace Converter

/-- A converter that gives names the other style. -/
def restyled (c : Converter) : Converter :=
  { c with options := { c.options with qualifiedNames := !c.options.qualifiedNames } }

variable {c : Converter} (hs : c.options.StyleFree)

@[simp]
theorem registry_restyled : c.restyled.registry = c.registry := rfl

@[simp]
theorem enumMode_restyled : c.restyled.options.enumMode = c.options.enumMode := rfl

@[simp]
theorem structMode_restyled : c.restyled.options.structMode = c.options.structMode := rfl

@[simp]
theorem skips_restyled : c.restyled.options.skips = c.options.skips := rfl

@[simp]
theorem isSmall_restyled (e : Enumeration) : c.restyled.isSmall e = c.isSmall e := rfl

/-- What a field stands for is read off from the definitions and does not depend on the style. -/
@[simp]
theorem role_restyled (t : NativeType) : c.restyled.role t = c.role t := rfl

theorem nameStyle_restyled : c.restyled.nameStyle = c.nameStyle.other := by
  unfold nameStyle restyled
  cases c.options.qualifiedNames <;> rfl

include hs

/-! ### Names -/

/-- Settings that are free of styles stay so in the other style. -/
theorem styleFree_restyled : c.restyled.options.StyleFree :=
  ⟨hs.namespaces, hs.substitutions, hs.extraNumericTypes, hs.factory⟩

/-- All names are names in the default namespace. -/
theorem qualifiedName_eq (moduleName name : String) :
    c.qualifiedName moduleName name = .ok ⟨none, name, c.nameStyle⟩ := by
  simp only [qualifiedName, NamespaceMapping.target, hs.namespaces]
  rfl

/-- A qualified name in the other style is the name, restyled. -/
theorem follows_qualifiedName (moduleName name : String) :
    Follows QualifiedName.restyled (c.qualifiedName moduleName name)
      (c.restyled.qualifiedName moduleName name) := by
  rw [qualifiedName_eq hs, qualifiedName_eq (styleFree_restyled hs), nameStyle_restyled]
  exact .ok _

/-- Names that are derived from an object start with the same identifier in both styles. -/
theorem stem_restyled (moduleName name : String) :
    c.restyled.stem moduleName name = c.stem moduleName name := by
  rw [stem, stem, qualifiedName_eq hs, qualifiedName_eq (styleFree_restyled hs)]
  cases c.nameStyle <;> cases c.restyled.nameStyle <;> rfl

/-! ### Simple types -/

theorem substitute?_eq_none (t : NativeType) : c.options.substitute? t = none := by
  rw [Options.substitute?, hs.substitutions]
  rfl

/-- No primitive has a data type with a name. -/
theorem mapNames_mapPrimitive (p : Primitive) :
    (c.mapPrimitive p).mapNames .restyled = c.mapPrimitive p := by
  rw [mapPrimitive, substitute?_eq_none hs]
  refine DataType.mapNames_of_isPlain ?_
  cases p with
  | int8 | uint8 | uint16 | uint32 | uint64 =>
    change (narrowInteger c.options _ _).isPlain = true
    rw [narrowInteger, hs.extraNumericTypes]
    rfl
  | _ => rfl

/-- Built-in types are mapped to data types without names. -/
theorem follows_mapPrimitive (p : Primitive) :
    Follows (DataType.mapNames .restyled) (.ok (c.mapPrimitive p) : Except ConvertError DataType)
      (.ok (c.restyled.mapPrimitive p)) := by
  refine .of_eq fun d hd => ?_
  rw [← Except.ok.inj hd]
  exact mapNames_mapPrimitive hs p

/-- A refined data type has no name. -/
theorem mapNames_of_refine {subject u : NativeType} {as : List Annotation} {d : DataType}
    (h : refine c.options subject (c.start? u) as = .ok (some d)) : d.mapNames .restyled = d := by
  refine DataType.mapNames_of_isPlain ?_
  obtain hstart | hplain := eq_or_isPlain_of_refine h
  · rw [start?, substitute?_eq_none hs] at hstart
    exact isPlain_provisionalType? hstart
  · exact hplain

section Simple

variable {ofEnum ofEnum' : Enumeration → Except ConvertError DataType}
  (hof : ∀ e, Follows (DataType.mapNames .restyled) (ofEnum e) (ofEnum' e))
include hof

theorem follows_mapPlainWith (t : NativeType) :
    Follows (DataType.mapNames .restyled) (c.mapPlainWith ofEnum t)
      (c.restyled.mapPlainWith ofEnum' t) := by
  cases t with
  | primitive p => exact follows_mapPrimitive hs p
  | _ =>
    simp only [mapPlainWith, substitute?_eq_none hs, substitute?_eq_none (styleFree_restyled hs),
      registry_restyled]
    split
    · exact hof _
    · exact .error _ _

/-- A simple type is mapped alike in both styles when enumerations are. -/
theorem follows_mapSimpleWith (t : NativeType) :
    Follows (DataType.mapNames .restyled) (c.mapSimpleWith ofEnum t)
      (c.restyled.mapSimpleWith ofEnum' t) := by
  by_cases ht : t.unadorned = t
  · rw [mapSimpleWith_of_unadorned ht, mapSimpleWith_of_unadorned ht, substitute?_eq_none hs,
      substitute?_eq_none (styleFree_restyled hs)]
    exact follows_mapPlainWith hs hof t
  · cases t with
    | annotated base as =>
      rw [mapSimpleWith_annotated (substitute?_eq_none hs _),
        mapSimpleWith_annotated (substitute?_eq_none (styleFree_restyled hs) _),
        refine_congr skips_restyled]
      change Follows _ _ (refine c.options (.annotated base as) (c.start? base.unadorned)
        (base.annotations ++ as) >>= _)
      cases htarget : refine c.options (.annotated base as) (c.start? base.unadorned)
          (base.annotations ++ as) with
      | error e => exact .error e e
      | ok target =>
        cases target with
        | some d => exact .of_eq fun _ hd => Except.ok.inj hd ▸ mapNames_of_refine hs htarget
        | none => exact follows_mapPlainWith hs hof base.unadorned
    | _ => exact absurd rfl ht

end Simple

/-! ### Enumerations -/

/-- Values of enumerations have data types without names. -/
theorem follows_mapEnumValues (e : Enumeration) :
    Follows (DataType.mapNames .restyled) (c.mapEnumValues e) (c.restyled.mapEnumValues e) :=
  (Follows.refl _).bind fun t =>
    follows_mapSimpleWith hs (fun _ => .error _ _) t

/-- **Enumerations follow the style**: it shows in the names of enumeration types only. -/
theorem follows_mapEnum (e : Enumeration) :
    Follows (DataType.mapNames .restyled) (c.mapEnum e) (c.restyled.mapEnum e) := by
  unfold mapEnum
  rw [isSmall_restyled, enumMode_restyled]
  split
  · exact follows_mapPrimitive hs _
  · split
    · exact (follows_qualifiedName hs _ _).bind fun n => .ok (DataType.userDefined n)
    · exact .ok (DataType.enumeration e.valueLabels)
    · exact follows_mapPrimitive hs _
    · exact follows_mapEnumValues hs e

theorem follows_mapSimple (t : NativeType) :
    Follows (DataType.mapNames .restyled) (c.mapSimple t) (c.restyled.mapSimple t) :=
  follows_mapSimpleWith hs (follows_mapEnum hs) t

/-! ### Types of fields -/

/-- Literals have data types without names. -/
theorem follows_mapLiteral (t : NativeType) (values : List Literal) :
    Follows (DataType.mapNames .restyled) (c.mapLiteral t values)
      (c.restyled.mapLiteral t values) := by
  have hprimitive : c.restyled.mapPrimitive = c.mapPrimitive := rfl
  have of_types : ∀ types : List DataType, (∀ d ∈ types, d.mapNames .restyled = d) →
      Follows (DataType.mapNames .restyled) (DataType.common? types) (DataType.common? types) := by
    intro types h
    have hcommon := DataType.follows_common? QualifiedName.injective_restyled types
    rwa [List.map_congr_left h, List.map_id'] at hcommon
  unfold mapLiteral
  rw [hprimitive]
  split
  · exact .error _ _
  · refine Follows.mapError (of_types _ fun d hd => ?_)
    split at hd <;> obtain ⟨v, -, rfl⟩ := List.mem_map.mp hd
    · rfl
    · cases v <;> exact mapNames_mapPrimitive hs _

theorem follows_mapSimpleArray (t item : NativeType) :
    Follows (DataType.mapNames .restyled) (c.mapSimpleArray t item)
      (c.restyled.mapSimpleArray t item) := by
  have hsimple : Follows (DataType.mapNames .restyled) ((c.mapSimple item).map .array)
      ((c.restyled.mapSimple item).map .array) :=
    (follows_mapSimple hs item).map fun _ => rfl
  have hvalues : ∀ e, Follows (DataType.mapNames .restyled) ((c.mapEnumValues e).map .array)
      ((c.restyled.mapEnumValues e).map .array) := fun e =>
    (follows_mapEnumValues hs e).map fun _ => rfl
  unfold mapSimpleArray
  rw [registry_restyled]
  split
  · rename_i e _
    rw [isSmall_restyled, enumMode_restyled]
    split
    · exact .error _ _
    · split
      · exact hvalues e
      · exact hsimple
  · exact hsimple

/-- The name of an item in a list follows the style of all names. -/
theorem follows_itemName (t item : NativeType) :
    Follows QualifiedName.restyled (c.itemName t item) (c.restyled.itemName t item) := by
  unfold itemName
  rw [registry_restyled]
  split
  · exact (Follows.refl _).bind fun d => follows_qualifiedName hs _ _
  · exact (Follows.refl _).bind fun d => follows_qualifiedName hs _ _
  · exact follows_qualifiedName hs _ _
  · exact .error _ _

theorem follows_mapList (t item : NativeType) :
    Follows (DataType.mapNames .restyled) (c.mapList t item) (c.restyled.mapList t item) := by
  have hmode : c.restyled.options.arrayMode = c.options.arrayMode := rfl
  unfold mapList
  rw [registry_restyled, hmode]
  split
  · split
    · exact follows_mapSimpleArray hs t item
    · exact follows_mapPrimitive hs _
  · split
    · exact .error _ _
    · refine (follows_itemName hs t item).bind fun n => ?_
      split
      · exact .ok (DataType.array (.userDefined n))
      · exact follows_mapPrimitive hs _

section Keys

variable {ofKey ofKey' : NativeType → Except ConvertError DataType}

omit hs

/-- A discriminated union has the data type of its keys, which follows the style when theirs do. -/
theorem follows_mapDiscriminated
    (hof : ∀ t, Follows (DataType.mapNames .restyled) (ofKey t) (ofKey' t)) (t : NativeType)
    (members : List NativeType) :
    Follows (DataType.mapNames .restyled) (c.mapDiscriminated ofKey t members)
      (c.restyled.mapDiscriminated ofKey' t members) := by
  refine (Follows.refl (c.keyTypes members)).bind fun keys => ?_
  match keys with
  | [common] => exact hof common
  | [] | _ :: _ :: _ => exact .error _ _

/-- A reference has a name of its own or the data type of a key. -/
theorem follows_mapReference (hs : c.options.StyleFree)
    (hof : ∀ t, Follows (DataType.mapNames .restyled) (ofKey t) (ofKey' t)) (name : String) :
    Follows (DataType.mapNames .restyled) (c.mapReference ofKey name)
      (c.restyled.mapReference ofKey' name) := by
  refine (Follows.refl _).bind fun found => ?_
  cases found with
  | enumeration e => exact follows_mapEnum hs e
  | entity e => exact (Follows.refl _).bind fun key => hof key.type
  | struct s =>
    dsimp only [id]
    rw [structMode_restyled]
    split
    · exact (follows_qualifiedName hs _ _).bind fun n => .ok (DataType.userDefined n)
    · exact follows_mapPrimitive hs _

mutual

/-- **One step of mapping follows the style** when it does so for the types of keys. -/
theorem follows_mapMemberWith (hs : c.options.StyleFree)
    (hof : ∀ t, Follows (DataType.mapNames .restyled) (ofKey t) (ofKey' t)) :
    ∀ t : NativeType, Follows (DataType.mapNames .restyled) (c.mapMemberWith ofKey t)
      (c.restyled.mapMemberWith ofKey' t) := by
  intro t
  unfold mapMemberWith
  rw [substitute?_eq_none hs, substitute?_eq_none (styleFree_restyled hs)]
  match t with
  | .primitive p => exact follows_mapPrimitive hs p
  | .annotated base as =>
    dsimp only
    rw [registry_restyled, skips_restyled]
    split
    · exact follows_mapSimple hs _
    · split
      · exact follows_mapMemberWith hs hof base
      · exact .error _ _
  | .ref name | .forward name => exact follows_mapReference hs hof name
  | .literal values => exact follows_mapLiteral hs _ values
  | .list item => exact follows_mapList hs _ item
  | .union members =>
    dsimp only
    rw [registry_restyled]
    split
    · exact follows_mapPrimitive hs _
    · split
      · exact follows_mapDiscriminated hof _ members
      · refine (follows_mapMembersWith hs hof members).bind fun types => ?_
        exact (DataType.follows_common? QualifiedName.injective_restyled types).mapError
  | .custom moduleName name =>
    exact (follows_qualifiedName hs _ _).bind fun n => .ok (DataType.userDefined n)

theorem follows_mapMembersWith (hs : c.options.StyleFree)
    (hof : ∀ t, Follows (DataType.mapNames .restyled) (ofKey t) (ofKey' t)) :
    ∀ ts : List NativeType, Follows (List.map (DataType.mapNames .restyled))
      (c.mapMembersWith ofKey ts) (c.restyled.mapMembersWith ofKey' ts)
  | [] => by
    unfold mapMembersWith
    exact .ok []
  | t :: ts => by
    unfold mapMembersWith
    refine (follows_mapMemberWith hs hof t).bind fun d => ?_
    exact (follows_mapMembersWith hs hof ts).bind fun ds => .ok (d :: ds)

end

end Keys

/-- Following keys, by induction on the types of keys that are left, keeps to the style. -/
theorem follows_mapMemberAlong (keys : List NativeType) (t : NativeType) :
    Follows (DataType.mapNames .restyled) (c.mapMemberAlong keys t)
      (c.restyled.mapMemberAlong keys t) := by
  rw [mapMemberAlong_eq, mapMemberAlong_eq]
  refine follows_mapMemberWith hs (fun key => ?_) t
  unfold keyAlong
  split
  · exact follows_mapMemberAlong (otherKeys key keys) key
  · exact .error _ _
termination_by keys.length
decreasing_by exact length_otherKeys_lt ‹_›

/-- **The data type of a field** in the other style is that of the field, with names in the other
style. -/
theorem follows_mapMember (t : NativeType) :
    Follows (DataType.mapNames .restyled) (c.mapMember t) (c.restyled.mapMember t) :=
  follows_mapMemberAlong hs _ t

/-! ### Tables -/

/-- A column follows the style in its data type alone. -/
theorem follows_column (f : Field) :
    Follows (Column.mapNames .restyled) (c.column f) (c.restyled.column f) := by
  refine (follows_mapMember hs f.type).bind fun d => ?_
  have hcolumn := hs.factory.column
    ⟨f.name, d, f.nullable, f.defaultSql, f.identity, f.description⟩
  exact congrArg some hcolumn

theorem follows_columns (e : Entity) :
    Follows (List.map (Column.mapNames .restyled)) (c.columns e) (c.restyled.columns e) :=
  .mapM fun f _ => follows_column hs f

/-- A reference to the key of an entity follows the style in the name of the table alone. -/
theorem follows_keyReference (target : Entity) :
    Follows (KeyReference.mapNames .restyled) (c.keyReference target)
      (c.restyled.keyReference target) :=
  (Follows.refl (Registry.keyField target)).bind fun key =>
    (follows_qualifiedName hs _ _).bind fun n => .ok (KeyReference.mk n [key.name])

/-- The name of a constraint is made from the stem and the same in both styles; the table that it
refers to is not. -/
theorem follows_entityConstraint? (stem : String) (f : Field) :
    Follows (Option.map (Constraint.mapNames .restyled)) (c.entityConstraint? stem f)
      (c.restyled.entityConstraint? stem f) := by
  unfold entityConstraint?
  rw [role_restyled]
  split
  · refine (follows_keyReference hs _).bind fun r => ?_
    exact .ok (some (Constraint.foreignKey _ _ r))
  · refine (Follows.mapM fun target _ => follows_keyReference hs target).bind fun rs => ?_
    exact .ok (some (Constraint.discriminated _ _ rs))
  · exact .ok none

theorem follows_constraints (e : Entity) :
    Follows (List.map (Constraint.mapNames .restyled)) (c.constraints e)
      (c.restyled.constraints e) := by
  have hkeys : c.restyled.options.foreignConstraints = c.options.foreignConstraints := rfl
  have huniques : ∀ stem, (uniqueConstraints stem e).map (Constraint.mapNames .restyled) =
      uniqueConstraints stem e := by
    intro stem
    rw [uniqueConstraints, List.map_map]
    rfl
  unfold constraints
  rw [stem_restyled hs, hkeys]
  refine (Follows.refl (c.stem e.moduleName e.name)).bind fun stem => ?_
  dsimp only [id]
  split
  · have hkeys := Follows.mapM_filterMap fun f (_ : f ∈ e.fields) =>
      follows_entityConstraint? hs stem f
    refine hkeys.bind fun keys => ?_
    rw [← huniques, ← List.map_append, huniques]
    exact .ok (uniqueConstraints stem e ++ keys)
  · exact .of_eq fun _ h => Except.ok.inj h ▸ huniques stem

theorem follows_lookupReference (e : Enumeration) :
    Follows (KeyReference.mapNames .restyled) (c.lookupReference e)
      (c.restyled.lookupReference e) :=
  (follows_qualifiedName hs _ _).bind fun n => .ok (KeyReference.mk n [lookupKey])

theorem follows_lookupConstraints (stem : String) (e : Entity) :
    Follows (List.map (Constraint.mapNames .restyled)) (c.lookupConstraints stem e)
      (c.restyled.lookupConstraints stem e) := by
  refine .mapM_filterMap fun f _ => ?_
  have hlookup : c.restyled.lookedUp? f = c.lookedUp? f := rfl
  unfold lookupConstraint?
  rw [hlookup]
  split
  · refine (follows_lookupReference hs _).bind fun r => ?_
    exact .ok (some (Constraint.foreignKey _ _ r))
  · exact .ok none

omit hs in
/-- Checks point at no table. -/
theorem mapNames_checkConstraints (stem : String) (e : Entity) :
    (c.checkConstraints stem e).map (Constraint.mapNames .restyled) =
      c.checkConstraints stem e := by
  unfold checkConstraints
  split
  · rw [List.map_filterMap]
    refine List.filterMap_congr fun f _ => ?_
    unfold checkConstraint?
    split <;> rfl
  · rfl

/-- A table is made alike of parts in the other style, under a name of a module. -/
theorem follows_makeTable (moduleName name : String) (columns : List Column) (key : List String)
    (constraints : List Constraint) (description : Option String) :
    Follows (Table.mapNames .restyled)
      (c.qualifiedName moduleName name >>= fun n =>
        (c.options.factory.table n columns key constraints description).mapError
          ConvertError.formation)
      (c.restyled.qualifiedName moduleName name >>= fun n =>
        (c.restyled.options.factory.table n (columns.map (Column.mapNames .restyled)) key
          (constraints.map (Constraint.mapNames .restyled)) description).mapError
            ConvertError.formation) := by
  rw [qualifiedName_eq hs, qualifiedName_eq (styleFree_restyled hs), nameStyle_restyled]
  exact (hs.factory.table columns key constraints description rfl).mapError

/-- Before a factory makes a table of them, the parts of the table follow the style. -/
theorem follows_tableParts (e : Entity) :
    Follows (Table.mapNames .restyled) (c.tableParts e) (c.restyled.tableParts e) := by
  unfold tableParts
  rw [stem_restyled hs]
  refine (follows_columns hs e).bind fun columns => ?_
  refine (follows_constraints hs e).bind fun constraints => ?_
  refine (Follows.refl (c.stem e.moduleName e.name)).bind fun stem => ?_
  refine (follows_lookupConstraints hs stem e).bind fun lookups => ?_
  have hmade := follows_makeTable hs e.moduleName e.name columns [e.primaryKey]
    (constraints ++ lookups ++ c.checkConstraints stem e) e.description
  rw [List.map_append, List.map_append, mapNames_checkConstraints] at hmade
  exact hmade

/-- **The table of an entity** in the other style. -/
theorem follows_table (e : Entity) :
    Follows (Table.mapNames .restyled) (c.table e) (c.restyled.table e) :=
  (follows_tableParts hs e).mapError

/-- Keys of lookup tables have data types without names. -/
theorem mapNames_enumKeyType : c.enumKeyType.mapNames .restyled = c.enumKeyType :=
  mapNames_mapPrimitive hs _

/-- **The lookup table of an enumeration** in the other style. -/
theorem follows_lookupTable (e : Enumeration) :
    Follows (Table.mapNames .restyled) (c.lookupTable e) (c.restyled.lookupTable e) := by
  refine (follows_mapSimple hs labelType).bind fun labels => ?_
  have hmade := follows_makeTable hs e.moduleName e.name
    [c.options.factory.column ⟨lookupKey, c.enumKeyType, false, none, true, none⟩,
      c.options.factory.column ⟨lookupLabel, labels, false, none, false, none⟩] [lookupKey]
    [.unique ("uq_" ++ e.name) [lookupLabel]] e.description
  simp only [List.map_cons, List.map_nil, ← hs.factory.column, ColumnParts.mapNames,
    mapNames_enumKeyType hs] at hmade
  exact hmade

/-- The key of an item in a join table follows the style in its data type. -/
theorem follows_relatedKey (item : RelatedItem) :
    Follows (Prod.map id (DataType.mapNames .restyled)) (c.relatedKey item)
      (c.restyled.relatedKey item) := by
  cases item with
  | entity e =>
    refine (Follows.refl (Registry.keyField e)).bind fun key => ?_
    exact (follows_mapMember hs key.type).bind fun d => .ok (key.name, d)
  | enumeration e =>
    refine .of_eq fun key h => ?_
    cases h
    exact Prod.ext rfl (mapNames_enumKeyType hs)

/-- **The join table of a field** in the other style. -/
theorem follows_joinTable (e : Entity) (name : String) (item : RelatedItem) :
    Follows (Table.mapNames .restyled) (c.joinTable e name item)
      (c.restyled.joinTable e name item) := by
  unfold joinTable
  rw [stem_restyled hs, stem_restyled hs]
  refine (Follows.refl (Registry.keyField e)).bind fun key => ?_
  refine (follows_relatedKey hs item).bind fun ⟨itemKey, itemType⟩ => ?_
  refine (Follows.refl (c.stem e.moduleName e.name)).bind fun ownerStem => ?_
  refine (Follows.refl (c.stem item.moduleName item.name)).bind fun itemStem => ?_
  refine (follows_mapMember hs (.primitive .uuid)).bind fun uuidType => ?_
  refine (follows_mapMember hs key.type).bind fun keyType => ?_
  refine (follows_qualifiedName hs e.moduleName e.name).bind fun ownerName => ?_
  refine (follows_qualifiedName hs item.moduleName item.name).bind fun itemName => ?_
  have hcolumn : ∀ name d, (c.joinColumn name d).mapNames .restyled =
      c.restyled.joinColumn name (d.mapNames .restyled) := fun name d =>
    (hs.factory.column ⟨name, d, false, none, false, none⟩).symm
  have hmade := follows_makeTable hs e.moduleName
    (ownerStem ++ "_" ++ name ++ "_" ++ item.name)
    [c.joinColumn joinKey uuidType, c.joinColumn (ownerStem ++ "_" ++ name) keyType,
      c.joinColumn (itemStem ++ "_" ++ itemKey) itemType] [joinKey]
    [.foreignKey ("jk_" ++ (ownerStem ++ "_" ++ name)) [ownerStem ++ "_" ++ name]
        ⟨ownerName, [key.name]⟩,
      .foreignKey ("jk_" ++ (itemStem ++ "_" ++ itemKey)) [itemStem ++ "_" ++ itemKey]
        ⟨itemName, [itemKey]⟩] none
  simp only [List.map_cons, List.map_nil, hcolumn] at hmade
  exact hmade

/-! ### Composite types -/

/-- **The composite type of a definition** in the other style. -/
theorem follows_composite (d : Definition) :
    Follows (CompositeType.mapNames .restyled) (c.composite d) (c.restyled.composite d) := by
  have hmember : ∀ f, Follows (CompositeMember.mapNames .restyled) (c.compositeMember f)
      (c.restyled.compositeMember f) := fun f =>
    (follows_mapMember hs f.type).bind fun d => .ok (CompositeMember.mk f.name d f.description)
  have hmembers : Follows (List.map (CompositeMember.mapNames .restyled))
      (ConvertError.nameOwner d.name (d.fields.mapM c.compositeMember))
      (ConvertError.nameOwner d.name (d.fields.mapM c.restyled.compositeMember)) :=
    (Follows.mapM fun f _ => hmember f).mapError
  cases d with
  | enumeration e => exact .error _ _
  | entity e | struct s =>
    refine hmembers.bind fun members => ?_
    rw [qualifiedName_eq hs, qualifiedName_eq (styleFree_restyled hs), nameStyle_restyled]
    exact (hs.factory.composite members _ rfl).mapError

end Converter

end SchemaCatalog
