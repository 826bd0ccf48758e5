import SchemaCatalog.Converter.Lookup
import SchemaCatalog.Converter.Member
import SchemaCatalog.Converter.Role

/-!
# Tables of entities

The fields of an entity other than relationships become columns. Constraints stand in this
order: uniqueness, foreign keys to entities (which the settings can leave out), foreign keys
to lookup tables, and checks of enumerations.
-/

namespace SchemaCatalog.Converter

/-- The column of a field. -/
def column (c : Converter) (f : Field) : Except ConvertError Column := do
  let dataType ← c.mapMember f.type
  return c.options.factory.column
    ⟨f.name, dataType, f.nullable, f.defaultSql, f.identity, f.description⟩

/-- The columns of an entity. -/
def columns (c : Converter) (e : Entity) : Except ConvertError (List Column) :=
  (e.fields.filter fun f => !c.isRelationship f.type).mapM c.column

/-! ### Constraints -/

/-- The uniqueness constraints of an entity whose derived names start with a stem. -/
def uniqueConstraints (stem : String) (e : Entity) : List Constraint :=
  (e.fields.filter Field.unique).map fun f => .unique ("uq_" ++ stem ++ "_" ++ f.name) [f.name]

/-- What a foreign key to an entity points at. -/
def keyReference (c : Converter) (target : Entity) : Except ConvertError KeyReference := do
  let key ← Registry.keyField target
  let n ← c.qualifiedName target.moduleName target.name
  return ⟨n, [key.name]⟩

/-- The foreign key of a field to other entities, if it has one. -/
def entityConstraint? (c : Converter) (stem : String) (f : Field) :
    Except ConvertError (Option Constraint) :=
  match c.role f.type with
  | .entity target => do
    let r ← c.keyReference target
    return some (.foreignKey ("fk_" ++ stem ++ "_" ++ f.name) [f.name] r)
  | .discriminated targets => do
    let rs ← targets.mapM c.keyReference
    return some (.discriminated ("dk_" ++ stem ++ "_" ++ f.name) [f.name] rs)
  | _ => .ok none

/-- The foreign keys of an entity to other entities. -/
def entityConstraints (c : Converter) (stem : String) (e : Entity) :
    Except ConvertError (List Constraint) := do
  let cs ← e.fields.mapM (c.entityConstraint? stem)
  return cs.filterMap id

/-- The uniqueness constraints of an entity and its foreign keys to other entities, unless
the settings leave these out. -/
def constraints (c : Converter) (e : Entity) : Except ConvertError (List Constraint) := do
  let stem ← c.stem e.moduleName e.name
  let uniques := uniqueConstraints stem e
  if c.options.foreignConstraints then
    let keys ← c.entityConstraints stem e
    return uniques ++ keys
  else return uniques

/-- The enumeration whose lookup table a field points at, if it does. -/
def lookedUp? (c : Converter) (f : Field) : Option Enumeration :=
  match c.role f.type with
  | .extensible e => some e
  | .enumeration e => if c.options.enumMode = .relation then some e else none
  | _ => none

/-- The foreign key of a field to a lookup table, if it has one. -/
def lookupConstraint? (c : Converter) (stem : String) (f : Field) :
    Except ConvertError (Option Constraint) :=
  match c.lookedUp? f with
  | some e => do
    let r ← c.lookupReference e
    return some (.foreignKey ("fk_" ++ stem ++ "_" ++ f.name) [f.name] r)
  | none => .ok none

/-- The foreign keys of an entity to lookup tables. -/
def lookupConstraints (c : Converter) (stem : String) (e : Entity) :
    Except ConvertError (List Constraint) := do
  let cs ← e.fields.mapM (c.lookupConstraint? stem)
  return cs.filterMap id

/-- The constant of a literal value. -/
def literalConstant : Literal → Constant
  | .str s => .text s
  | .int i => .int i
  | .bool b => .bool b

/-- The predicate that a column holds one of the values of an enumeration. -/
def membership (columnName : String) (e : Enumeration) : String :=
  columnName ++ " IN (" ++
    ", ".intercalate (e.values.map fun v => (literalConstant v).toSql) ++ ")"

/-- The check of a field that holds values of an enumeration, if it does. -/
def checkConstraint? (c : Converter) (stem : String) (f : Field) : Option Constraint :=
  match c.role f.type with
  | .enumeration e => some (.check ("ch_" ++ stem ++ "_" ++ f.name) (membership f.name e))
  | _ => none

/-- The checks of an entity. -/
def checkConstraints (c : Converter) (stem : String) (e : Entity) : List Constraint :=
  if c.options.enumMode = .check then e.fields.filterMap (c.checkConstraint? stem) else []

/-! ### Tables -/

/-- The table of an entity, with errors that do not name it. -/
def tableParts (c : Converter) (e : Entity) : Except ConvertError Table := do
  let columns ← c.columns e
  let constraints ← c.constraints e
  let stem ← c.stem e.moduleName e.name
  let lookups ← c.lookupConstraints stem e
  let checks := c.checkConstraints stem e
  let n ← c.qualifiedName e.moduleName e.name
  (c.options.factory.table n columns [e.primaryKey] (constraints ++ lookups ++ checks)
    e.description).mapError .formation

/-- The table of an entity. -/
def table (c : Converter) (e : Entity) : Except ConvertError Table :=
  ConvertError.nameOwner e.name (c.tableParts e)

/-- The table of a registered entity. -/
def tableOf (c : Converter) (name : String) : Except ConvertError Table := do
  match ← c.registry.resolve name with
  | .entity e => c.table e
  | d => .error (.unsupported d.name .notEntity)

end SchemaCatalog.Converter
