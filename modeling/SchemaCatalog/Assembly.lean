import SchemaCatalog.Assembly.DependencyOrder
import SchemaCatalog.Assembly.Uses
import SchemaCatalog.Converter.Composite
import SchemaCatalog.Converter.Join
import SchemaCatalog.Registry.Closure

/-!
# Catalogs

`assemble roots` converts the roots and all that they reach. Objects come in this order:
enumeration types, composite types with dependencies first, entity tables, lookup tables,
join tables; within each group the order is that of the names of the definitions, so that it
does not depend on the order of registration or of the roots. Each object is placed in the
namespace of the module that defines it.
-/

namespace SchemaCatalog

/-- Catalog objects, each with the name of its namespace. -/
structure PlacedObjects where
  /-- The enumeration types. -/
  enums : List (String × EnumerationType)
  /-- The composite types. -/
  structs : List (String × CompositeType)
  /-- The tables. -/
  tables : List (String × Table)

namespace PlacedObjects

/-- The namespaces of a list of objects, in the order in which they are first seen. -/
def places {α : Type} (objects : List (String × α)) : List String :=
  (objects.map Prod.fst).eraseDups

/-- The objects of a list in a namespace. -/
def inPlace {α : Type} (name : String) (objects : List (String × α)) : List α :=
  (objects.filter fun o => o.1 = name).map Prod.snd

/-- The objects of a list, namespace by namespace. -/
def byPlace {α : Type} (objects : List (String × α)) : List α :=
  (places objects).flatMap fun name => inPlace name objects

/-- The catalog with a namespace for each place: first those of tables, then those that hold
types only. -/
def qualifiedCatalog (f : ObjectFactory) (p : PlacedObjects) : Catalog :=
  let names := (places p.tables ++ places p.enums ++ places p.structs).eraseDups
  ⟨names.map fun name =>
    { f.newNamespace name with
      enums := inPlace name p.enums
      structs := inPlace name p.structs
      tables := inPlace name p.tables }⟩

/-- The catalog with all objects in the default namespace. -/
def prefixedCatalog (f : ObjectFactory) (p : PlacedObjects) : Catalog :=
  ⟨[{ f.newNamespace "" with
      enums := byPlace p.enums
      structs := byPlace p.structs
      tables := byPlace p.tables }]⟩

end PlacedObjects

namespace Converter

/-- The definitions reachable from the roots, by name. -/
def reachable (c : Converter) (roots : List String) : Except ConvertError (List Definition) := do
  let names ← c.registry.closure roots
  let types ← names.mapM c.registry.resolve
  return types.mergeSort fun a b => a.name ≤ b.name

/-- An object with the namespace of the module that defines it. -/
def place {α : Type} (c : Converter) (moduleName : String) (object : α) :
    Except ConvertError (String × α) := do
  let name ← c.namespaceOf moduleName
  return (name, object)

/-- Whether an enumeration of the given definitions becomes an enumeration type. -/
def isNative (c : Converter) (types : List Definition) (e : Enumeration) : Bool :=
  !c.isSmall e && types.any fun d => d.fields.any fun f => (c.plainEnums f.type).contains e.name

/-- The enumerations among the definitions that become enumeration types. -/
def nativeEnums (c : Converter) (types : List Definition) : List Enumeration :=
  if c.options.enumMode = .type then
    (types.filterMap Definition.enumeration?).filter (c.isNative types)
  else []

/-- The enumeration types of the definitions. -/
def enumTypes (c : Converter) (types : List Definition) :
    Except ConvertError (List (String × EnumerationType)) :=
  (c.nativeEnums types).mapM fun e => do
    let n ← c.qualifiedName e.moduleName e.name
    c.place e.moduleName ⟨n, e.valueLabels⟩

/-- The composite types of the definitions. -/
def compositeTypes (c : Converter) (types : List Definition) :
    Except ConvertError (List (String × CompositeType)) :=
  if c.options.structMode = .type then do
    let structs ← dependencyOrder (types.filterMap Definition.struct?)
    structs.mapM fun s => do
      let t ← c.composite (.struct s)
      c.place s.moduleName t
  else .ok []

/-- The tables of entities. -/
def entityTables (c : Converter) (entities : List Entity) :
    Except ConvertError (List (String × Table)) :=
  entities.mapM fun e => do
    let t ← c.table e
    c.place e.moduleName t

/-- The lookup tables for the fields of entities. An enumeration that has an enumeration type
cannot have a lookup table, which would have the same name. -/
def lookupTables (c : Converter) (native : List Enumeration) (entities : List Entity) :
    Except ConvertError (List (String × Table)) :=
  (c.lookupEnums entities).mapM fun e =>
    if native.any fun n => n.name = e.name then .error (.unsupported e.name .enumerationTwice)
    else do
      let t ← c.lookupTable e
      c.place e.moduleName t

/-- The join table of a field of an entity, if it is a relationship. -/
def fieldJoin? (c : Converter) (e : Entity) (f : Field) :
    Except ConvertError (Option (String × Table)) :=
  match c.role f.type with
  | .relationship item => do
    let t ← ConvertError.nameOwner e.name (c.joinTable e f.name item)
    let placed ← c.place e.moduleName t
    return some placed
  | _ => .ok none

/-- The join tables of entities, by entity and field. -/
def joinTables (c : Converter) (entities : List Entity) :
    Except ConvertError (List (String × Table)) := do
  let joins ← (entities.flatMap fun e => e.fields.map fun f => (e, f)).mapM fun p =>
    c.fieldJoin? p.1 p.2
  return joins.filterMap id

/-- The objects of the definitions. -/
def objects (c : Converter) (types : List Definition) : Except ConvertError PlacedObjects := do
  let entities := types.filterMap Definition.entity?
  let enums ← c.enumTypes types
  let structs ← c.compositeTypes types
  let tables ← c.entityTables entities
  let lookups ← c.lookupTables (c.nativeEnums types) entities
  let joins ← c.joinTables entities
  return ⟨enums, structs, tables ++ lookups ++ joins⟩

/-- The catalog of placed objects. -/
def group (c : Converter) (p : PlacedObjects) : Catalog :=
  if c.options.qualifiedNames then p.qualifiedCatalog c.options.factory
  else p.prefixedCatalog c.options.factory

/-- The catalog of all definitions that the roots reach. -/
def assemble (c : Converter) (roots : List String) : Except ConvertError Catalog := do
  let types ← c.reachable roots
  let placed ← c.objects types
  return c.group placed

/-- The catalog of all registered entities. -/
def assembleAll (c : Converter) : Except ConvertError Catalog :=
  c.assemble c.registry.entityNames

end Converter

end SchemaCatalog
