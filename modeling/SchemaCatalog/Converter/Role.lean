import SchemaCatalog.Converter.Simple

/-!
# Roles of fields

A field holds a plain value, a key of another entity, a key of one of several entities, an
enumeration, or a key of a lookup table that may grow; or it is a relationship, which has no
column but a join table of its own.
-/

namespace SchemaCatalog

/-- The far side of a relationship. -/
inductive RelatedItem where
  /-- A list of entities. -/
  | entity (e : Entity)
  /-- A list of values of an enumeration that is kept in a lookup table. -/
  | enumeration (e : Enumeration)
  deriving Inhabited

namespace RelatedItem

/-- The name of the related type. -/
def name : RelatedItem → String
  | entity e => e.name
  | enumeration e => e.name

/-- The module that defines the related type. -/
def moduleName : RelatedItem → String
  | entity e => e.moduleName
  | enumeration e => e.moduleName

end RelatedItem

/-- The role of a field in its entity. -/
inductive FieldRole where
  /-- Not a column but a join table. -/
  | relationship (item : RelatedItem)
  /-- A key of an entity. -/
  | entity (target : Entity)
  /-- A key of one of several entities. -/
  | discriminated (targets : List Entity)
  /-- An enumeration. -/
  | enumeration (e : Enumeration)
  /-- A key of a lookup table that may grow. -/
  | extensible (e : Enumeration)
  /-- Anything else. -/
  | value
  deriving Inhabited

namespace Converter

/-- The far side of the relationship that an unadorned type stands for, if it does. -/
def relatedItem? (c : Converter) : NativeType → Option RelatedItem
  | .list item =>
    match c.registry.referenced? item.unadorned with
    | some (.entity e) => some (.entity e)
    | some (.enumeration e) =>
      if c.options.enumMode = .relation then some (.enumeration e) else none
    | _ => none
  | _ => none

/-- Whether a field of a type has a join table and no column. -/
def isRelationship (c : Converter) (t : NativeType) : Bool := (c.relatedItem? t.unadorned).isSome

/-- The entities of a union whose members all refer to one. -/
def unionEntities? (c : Converter) : NativeType → Option (List Entity)
  | .union [] => none
  | .union members => members.mapM c.registry.entity?
  | _ => none

/-- The role of a field of a type. -/
def role (c : Converter) (type : NativeType) : FieldRole :=
  let t := type.unadorned
  match c.relatedItem? t with
  | some item => .relationship item
  | none =>
    match c.registry.referenced? t with
    | some (.entity e) => .entity e
    | some (.enumeration e) => if c.isSmall e then .extensible e else .enumeration e
    | _ =>
      match c.registry.extensible? t with
      | some e => .extensible e
      | none =>
        match c.unionEntities? t with
        | some targets => .discriminated targets
        | none => .value

end Converter

end SchemaCatalog
