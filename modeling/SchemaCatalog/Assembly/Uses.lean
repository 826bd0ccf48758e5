import SchemaCatalog.Converter.Table

/-!
# How enumerations are used

An enumeration type is needed for an enumeration that some field mentions other than through
an extensible enumeration; a lookup table is needed for one that some field of an entity
points at or has a relationship to.
-/

namespace SchemaCatalog.Converter

mutual

/-- The names of the enumerations that a type mentions other than through an extensible
enumeration. -/
def plainEnums (c : Converter) : NativeType → List String
  | .annotated base _ => c.plainEnums base
  | .list item => c.plainEnums item
  | .union members =>
    if (c.registry.extensible? (.union members)).isSome then [] else c.plainEnumsAll members
  | .ref name => ((c.registry.enumeration? (.ref name)).map Enumeration.name).toList
  | .forward name => ((c.registry.enumeration? (.forward name)).map Enumeration.name).toList
  | .primitive _ | .literal _ | .custom _ _ => []

/-- The names that the members of a list mention. -/
def plainEnumsAll (c : Converter) : List NativeType → List String
  | [] => []
  | t :: ts => c.plainEnums t ++ c.plainEnumsAll ts

end

/-- The enumeration whose lookup table a field needs, whatever labels come: under relations a
plain or listed one. -/
def regularLookup? (c : Converter) (f : Field) : Option Enumeration :=
  match c.role f.type with
  | .enumeration e => if c.options.enumMode = .relation then some e else none
  | .relationship (.enumeration e) => some e
  | _ => none

/-- The enumeration that a field extends. -/
def extensibleLookup? (c : Converter) (f : Field) : Option Enumeration :=
  match c.role f.type with
  | .extensible e => some e
  | _ => none

/-- Whether an enumeration stands before another by name. -/
def nameBefore (a b : Enumeration) : Bool := a.name ≤ b.name

/-- The enumerations of a list by name, each name once. -/
def byName (es : List Enumeration) : List Enumeration :=
  (es.mergeSort nameBefore).eraseDupsBy fun a b => a.name == b.name

/-- The enumerations that need a lookup table: regular ones, then the remaining extensible
ones, each group by name. -/
def lookupEnums (c : Converter) (entities : List Entity) : List Enumeration :=
  let fields := entities.flatMap Entity.fields
  let regular := byName (fields.filterMap c.regularLookup?)
  let extensible := byName (fields.filterMap c.extensibleLookup?)
  regular ++ extensible.filter fun e => !regular.any fun r => r.name = e.name

end SchemaCatalog.Converter
