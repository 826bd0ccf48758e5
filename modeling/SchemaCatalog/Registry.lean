import SchemaCatalog.ConvertError
import SchemaCatalog.Definition

/-!
# Registries

A `Registry` holds definitions of pairwise distinct names in the order of registration.
Registering a definition again changes nothing; another definition of a taken name is an
error.
-/

namespace SchemaCatalog

/-- Definitions by name, in the order of registration. -/
structure Registry where
  /-- The definitions. -/
  types : List Definition
  /-- No name is taken twice. -/
  nodup_names : (types.map Definition.name).Nodup

/-- A type that comes with its definition. -/
class SelfDescribing (α : Type) where
  /-- The definition. -/
  definition : Definition

namespace Registry

/-- The registry without definitions. -/
def empty : Registry := ⟨[], List.nodup_nil⟩

instance : Inhabited Registry := ⟨empty⟩

/-- The names in order. -/
def names (r : Registry) : List String := r.types.map Definition.name

/-- The number of definitions. -/
def size (r : Registry) : Nat := r.types.length

/-- A definition by its name. -/
def get? (r : Registry) (name : String) : Option Definition :=
  r.types.find? fun d => d.name = name

/-- A definition by its name, which must be registered. -/
def resolve (r : Registry) (name : String) : Except ConvertError Definition :=
  match r.get? name with
  | some d => .ok d
  | none => .error (.unknownType name)

theorem nodup_names_append {r : Registry} {d : Definition} (h : r.get? d.name = none) :
    ((r.types ++ [d]).map Definition.name).Nodup := by
  rw [List.map_append, List.map_singleton]
  refine List.nodup_append.2 ⟨r.nodup_names, by simp, ?_⟩
  intro x hx y hy hxy
  obtain ⟨e, he, rfl⟩ := List.mem_map.1 hx
  have := List.find?_eq_none.1 h e he
  simp only [List.mem_singleton] at hy
  simp [hxy, hy] at this

/-- Registers a definition. -/
def add (r : Registry) (d : Definition) : Except ConvertError Registry :=
  match h : r.get? d.name with
  | some old => if old == d then .ok r else .error (.duplicateType d.name)
  | none => .ok ⟨r.types ++ [d], nodup_names_append h⟩

/-- Registers the definition of a type that describes itself. -/
def register (r : Registry) (α : Type) [SelfDescribing α] : Except ConvertError Registry :=
  r.add (SelfDescribing.definition α)

/-- The registry of a list of definitions, registered in order. -/
def ofList (ds : List Definition) : Except ConvertError Registry :=
  ds.foldlM add empty

/-- The names of the entities, in order. -/
def entityNames (r : Registry) : List String :=
  (r.types.filterMap Definition.entity?).map Entity.name

/-! ### What a type refers to -/

/-- The definition a reference refers to. -/
def referenced? (r : Registry) (t : NativeType) : Option Definition :=
  t.referencedName?.bind r.get?

/-- The entity a reference refers to. -/
def entity? (r : Registry) (t : NativeType) : Option Entity :=
  (r.referenced? t).bind Definition.entity?

/-- The struct a reference refers to. -/
def struct? (r : Registry) (t : NativeType) : Option Struct :=
  (r.referenced? t).bind Definition.struct?

/-- The enumeration a reference refers to. -/
def enumeration? (r : Registry) (t : NativeType) : Option Enumeration :=
  (r.referenced? t).bind Definition.enumeration?

/-- Whether a type is mapped without regard to its owner: a primitive, an enumeration, or one
of these with annotations. -/
def isSimple (r : Registry) : NativeType → Bool
  | .annotated base _ => r.isSimple base
  | .ref name => (r.enumeration? (.ref name)).isSome
  | .forward name => (r.enumeration? (.forward name)).isSome
  | t => t.isPrimitive

/-- The enumeration among the members of a union that are not strings, if it is the only one;
`found` is the enumeration seen so far. -/
def soleEnumeration? (r : Registry) (found : Option Enumeration) :
    List NativeType → Option Enumeration
  | [] => found
  | m :: ms =>
    if m.unadorned = .primitive .string then r.soleEnumeration? found ms
    else
      match r.enumeration? m, found with
      | some e, none => r.soleEnumeration? (some e) ms
      | _, _ => none

/-- The enumeration of an extensible enumeration: a union whose members are one enumeration
and strings. -/
def extensible? (r : Registry) : NativeType → Option Enumeration
  | .union members => r.soleEnumeration? none members
  | _ => none

/-- The primary key field of an entity. -/
def keyField (e : Entity) : Except ConvertError Field :=
  match e.keyField? with
  | some f => .ok f
  | none => .error (.unsupported e.name (.missingKeyField e.primaryKey))

/-- The types of the primary keys of the entities, in order. -/
def keyTypes (r : Registry) : List NativeType :=
  ((r.types.filterMap Definition.entity?).filterMap Entity.keyField?).map Field.type

end Registry

end SchemaCatalog
