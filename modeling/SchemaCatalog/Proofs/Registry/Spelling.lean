import SchemaCatalog.Proofs.Registry.Reachability

/-!
# Spelling forward references as references

A forward reference and a reference of the same name refer to the same definition. `respelled`
spells every forward reference of a type as a reference, and so for fields, definitions and
registries. Names, modules and keys are as before, a type mentions what it mentioned, and what it
refers to is respelled; so the same names are reached from the same roots (`closure_respelled`).

What respelling does not keep is that types differ: the types of two keys may become one. A type
for which this does not matter `SpellsKeysAlike`: in each of its unions of entities, keys that are
of one type up to spelling are of one type.
-/

namespace SchemaCatalog

namespace NativeType

mutual

/-- A type with its forward references spelled as references. -/
def respelled : NativeType → NativeType
  | forward name => ref name
  | annotated base as => annotated (respelled base) as
  | list item => list (respelled item)
  | union members => union (respelledAll members)
  | primitive p => primitive p
  | ref name => ref name
  | literal values => literal values
  | custom moduleName name => custom moduleName name

/-- The types of a list with their forward references spelled as references. -/
def respelledAll : List NativeType → List NativeType
  | [] => []
  | t :: ts => respelled t :: respelledAll ts

end

/-- Respelling a list respells its elements. -/
@[simp]
theorem respelledAll_eq_map (ts : List NativeType) : respelledAll ts = ts.map respelled := by
  induction ts with
  | nil => rfl
  | cons t ts ih => rw [respelledAll, ih, List.map_cons]

variable (t : NativeType)

/-- Annotations are taken off before or after respelling. -/
@[simp]
theorem unadorned_respelled : ∀ t : NativeType, t.respelled.unadorned = t.unadorned.respelled
  | annotated base _ => unadorned_respelled base
  | primitive _ | ref _ | forward _ | literal _ | list _ | union _ | custom _ _ => rfl

@[simp]
theorem annotations_respelled : ∀ t : NativeType, t.respelled.annotations = t.annotations
  | annotated base _ => by rw [respelled, annotations, annotations, annotations_respelled base]
  | primitive _ | ref _ | forward _ | literal _ | list _ | union _ | custom _ _ => rfl

@[simp]
theorem isPrimitive_respelled : t.respelled.isPrimitive = t.isPrimitive := by
  cases t <;> rfl

@[simp]
theorem referencedName?_respelled : t.respelled.referencedName? = t.referencedName? := by
  cases t <;> rfl

/-- Built-in types are spelled in one way. -/
theorem respelled_eq_primitive_iff {p : Primitive} :
    t.respelled = primitive p ↔ t = primitive p := by
  cases t <;> simp [respelled]

mutual

/-- **The other spelling mentions the same names.** -/
@[simp]
theorem mentions_respelled : ∀ t : NativeType, t.respelled.mentions = t.mentions
  | annotated base _ => mentions_respelled base
  | list item => mentions_respelled item
  | union members => mentionsAll_respelledAll members
  | primitive _ | ref _ | forward _ | literal _ | custom _ _ => rfl

theorem mentionsAll_respelledAll :
    ∀ ts : List NativeType, mentionsAll (respelledAll ts) = mentionsAll ts
  | [] => rfl
  | t :: ts => by
    rw [respelledAll, mentionsAll, mentionsAll, mentions_respelled t, mentionsAll_respelledAll ts]

end

/-- A type **holds** another one when it is that one, annotates one that holds it, or is a union
with a member that holds it. -/
inductive Holds : NativeType → NativeType → Prop
  /-- A type holds itself. -/
  | refl (t : NativeType) : Holds t t
  /-- An annotated type holds what its base holds. -/
  | base {t u : NativeType} {as : List Annotation} : Holds t u → Holds (annotated t as) u
  /-- A union holds what its members hold. -/
  | member {ts : List NativeType} {t u : NativeType} : t ∈ ts → Holds t u → Holds (union ts) u

/-- Only a union holds a union, whatever annotations it has. -/
theorem Holds.unadorned_eq_union {t : NativeType} {members : List NativeType}
    (h : t.Holds (union members)) : ∃ ms, t.unadorned = union ms := by
  generalize hu : union members = u at h
  induction h with
  | refl => exact ⟨members, hu ▸ rfl⟩
  | base _ ih => exact ih hu
  | @member ts => exact ⟨ts, rfl⟩

end NativeType

/-! ### Definitions -/

/-- A field with its type respelled. -/
def Field.respelled (f : Field) : Field := { f with type := f.type.respelled }

@[simp]
theorem Field.name_respelled (f : Field) : f.respelled.name = f.name := rfl

@[simp]
theorem Field.type_respelled (f : Field) : f.respelled.type = f.type.respelled := rfl

/-- An entity with its fields respelled. -/
def Entity.respelled (e : Entity) : Entity := { e with fields := e.fields.map Field.respelled }

/-- A struct with its fields respelled. -/
def Struct.respelled (s : Struct) : Struct := { s with fields := s.fields.map Field.respelled }

/-- A definition with its fields respelled. -/
def Definition.respelled : Definition → Definition
  | entity e => entity e.respelled
  | struct s => struct s.respelled
  | enumeration e => enumeration e

namespace Definition

variable (d : Definition)

/-- A definition keeps its name in the other spelling. -/
@[simp]
theorem name_respelled : d.respelled.name = d.name := by cases d <;> rfl

@[simp]
theorem moduleName_respelled : d.respelled.moduleName = d.moduleName := by cases d <;> rfl

@[simp]
theorem fields_respelled : d.respelled.fields = d.fields.map Field.respelled := by
  cases d <;> rfl

@[simp]
theorem description_respelled : d.respelled.description = d.description := by cases d <;> rfl

@[simp]
theorem entity?_respelled : d.respelled.entity? = d.entity?.map Entity.respelled := by
  cases d <;> rfl

@[simp]
theorem struct?_respelled : d.respelled.struct? = d.struct?.map Struct.respelled := by
  cases d <;> rfl

/-- An enumeration has no fields that could be spelled otherwise. -/
@[simp]
theorem enumeration?_respelled : d.respelled.enumeration? = d.enumeration? := by cases d <;> rfl

theorem flatMap_mentions_respelled (fields : List Field) :
    (fields.map Field.respelled).flatMap (fun f => f.type.mentions) =
      fields.flatMap fun f => f.type.mentions := by
  simp only [List.flatMap_map, Field.respelled, NativeType.mentions_respelled]

/-- A definition mentions the same names in the other spelling. -/
@[simp]
theorem mentions_respelled : d.respelled.mentions = d.mentions := by
  rw [mentions, fields_respelled, flatMap_mentions_respelled, mentions]

end Definition

@[simp]
theorem Struct.name_respelled (s : Struct) : s.respelled.name = s.name := rfl

@[simp]
theorem Struct.mentions_respelled (s : Struct) : s.respelled.mentions = s.mentions :=
  Definition.flatMap_mentions_respelled s.fields

/-- The key field of a respelled entity is the key field, respelled. -/
theorem keyField_respelled (e : Entity) :
    Registry.keyField e.respelled = (Registry.keyField e).map Field.respelled := by
  have hfind : e.respelled.keyField? = e.keyField?.map Field.respelled := by
    simp only [Entity.keyField?, Entity.field?, Entity.respelled, List.find?_map]
    rfl
  unfold Registry.keyField
  rw [hfind]
  cases e.keyField? <;> rfl

/-! ### Registries -/

namespace Registry

/-- A registry with its definitions respelled. -/
def respelled (r : Registry) : Registry where
  types := r.types.map Definition.respelled
  nodup_names := by simpa [Function.comp_def] using r.nodup_names

variable (r : Registry) (t : NativeType)

/-- **Looking up a name** gives the definition of the name, respelled. -/
@[simp]
theorem get?_respelled (name : String) :
    r.respelled.get? name = (r.get? name).map Definition.respelled := by
  simp only [get?, respelled, List.find?_map, Function.comp_def, Definition.name_respelled]

theorem resolve_respelled (name : String) :
    r.respelled.resolve name = (r.resolve name).map Definition.respelled := by
  unfold resolve
  rw [get?_respelled]
  cases r.get? name <;> rfl

/-- What a type refers to, respelled, is what the respelled type refers to. -/
@[simp]
theorem referenced?_respelled :
    r.respelled.referenced? t.respelled = (r.referenced? t).map Definition.respelled := by
  unfold referenced?
  rw [NativeType.referencedName?_respelled]
  cases t.referencedName? with
  | none => rfl
  | some name => exact r.get?_respelled name

@[simp]
theorem entity?_respelled :
    r.respelled.entity? t.respelled = (r.entity? t).map Entity.respelled := by
  unfold entity?
  rw [referenced?_respelled]
  cases r.referenced? t with
  | none => rfl
  | some d => exact d.entity?_respelled

/-- Which enumeration a type refers to does not depend on the spelling. -/
@[simp]
theorem enumeration?_respelled : r.respelled.enumeration? t.respelled = r.enumeration? t := by
  unfold enumeration?
  rw [referenced?_respelled]
  cases r.referenced? t with
  | none => rfl
  | some d => exact d.enumeration?_respelled

/-- Whether a type is simple does not depend on the spelling. -/
@[simp]
theorem isSimple_respelled : ∀ t : NativeType, r.respelled.isSimple t.respelled = r.isSimple t
  | .annotated base _ => isSimple_respelled base
  | .ref name => congrArg Option.isSome (r.enumeration?_respelled (.ref name))
  | .forward name => congrArg Option.isSome (r.enumeration?_respelled (.forward name))
  | .primitive _ | .literal _ | .list _ | .union _ | .custom _ _ => rfl

theorem soleEnumeration?_respelled (found : Option Enumeration) :
    ∀ ms : List NativeType,
      r.respelled.soleEnumeration? found (ms.map NativeType.respelled) = r.soleEnumeration? found ms
  | [] => rfl
  | m :: ms => by
    rw [List.map_cons]
    unfold soleEnumeration?
    simp only [enumeration?_respelled, NativeType.unadorned_respelled,
      NativeType.respelled_eq_primitive_iff, soleEnumeration?_respelled _ ms]

/-- Whether a union extends an enumeration does not depend on how its members are spelled. -/
@[simp]
theorem extensible?_respelled : r.respelled.extensible? t.respelled = r.extensible? t := by
  cases t with
  | union ms =>
    rw [NativeType.respelled, NativeType.respelledAll_eq_map]
    exact r.soleEnumeration?_respelled none ms
  | _ => rfl

/-! ### Keys -/

/-- A type **has a key** when it refers to an entity with that key. -/
def HasKey (r : Registry) (t : NativeType) (key : Field) : Prop :=
  ∃ e, r.entity? t = some e ∧ keyField e = .ok key

/-- The keys of some types are **spelled alike** when two of them that are of one type up to
spelling are of one type. -/
def KeysSpelledAlike (r : Registry) (ts : List NativeType) : Prop :=
  ∀ t ∈ ts, ∀ t' ∈ ts, ∀ key key', r.HasKey t key → r.HasKey t' key' →
    key.type.respelled = key'.type.respelled → key.type = key'.type

/-- A type **spells keys alike** when the keys of every union of entities that it holds are spelled
alike. -/
def SpellsKeysAlike (r : Registry) (t : NativeType) : Prop :=
  ∀ members, t.Holds (.union members) → (∀ m ∈ members, (r.entity? m).isSome = true) →
    r.KeysSpelledAlike members

/-- Where keys are spelled alike, they are so below any type that holds nothing else. -/
theorem SpellsKeysAlike.of_holds {r : Registry} {t u : NativeType} (h : r.SpellsKeysAlike t)
    (hu : ∀ v, u.Holds v → t.Holds v) : r.SpellsKeysAlike u :=
  fun members hm => h members (hu _ hm)

/-- A type that is no union, whatever annotations it has, spells keys alike. -/
theorem SpellsKeysAlike.of_unadorned {r : Registry} {t : NativeType}
    (ht : ∀ ms, t.unadorned ≠ .union ms) : r.SpellsKeysAlike t := by
  intro members hm
  obtain ⟨ms, hms⟩ := hm.unadorned_eq_union
  exact absurd hms (ht ms)

/-- A simple type leads to no keys. -/
theorem SpellsKeysAlike.of_isSimple {r : Registry} {t : NativeType} (ht : r.isSimple t = true) :
    r.SpellsKeysAlike t := by
  refine .of_unadorned fun ms hms => ?_
  rw [← isSimple_unadorned, hms] at ht
  cases ht

theorem SpellsKeysAlike.of_entity? {r : Registry} {t : NativeType}
    (ht : (r.entity? t).isSome = true) : r.SpellsKeysAlike t := by
  refine .of_unadorned fun ms hms => ?_
  cases t with
  | ref _ | forward _ => cases hms
  | _ => cases ht

/-! ### Reachable names -/

/-- **The closure of names** does not depend on the spelling. -/
theorem closureFrom_respelled (seen names : List String) :
    r.respelled.closureFrom seen names = r.closureFrom seen names := by
  fun_induction closureFrom r seen names with
  | case1 seen => rw [closureFrom]
  | case2 seen name rest hs ih => rw [closureFrom, dif_pos hs, ih]
  | case3 seen name rest hs hd =>
    rw [closureFrom, dif_neg hs]
    split
    · rfl
    · rename_i hd'
      rw [get?_respelled, hd] at hd'
      cases hd'
  | case4 seen name rest hs d hd ih =>
    rw [closureFrom, dif_neg hs]
    split
    · rename_i hd'
      rw [get?_respelled, hd] at hd'
      cases hd'
    · rename_i hd'
      rw [get?_respelled, hd] at hd'
      cases hd'
      rw [Definition.mentions_respelled, ih]

/-- **The same names are reached.** -/
theorem closure_respelled (roots : List String) : r.respelled.closure roots = r.closure roots :=
  r.closureFrom_respelled [] roots

end Registry

end SchemaCatalog
