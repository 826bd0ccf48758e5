import Mathlib
import SchemaCatalog.Definition

/-!
# Equality of definitions

The `==` of definitions is that of their fields, and that of fields compares defaults with the
`==` of floating point numbers. So a definition with a default that is not a number (NaN) is not
`==` to itself, and the sign of a default that is zero makes no difference (`Definition.beq_iff`).
The lemma on the `==` of floating point numbers (`Float.beq_iff_ne_nan_and_eq`) is reached through
the whole of Mathlib only, which is imported for it.
-/

namespace SchemaCatalog

namespace DefaultValue

/-- The default, without its sign if it is a floating point zero. -/
def unsigned : DefaultValue → DefaultValue
  | float x => float (if x = -0 then 0 else x)
  | v => v

/-- Whether the default is not a number. -/
def isNaN : DefaultValue → Bool
  | float x => x.isNaN
  | _ => false

/-- **Defaults are equal** when neither is NaN and they are the same up to the sign of a zero. -/
theorem beq_iff {v w : DefaultValue} :
    (v == w) = true ↔ v.isNaN = false ∧ v.unsigned = w.unsigned := by
  cases v <;> cases w
  case float.float x y =>
    have hbeq : (float x == float y) = (x == y) := rfl
    -- the zeros are numbers
    have hpos : (0 : Float) ≠ Float.nan := by decide
    have hneg : (-0 : Float) ≠ Float.nan := by decide
    rw [hbeq, Float.beq_iff_ne_nan_and_eq, isNaN, Float.isNaN_eq_decide_eq_nan, unsigned, unsigned,
      float.injEq, decide_eq_false_iff_not]
    grind
  all_goals simp [BEq.beq, instBEqDefaultValue.beq, isNaN, unsigned]

end DefaultValue

namespace Field

/-- The field, its default without the sign of a zero. -/
def unsigned (f : Field) : Field := { f with default := f.default.map DefaultValue.unsigned }

/-- Whether the default of the field is not a number. -/
def hasNaN (f : Field) : Bool := f.default.any DefaultValue.isNaN

theorem beq_default_iff {v w : Option DefaultValue} :
    (v == w) = true ↔
      v.any DefaultValue.isNaN = false ∧
        v.map DefaultValue.unsigned = w.map DefaultValue.unsigned := by
  cases v <;> cases w <;> simp [DefaultValue.beq_iff]

theorem beq_iff {f g : Field} : (f == g) = true ↔ f.hasNaN = false ∧ f.unsigned = g.unsigned := by
  have hbeq : (f == g) = (f.name == g.name && (f.type == g.type && (f.nullable == g.nullable &&
      (f.default == g.default && (f.identity == g.identity && (f.unique == g.unique &&
        f.description == g.description)))))) := rfl
  simp only [hbeq, Bool.and_eq_true, beq_iff_eq, beq_default_iff, hasNaN, unsigned, mk.injEq,
    and_assoc, and_left_comm]

theorem beq_list_iff {fs gs : List Field} :
    (fs == gs) = true ↔ fs.any hasNaN = false ∧ fs.map unsigned = gs.map unsigned := by
  induction fs generalizing gs with
  | nil => cases gs <;> simp
  | cons f fs ih =>
    cases gs with
    | nil => simp
    | cons g gs =>
      simp only [List.cons_beq_cons, Bool.and_eq_true, beq_iff, ih, List.any_cons, List.map_cons,
        List.cons.injEq, Bool.or_eq_false_iff, and_assoc, and_left_comm]

end Field

namespace Definition

/-- The definition, its defaults without the sign of a zero. -/
def unsigned : Definition → Definition
  | entity e => entity { e with fields := e.fields.map Field.unsigned }
  | struct s => struct { s with fields := s.fields.map Field.unsigned }
  | enumeration e => enumeration e

/-- Whether a field has a default that is not a number. -/
def hasNaN (d : Definition) : Bool := d.fields.any Field.hasNaN

theorem beq_entity_iff {e e' : Entity} :
    (entity e == entity e') = true ↔
      (entity e).hasNaN = false ∧ (entity e).unsigned = (entity e').unsigned := by
  have hbeq : (entity e == entity e') = (e.name == e'.name && (e.moduleName == e'.moduleName &&
      (e.primaryKey == e'.primaryKey && (e.fields == e'.fields &&
        e.description == e'.description)))) := rfl
  simp only [hbeq, Bool.and_eq_true, beq_iff_eq, Field.beq_list_iff, hasNaN, unsigned, fields,
    entity.injEq, Entity.mk.injEq, and_assoc, and_left_comm]

theorem beq_struct_iff {s s' : Struct} :
    (struct s == struct s') = true ↔
      (struct s).hasNaN = false ∧ (struct s).unsigned = (struct s').unsigned := by
  have hbeq : (struct s == struct s') = (s.name == s'.name && (s.moduleName == s'.moduleName &&
      (s.fields == s'.fields && s.description == s'.description))) := rfl
  simp only [hbeq, Bool.and_eq_true, beq_iff_eq, Field.beq_list_iff, hasNaN, unsigned, fields,
    struct.injEq, Struct.mk.injEq, and_assoc, and_left_comm]

/-- Enumerations have no defaults, so that they are equal when they are the same. -/
theorem beq_enumeration_iff {e e' : Enumeration} :
    (enumeration e == enumeration e') = true ↔ e = e' := by
  have hbeq : (enumeration e == enumeration e') = (e.name == e'.name &&
      (e.moduleName == e'.moduleName && (e.members == e'.members &&
        e.description == e'.description))) := rfl
  cases e
  cases e'
  simp only [hbeq, Bool.and_eq_true, beq_iff_eq, Enumeration.mk.injEq]

/-- A definition **repeats** an earlier one when they are the same but for the signs of defaults
that are zero, and no default of the earlier one is not a number. -/
def Repeats (d old : Definition) : Prop := old.hasNaN = false ∧ old.unsigned = d.unsigned

/-- What `==` says of definitions is that the second repeats the first. -/
theorem beq_iff {old d : Definition} : (old == d) = true ↔ d.Repeats old := by
  cases old <;> cases d
  case entity.entity => exact beq_entity_iff
  case struct.struct => exact beq_struct_iff
  case enumeration.enumeration => simp [beq_enumeration_iff, Repeats, hasNaN, fields, unsigned]
  all_goals simp [BEq.beq, instBEqDefinition.beq, Repeats, unsigned]

/-- A definition repeats itself unless one of its defaults is NaN. -/
theorem repeats_self_iff {d : Definition} : d.Repeats d ↔ d.hasNaN = false := by
  simp [Repeats]

end Definition

end SchemaCatalog
