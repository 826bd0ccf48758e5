import SchemaCatalog.Options.Factory
import SchemaCatalog.Proofs.Result

/-!
# Forming composite types

A composite type is formed when its member names differ, and is then what it has been formed
from (`CompositeType.form_eq_ok_iff`). An `ObjectFactory` `KeepsComposites` when the composite
types it makes are formed from the parts it is given, with documentation of its own.
-/

namespace SchemaCatalog

theorem CompositeType.form_eq_ok_iff {name : QualifiedName} {members : List CompositeMember}
    {description : Option String} {t : CompositeType} :
    form name members description = .ok t ↔
      (members.map CompositeMember.name).Nodup ∧ t = ⟨name, members, description⟩ := by
  rw [← firstRepeated?_eq_none_iff, form]
  cases firstRepeated? (members.map CompositeMember.name) with
  | some m => simp
  | none => simp [eq_comm (b := t)]

namespace ObjectFactory

/-- A factory **keeps composite types** when it changes documentation only. -/
def KeepsComposites (f : ObjectFactory) : Prop :=
  ∀ {name : QualifiedName} {members : List CompositeMember} {description : Option String}
    {t : CompositeType}, f.composite name members description = .ok t →
      t.name = name ∧ t.members = members

theorem keepsComposites_plain : plain.KeepsComposites := by
  intro name members description t h
  obtain ⟨-, rfl⟩ := CompositeType.form_eq_ok_iff.mp h
  exact ⟨rfl, rfl⟩

theorem keepsComposites_described : described.KeepsComposites :=
  fun h => keepsComposites_plain h

end ObjectFactory

end SchemaCatalog
