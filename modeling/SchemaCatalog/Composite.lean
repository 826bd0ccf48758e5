import SchemaCatalog.DataType
import SchemaCatalog.Distinct
import SchemaCatalog.FormationError

/-!
# Composite and enumeration types
-/

namespace SchemaCatalog

/-- A member of a composite type. -/
structure CompositeMember where
  /-- The name. -/
  name : String
  /-- The data type. -/
  dataType : DataType
  /-- Documentation. -/
  description : Option String
  deriving DecidableEq, Repr, Inhabited

/-- A composite type: members without a key. -/
structure CompositeType where
  /-- The name. -/
  name : QualifiedName
  /-- The members in order. -/
  members : List CompositeMember
  /-- Documentation. -/
  description : Option String
  deriving DecidableEq, Repr, Inhabited

namespace CompositeType

/-- Forms a composite type, whose member names must differ. -/
def form (name : QualifiedName) (members : List CompositeMember) (description : Option String) :
    Except FormationError CompositeType :=
  match firstRepeated? (members.map CompositeMember.name) with
  | some m => .error (.duplicateColumn name.compact m)
  | none => .ok ⟨name, members, description⟩

/-- A member by its name. -/
def member? (t : CompositeType) (name : String) : Option CompositeMember :=
  t.members.find? fun m => m.name = name

end CompositeType

/-- An enumeration type: labels in order. -/
structure EnumerationType where
  /-- The name. -/
  name : QualifiedName
  /-- The labels. -/
  values : List String
  deriving DecidableEq, Repr, Inhabited

end SchemaCatalog
