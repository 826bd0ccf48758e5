import SchemaCatalog.OrderedMap
import SchemaCatalog.Value

/-!
# Records
-/

namespace SchemaCatalog

/-- An instance of an entity: the values of its fields by name. -/
structure Record where
  /-- The values. -/
  fields : OrderedMap Value
  deriving BEq, Inhabited

namespace Record

/-- The record without values. -/
def empty : Record := ⟨∅⟩

/-- Sets the value of a field. -/
def set (r : Record) (name : String) (v : Value) : Record := ⟨r.fields.insert name v⟩

/-- The value of a field. -/
def get? (r : Record) (name : String) : Option Value := r.fields.get? name

end Record

end SchemaCatalog
