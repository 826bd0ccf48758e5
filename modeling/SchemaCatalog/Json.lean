/-!
# JSON documents

A `Json` value holds the members of an object in the order in which they are written.
`Json.object` builds the object of a free-form document, whose members stand in the order
of their names, each once.
-/

namespace SchemaCatalog

/-- A JSON value. -/
inductive Json where
  /-- The null value. -/
  | null
  /-- A truth value. -/
  | bool (b : Bool)
  /-- An integer. -/
  | int (i : Int)
  /-- A floating point number. -/
  | float (x : Float)
  /-- A string. -/
  | str (s : String)
  /-- An array. -/
  | arr (items : List Json)
  /-- An object. -/
  | obj (members : List (String × Json))
  deriving BEq, Inhabited

namespace Json

/-- Adds a member in the order of names, in place of a member of the same name. -/
def insertMember (name : String) (value : Json) : List (String × Json) → List (String × Json)
  | [] => [(name, value)]
  | m :: ms =>
    if name < m.1 then (name, value) :: m :: ms
    else if name = m.1 then (name, value) :: ms
    else m :: insertMember name value ms

/-- The object with the given members, of which the last of a name counts. -/
def object (members : List (String × Json)) : Json :=
  obj (members.foldl (fun ms m => insertMember m.1 m.2 ms) [])

/-- A number, or null for a number that is not finite. -/
def number (x : Float) : Json := if x.isFinite then float x else null

/-- A string, or null for none. -/
def optional : Option String → Json
  | some s => str s
  | none => null

end Json

end SchemaCatalog
