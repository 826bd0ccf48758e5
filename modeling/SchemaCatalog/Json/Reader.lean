import SchemaCatalog.Json.Raw

/-!
# Reading JSON texts as values of a known shape

A `Reader` takes the number of levels of arrays and objects that may still be entered and
the text as written. A record is written as an object, of which unknown members are ignored
and known ones stand once, or as the array of its members in order; an alternative is written
as its name, or as an object with its name as the only member.
-/

namespace SchemaCatalog.Json

/-- A reader of values of a type. -/
def Reader (α : Type u) : Type u := Nat → Raw → Option α

namespace Reader

variable {α β : Type}

/-- A string. -/
def text : Reader String
  | _, .str s => s
  | _, _ => none

/-- A truth value. -/
def bool : Reader Bool
  | _, .bool b => some b
  | _, _ => none

/-- A natural number below a bound, written as an integer. -/
def natBelow (bound : Nat) : Reader Nat
  | _, .number n =>
    match n.toInt? with
    | some i => if 0 ≤ i ∧ i < bound then some i.toNat else none
    | none => none
  | _, _ => none

/-- A byte. -/
def byte : Reader UInt8 := fun n v => (natBelow (Nat.pow 2 8) n v).map Nat.toUInt8

/-- A word of 32 bits. -/
def word : Reader UInt32 := fun n v => (natBelow (Nat.pow 2 32) n v).map Nat.toUInt32

/-- Null, or a value. -/
def optional (r : Reader α) : Reader (Option α)
  | _, .null => some none
  | n, v => (r n v).map some

/-- An array of values. -/
def list (r : Reader α) : Reader (List α)
  | n + 1, .arr items => items.mapM (r n)
  | _, _ => none

/-- The named values of an object, all names in order. -/
def entries (r : Reader α) : Reader (List (String × α))
  | n + 1, .obj members => members.mapM fun m => do
    let k ← m.1
    let v ← r n m.2
    return (k, v)
  | _, _ => none

/-- An alternative without content: its name alone, or with null as its content. -/
def unitAlternative (f : String → Option α) : Reader α
  | _, .str (some name) => f name
  | _ + 1, .obj [(some name, .null)] => f name
  | _, _ => none

/-- An alternative with content. -/
def alternative (f : String → Reader α) : Reader α
  | n + 1, .obj [(some name, v)] => f name n v
  | _, _ => none

/-! ### Records -/

/-- The members of a record that were found, and the levels that may still be entered. -/
structure Members where
  /-- The number of levels. -/
  levels : Nat
  /-- Each known member with its value, if it was given. -/
  values : List (String × Option Raw)

namespace Members

/-- The value of a member that must be given. -/
def required (m : Members) (name : String) (r : Reader α) : Option α :=
  match m.values.lookup name with
  | some (some v) => r m.levels v
  | _ => none

/-- The value of a member that may be null or left out. -/
def optional (m : Members) (name : String) (r : Reader α) : Option (Option α) :=
  match m.values.lookup name with
  | some (some v) => r.optional m.levels v
  | some none => some none
  | none => none

end Members

/-- The values that an object has for the names; every name stands at most once. -/
def known? (names : List String) (members : List (Option String × Raw)) :
    Option (List (String × Option Raw)) :=
  if members.all fun m => m.1.isSome then
    names.mapM fun name =>
      match members.filter fun m => m.1 == some name with
      | [] => some (name, none)
      | [m] => some (name, some m.2)
      | _ => none
  else none

/-- A record with the named members. -/
def record (names : List String) (build : Members → Option α) : Reader α
  | n + 1, .arr items =>
    if items.length = names.length then build ⟨n, names.zip (items.map some)⟩ else none
  | n + 1, .obj members =>
    match known? names members with
    | some values => build ⟨n, values⟩
    | none => none
  | _, _ => none

end Reader

/-- Reads a text as a value of a known shape. -/
def Reader.read? {α : Type} (r : Reader α) (text : String) : Option α :=
  (Raw.parse? text).bind (r Raw.nestingLimit)

end SchemaCatalog.Json
