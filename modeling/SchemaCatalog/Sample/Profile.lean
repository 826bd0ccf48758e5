import SchemaCatalog.Json.Raw
import SchemaCatalog.Value

/-!
# Profiles of values

A profile says what the values of a sample have in common: their kinds, and the answers to
questions about the values other than null. It does not depend on the draws as long as the
sample is large enough.
-/

namespace SchemaCatalog

/-- The bounds of a range. -/
inductive Bounds where
  /-- Bounds of texts. -/
  | text (low high : String)
  /-- Bounds of numbers. -/
  | number (low high : Int)
  deriving DecidableEq, Repr, Inhabited

/-- A question about values. -/
inductive Fact where
  /-- The different values. -/
  | distinct
  /-- The number of different values. -/
  | count
  /-- The different sizes. -/
  | lengths
  /-- Whether all are strings of ASCII letters and digits. -/
  | alnum
  /-- Whether all are random identifiers. -/
  | v4
  /-- Whether all are decimal numbers with two places. -/
  | cents
  /-- The versions of addresses. -/
  | families
  /-- The names of the members of objects. -/
  | keys
  /-- The kinds of the items of lists. -/
  | itemKinds
  /-- The different items of lists. -/
  | items
  /-- Whether all are lists without repeated items. -/
  | uniqueItems
  /-- Whether all are within bounds. -/
  | between (bounds : Bounds)
  deriving DecidableEq, Repr, Inhabited

/-- An answer to a question. -/
inductive Finding where
  /-- A list of texts. -/
  | texts (ts : List String)
  /-- A list of numbers. -/
  | numbers (ns : List Nat)
  /-- A number. -/
  | number (n : Nat)
  /-- Yes or no. -/
  | answer (b : Bool)
  deriving DecidableEq, Repr, Inhabited

namespace Fact

/-- The name of a question. -/
def name : Fact → String
  | distinct => "distinct"
  | count => "count"
  | lengths => "lengths"
  | alnum => "alnum"
  | v4 => "v4"
  | cents => "cents"
  | families => "families"
  | keys => "keys"
  | itemKinds => "item_kinds"
  | items => "items"
  | uniqueItems => "unique_items"
  | between _ => "between"

/-- The questions without parameters. -/
def plain : List Fact :=
  [distinct, count, lengths, alnum, v4, cents, families, keys, itemKinds, items, uniqueItems]

/-- The question without parameters of a name. -/
def ofName? (name : String) : Option Fact := plain.find? fun f => f.name = name

end Fact

namespace Profile

/-- The texts of a list in order, each once. -/
def sortedTexts (ts : List String) : List String := (ts.mergeSort (· ≤ ·)).eraseReps

/-- The numbers of a list in order, each once. -/
def sortedNumbers (ns : List Nat) : List Nat := (ns.mergeSort (· ≤ ·)).eraseReps

/-- The JSON text of a value. -/
def text (v : Value) : String := v.toJson.print

/-- The different kinds of values. -/
def kindsOf (vs : List Value) : List String := sortedTexts (vs.map Value.kind)

/-- The size of a document: the length of a string or the number of items or members. -/
def size : Json → Nat
  | .str s => s.length
  | .arr items => items.length
  | .obj members => members.length
  | _ => 0

/-- Whether a value is a string of ASCII letters and digits. -/
def isAlnum : Value → Bool
  | .text s => s.toList.all Char.isAlphanum
  | _ => false

/-- Whether a value is a random identifier. -/
def isRandomUuid : Value → Bool
  | .uuid u => u.isRandom
  | _ => false

/-- Whether a value is a decimal number with two places. -/
def isCents : Value → Bool
  | .decimal s => (s.toList.reverse)[2]? == some '.'
  | _ => false

/-- The version of an address. -/
def family : Value → String
  | .ip (.v4 _) => "v4"
  | .ip (.v6 _) => "v6"
  | _ => "none"

/-- The names of the members of an object. -/
def memberNames? : Value → Option String
  | .json (.obj members) => some (",".intercalate (sortedTexts (members.map Prod.fst)))
  | _ => none

/-- The items of a list. -/
def items : Value → List Value
  | .list vs => vs
  | _ => []

/-- Whether a value is a list without repeated items. -/
def hasUniqueItems : Value → Bool
  | .list vs => let ts := vs.map text; (sortedTexts ts).length = ts.length
  | _ => false

/-- The number that a document stands for. -/
def number? : Json → Option Float
  | .int i => some (Int64.ofInt i).toFloat
  | .float x => some x
  | .str s =>
    match Json.Raw.numeral? s.toList with
    | some (n, []) => n.toFloat?
    | _ => none
  | _ => none

/-- Whether a value is within bounds. -/
def isWithin (v : Value) : Bounds → Bool
  | .text low high =>
    match v.toJson with
    | .str s => low ≤ s && s ≤ high
    | _ => false
  | .number low high =>
    match number? v.toJson with
    | some x => (Int64.ofInt low).toFloat ≤ x && x ≤ (Int64.ofInt high).toFloat
    | none => false

/-- The answer to a question about values other than null. -/
def find (vs : List Value) : Fact → Finding
  | .distinct => .texts (sortedTexts (vs.map text))
  | .count => .number (sortedTexts (vs.map text)).length
  | .lengths => .numbers (sortedNumbers (vs.map fun v => size v.toJson))
  | .alnum => .answer (vs.all isAlnum)
  | .v4 => .answer (vs.all isRandomUuid)
  | .cents => .answer (vs.all isCents)
  | .families => .texts (sortedTexts (vs.map family))
  | .keys => .texts (sortedTexts (vs.filterMap memberNames?))
  | .itemKinds => .texts (kindsOf (vs.flatMap items))
  | .items => .texts (sortedTexts ((vs.flatMap items).map text))
  | .uniqueItems => .answer (vs.all hasUniqueItems)
  | .between bounds => .answer (vs.all fun v => isWithin v bounds)

end Profile

/-- The kinds of values and the answers to questions about them. -/
structure Profile where
  /-- The different kinds. -/
  kinds : List String
  /-- The questions with their answers. -/
  findings : List (Fact × Finding)
  deriving DecidableEq, Repr, Inhabited

/-- The profile of values. -/
def Profile.ofValues (facts : List Fact) (vs : List Value) : Profile :=
  let present := vs.filter fun v => !v.isNull
  ⟨Profile.kindsOf vs, facts.map fun f => (f, Profile.find present f)⟩

end SchemaCatalog
