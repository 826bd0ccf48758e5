import SchemaCatalog.DataType
import SchemaCatalog.FormationError

/-!
# The common type of several data types

`common? types` is the narrowest data type that holds the values of all `types`: integers
widen, single precision widens to double, and character and byte strings take the larger
limit and are variable unless all are fixed. It folds `join?`, the common type of two.
-/

namespace SchemaCatalog.DataType

/-- The larger of two limits, where no limit is the largest. -/
def maxLimit (a b : Option UInt32) : Option UInt32 :=
  match a, b with
  | some a, some b => some (max a b)
  | _, _ => none

/-- The common type of two different data types. -/
def joinDistinct? : DataType → DataType → Option DataType
  | integer l, integer r => some (integer (max l r))
  | real, double | double, real => some double
  | fixedCharacter l, fixedCharacter r => some (fixedCharacter (maxLimit l r))
  | fixedCharacter l, variableCharacter r
  | variableCharacter l, fixedCharacter r
  | variableCharacter l, variableCharacter r => some (variableCharacter (maxLimit l r))
  | fixedBinary l, fixedBinary r => some (fixedBinary (maxLimit l r))
  | fixedBinary l, variableBinary r
  | variableBinary l, fixedBinary r
  | variableBinary l, variableBinary r => some (variableBinary (maxLimit l r))
  | _, _ => none

/-- The common type of two data types. -/
def join? (a b : DataType) : Option DataType :=
  if a = b then some a else joinDistinct? a b

/-- The common type of a nonempty list of data types; the error lists them all. -/
def common? (types : List DataType) : Except FormationError DataType :=
  match types with
  | [] => .error (.incompatible "")
  | t :: ts =>
    match ts.foldlM join? t with
    | some u => .ok u
    | none => .error (.incompatible (", ".intercalate (types.map toSql)))

end SchemaCatalog.DataType
