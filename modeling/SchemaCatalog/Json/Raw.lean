import SchemaCatalog.Json.Numeral
import SchemaCatalog.Text.Hex

/-!
# JSON texts

`Raw.parse?` checks the grammar of a JSON text and keeps what is written: numbers as digits,
objects with all their members, and a string as `none` when it holds an unpaired surrogate,
which stands for no character. What a reader does not ask for is thereby checked for its
grammar only. `Raw.toJson?` gives a free-form document its value.
-/

namespace SchemaCatalog.Json

/-- A JSON text as written. -/
inductive Raw where
  /-- The null value. -/
  | null
  /-- A truth value. -/
  | bool (b : Bool)
  /-- A number. -/
  | number (n : Numeral)
  /-- A string, if it stands for one. -/
  | str (s : Option String)
  /-- An array. -/
  | arr (items : List Raw)
  /-- An object. -/
  | obj (members : List (Option String × Raw))
  deriving Inhabited

namespace Raw

/-- Whether a character may stand between tokens. -/
def isBlank (c : Char) : Bool := c = ' ' || c = '\n' || c = '\t' || c = '\r'

/-- The text without its leading blanks. -/
def skipBlanks (cs : List Char) : List Char := cs.dropWhile isBlank

/-! ### Strings -/

/-- An element of a string: a character, or a 16-bit code unit written in digits. -/
inductive Element where
  /-- A character that stands for itself or has a short escape. -/
  | char (c : Char)
  /-- A code unit. -/
  | unit (n : Nat)

/-- The character of a short escape. -/
def shortEscape? : Char → Option Char
  | '"' => some '"'
  | '\\' => some '\\'
  | '/' => some '/'
  | 'b' => some '\x08'
  | 'f' => some '\x0c'
  | 'n' => some '\n'
  | 'r' => some '\r'
  | 't' => some '\t'
  | _ => none

/-- The code unit of four hexadecimal digits. -/
def codeUnit? (a b c d : Char) : Option Nat := do
  let a ← Text.hexValue? a
  let b ← Text.hexValue? b
  let c ← Text.hexValue? c
  let d ← Text.hexValue? d
  return ((16 * a + b) * 16 + c) * 16 + d

/-- The elements of a string up to its closing quotation mark, and the text behind it. -/
def elements? : List Char → Option (List Element × List Char)
  | [] => none
  | '"' :: rest => some ([], rest)
  | '\\' :: 'u' :: a :: b :: c :: d :: rest => do
    let n ← codeUnit? a b c d
    let (es, rest) ← elements? rest
    return (.unit n :: es, rest)
  | '\\' :: e :: rest => do
    let c ← shortEscape? e
    let (es, rest) ← elements? rest
    return (.char c :: es, rest)
  | c :: rest =>
    if c.toNat < 32 || c = '\\' then none
    else do
      let (es, rest) ← elements? rest
      return (.char c :: es, rest)

/-- Whether a code unit is the first of a surrogate pair. -/
def isHighSurrogate (n : Nat) : Bool := 0xD800 ≤ n && n < 0xDC00

/-- Whether a code unit is the second of a surrogate pair. -/
def isLowSurrogate (n : Nat) : Bool := 0xDC00 ≤ n && n < 0xE000

/-- The characters of a string; an unpaired surrogate stands for none. -/
def characters? : List Element → Option (List Char)
  | [] => some []
  | .char c :: es => (characters? es).map (c :: ·)
  | .unit n :: .unit m :: es =>
    if isHighSurrogate n && isLowSurrogate m then
      (characters? es).map (Char.ofNat (0x10000 + (n - 0xD800) * 0x400 + (m - 0xDC00)) :: ·)
    else if isHighSurrogate n || isLowSurrogate n then none
    else (characters? (.unit m :: es)).map (Char.ofNat n :: ·)
  | .unit n :: es =>
    if isHighSurrogate n || isLowSurrogate n then none
    else (characters? es).map (Char.ofNat n :: ·)

/-- The string behind an opening quotation mark, and the text behind the string. -/
def string? (cs : List Char) : Option (Option String × List Char) :=
  (elements? cs).map fun p => ((characters? p.1).map String.ofList, p.2)

/-! ### Numbers -/

/-- The digits at the start of a text, and the rest. -/
def digits (cs : List Char) : List Char × List Char := cs.span Char.isDigit

/-- The digits before the point: a single zero, or digits that do not start with one. -/
def whole? (cs : List Char) : Option (List Char × List Char) :=
  match digits cs with
  | ([], _) => none
  | (ds@(d :: more), rest) => if d = '0' && !more.isEmpty then none else some (ds, rest)

/-- The point and the digits behind it, if there is a point. -/
def fraction? : List Char → Option (List Char × List Char)
  | '.' :: rest =>
    match digits rest with
    | ([], _) => none
    | p => some p
  | cs => some ([], cs)

/-- The digits of an exponent with the given sign. -/
def exponentDigits? (negative : Bool) (cs : List Char) : Option (Option ExponentPart × List Char) :=
  match digits cs with
  | ([], _) => none
  | (ds, rest) => some (some ⟨negative, ds⟩, rest)

/-- The exponent, if there is one. -/
def exponent? (cs : List Char) : Option (Option ExponentPart × List Char) :=
  match cs with
  | c :: rest =>
    if c = 'e' || c = 'E' then
      match rest with
      | '+' :: rest => exponentDigits? false rest
      | '-' :: rest => exponentDigits? true rest
      | _ => exponentDigits? false rest
    else some (none, cs)
  | [] => some (none, [])

/-- A number at the start of a text, and the rest. -/
def numeral? (cs : List Char) : Option (Numeral × List Char) := do
  let negative := cs.head? == some '-'
  let (whole, rest) ← whole? (if negative then cs.drop 1 else cs)
  let (fraction, rest) ← fraction? rest
  let (exponent, rest) ← exponent? rest
  return (⟨negative, whole, fraction, exponent⟩, rest)

/-! ### Values -/

mutual

/-- A value at the start of a text, and the rest. The first argument bounds the number of
steps; the length of the text is enough. -/
def value? : Nat → List Char → Option (Raw × List Char)
  | 0, _ => none
  | steps + 1, cs =>
    match skipBlanks cs with
    | '"' :: rest => (string? rest).map fun p => (.str p.1, p.2)
    | '[' :: rest =>
      match skipBlanks rest with
      | ']' :: rest => some (.arr [], rest)
      | _ => (items? steps rest).map fun p => (.arr p.1, p.2)
    | '\x7b' :: rest =>
      match skipBlanks rest with
      | '\x7d' :: rest => some (.obj [], rest)
      | _ => (members? steps rest).map fun p => (.obj p.1, p.2)
    | 'n' :: 'u' :: 'l' :: 'l' :: rest => some (.null, rest)
    | 't' :: 'r' :: 'u' :: 'e' :: rest => some (.bool true, rest)
    | 'f' :: 'a' :: 'l' :: 's' :: 'e' :: rest => some (.bool false, rest)
    | rest => (numeral? rest).map fun p => (.number p.1, p.2)

/-- The items of an array up to its closing bracket, at least one. -/
def items? : Nat → List Char → Option (List Raw × List Char)
  | 0, _ => none
  | steps + 1, cs =>
    match value? steps cs with
    | none => none
    | some (v, rest) =>
      match skipBlanks rest with
      | ',' :: rest => (items? steps rest).map fun p => (v :: p.1, p.2)
      | ']' :: rest => some ([v], rest)
      | _ => none

/-- The members of an object up to its closing brace, at least one. -/
def members? : Nat → List Char → Option (List (Option String × Raw) × List Char)
  | 0, _ => none
  | steps + 1, cs =>
    match skipBlanks cs with
    | '"' :: rest =>
      match string? rest with
      | none => none
      | some (k, rest) =>
        match skipBlanks rest with
        | ':' :: rest =>
          match value? steps rest with
          | none => none
          | some (v, rest) =>
            match skipBlanks rest with
            | ',' :: rest => (members? steps rest).map fun p => ((k, v) :: p.1, p.2)
            | '\x7d' :: rest => some ([(k, v)], rest)
            | _ => none
        | _ => none
    | _ => none

end

/-- A whole text. -/
def parse? (text : String) : Option Raw :=
  let cs := text.toList
  match value? (cs.length + 1) cs with
  | some (v, rest) => if (skipBlanks rest).isEmpty then some v else none
  | none => none

/-! ### Free-form documents -/

/-- The deepest nesting of arrays and objects that is read. -/
def nestingLimit : Nat := 127

mutual

/-- The value of a document whose arrays and objects are nested at most as deep as given. -/
def toJson? : Nat → Raw → Option Json
  | _, null => some .null
  | _, bool b => some (.bool b)
  | _, number n => n.toJson?
  | _, str s => s.map .str
  | 0, arr _ => none
  | n + 1, arr items => (itemsToJson? n items).map .arr
  | 0, obj _ => none
  | n + 1, obj members => (membersToJson? n members).map .object

/-- The values of the items of an array. -/
def itemsToJson? : Nat → List Raw → Option (List Json)
  | _, [] => some []
  | n, v :: vs => do
    let v ← toJson? n v
    let vs ← itemsToJson? n vs
    return v :: vs

/-- The names and values of the members of an object. -/
def membersToJson? : Nat → List (Option String × Raw) → Option (List (String × Json))
  | _, [] => some []
  | n, (k, v) :: ms => do
    let k ← k
    let v ← toJson? n v
    let ms ← membersToJson? n ms
    return (k, v) :: ms

end

end Raw

/-- Reads a free-form document. -/
def parse? (text : String) : Option Json := (Raw.parse? text).bind (Raw.toJson? Raw.nestingLimit)

end SchemaCatalog.Json
