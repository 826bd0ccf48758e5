import SchemaCatalog.Json

/-!
# Numbers of JSON texts

A number is an integer when it is written without point and exponent and fits into 64 bits,
signed or unsigned. Every other number is a floating point number: its digits are gathered
in a 64-bit significand, digits that do not fit are dropped, and the significand is scaled by
powers of ten in floating point arithmetic. A number too large for that has no value.
-/

namespace SchemaCatalog.Json

/-- The exponent part of a number as written. -/
structure ExponentPart where
  /-- Whether it has a minus sign. -/
  negative : Bool
  /-- The digits, at least one. -/
  digits : List Char
  deriving DecidableEq, Repr

/-- A number as written. -/
structure Numeral where
  /-- Whether it has a minus sign. -/
  negative : Bool
  /-- The digits before the point, at least one. -/
  whole : List Char
  /-- The digits after the point; none when there is no point. -/
  fraction : List Char
  /-- The exponent, if there is one. -/
  exponent : Option ExponentPart
  deriving DecidableEq, Repr

namespace Numeral

/-- The value of a digit. -/
def digitValue (c : Char) : Nat := c.toNat - '0'.toNat

/-- The first number that does not fit into 64 bits. -/
def wordBound : Nat := Nat.pow 2 64

/-- Appends digits to a significand as long as it fits into 64 bits; the result is the
significand and the digits that are left. -/
def gather (significand : Nat) : List Char → Nat × List Char
  | [] => (significand, [])
  | c :: cs =>
    let next := significand * 10 + digitValue c
    if next < wordBound then gather next cs else (significand, c :: cs)

/-- Divides by `10^308` until the exponent is at least `-308`; a significand of 64 bits is
zero after two steps. -/
def scaleDown : Nat → Float → Int → Float
  | 0, x, _ => x
  | steps + 1, x, e =>
    if -308 ≤ e then x / Float.ofScientific 1 false (-e).toNat
    else if x == 0 then x
    else scaleDown steps (x / Float.ofScientific 1 false 308) (e + 308)

/-- A significand times a power of ten; `none` when the product is infinite. -/
def scale? (significand : Nat) (e : Int) : Option Float :=
  let x := significand.toUInt64.toFloat
  if 0 ≤ e then
    if e ≤ 308 then
      let y := x * Float.ofScientific 1 false e.toNat
      if y.isInf then none else some y
    else if significand = 0 then some x
    else none
  else some (scaleDown 4 x e)

/-- The largest exponent that is read in full. -/
def exponentBound : Nat := Nat.pow 2 31 - 1

/-- The value of a list of digits. -/
def natValue (digits : List Char) : Nat :=
  digits.foldl (fun n c => n * 10 + digitValue c) 0

/-- The size of a number as floating point number. -/
def magnitude? (n : Numeral) : Option Float :=
  let (s, dropped) := gather 0 n.whole
  let (t, rest) := gather s n.fraction
  let shift : Int := (dropped.length : Int) - ((n.fraction.length - rest.length : Nat) : Int)
  match n.exponent with
  | none => scale? t shift
  | some e =>
    let power := natValue e.digits
    if power ≤ exponentBound then
      scale? t (if e.negative then shift - power else shift + power)
    else if t ≠ 0 ∧ e.negative = false then none
    else some 0

/-- The value as floating point number. -/
def toFloat? (n : Numeral) : Option Float :=
  n.magnitude?.map fun x => if n.negative then -x else x

/-- The value of a number written as an integer that fits into 64 bits. A negative zero is
no integer. -/
def toInt? (n : Numeral) : Option Int :=
  if n.fraction.isEmpty && n.exponent.isNone then
    let v := natValue n.whole
    if n.negative then
      if 0 < v ∧ v ≤ Nat.pow 2 63 then some (-(v : Int)) else none
    else
      if v < wordBound then some (v : Int) else none
  else none

/-- The value of a number. -/
def toJson? (n : Numeral) : Option Json :=
  match n.toInt? with
  | some i => some (.int i)
  | none => n.toFloat?.map .float

end Numeral

end SchemaCatalog.Json
