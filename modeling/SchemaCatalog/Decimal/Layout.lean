import SchemaCatalog.Decimal.Shortest

/-!
# How a floating point number is written

A `Layout` holds the decisions of a number format: for which exponents the digits are
written positionally, whether a positive exponent has a sign, and which way a tie between
two shortest decimals goes. The two formats of this library are the values `plain`, for
constants and record values, and `json`, for JSON documents.
-/

namespace SchemaCatalog.Decimal

/-- The decisions of a number format. -/
structure Layout where
  /-- The smallest exponent that is written positionally. -/
  leastPositional : Int
  /-- The first exponent above those written positionally. -/
  firstScientific : Int
  /-- Whether an exponent that is not negative is written with a plus sign. -/
  plusSign : Bool
  /-- Which of two equally near decimals is taken. -/
  tie : Tie

namespace Layout

/-- Positional from `0.0001` to below `1e16`, no sign before a positive exponent, ties up. -/
def plain : Layout := ⟨-4, 16, false, .up⟩

/-- Positional from `0.00001` to below `1e16`, a plus sign before a positive exponent, ties
to the even digit. -/
def json : Layout := ⟨-5, 16, true, .even⟩

/-- Zeros. -/
def zeros (n : Nat) : String := String.ofList (List.replicate n '0')

/-- Digits with a point after the digit of the given exponent; at least one digit stands on
either side of the point. -/
def positional (digits : List Char) (exponent : Int) : String :=
  let whole := (exponent + 1).toNat
  if exponent < 0 then
    "0." ++ zeros (-exponent - 1).toNat ++ String.ofList digits
  else if digits.length ≤ whole then
    String.ofList digits ++ zeros (whole - digits.length) ++ ".0"
  else
    String.ofList (digits.take whole) ++ "." ++ String.ofList (digits.drop whole)

/-- One digit, the others behind a point, and the exponent. -/
def scientific (layout : Layout) (digits : List Char) (exponent : Int) : String :=
  let mantissa :=
    match digits with
    | [] => ""
    | [d] => String.ofList [d]
    | d :: ds => String.ofList (d :: '.' :: ds)
  let sign := if layout.plusSign && 0 ≤ exponent then "+" else ""
  mantissa ++ "e" ++ sign ++ toString exponent

/-- The text of a finite number. -/
def write (layout : Layout) (x : Float) : String :=
  let sign := if x.toBits.toNat / Nat.pow 2 63 = 1 then "-" else ""
  let d := ofFloat layout.tie x
  let digits := (toString d.coefficient).toList
  let exponent := (digits.length : Int) - 1 + d.exponent
  if d.coefficient = 0 then
    sign ++ "0.0"
  else if layout.leastPositional ≤ exponent && exponent < layout.firstScientific then
    sign ++ positional digits exponent
  else
    sign ++ layout.scientific digits exponent

/-- The text of a number, with words for those that are not finite. -/
def writeAll (layout : Layout) (notANumber infinity minusInfinity : String) (x : Float) : String :=
  if x.isNaN then notANumber
  else if x.isInf then if 0 < x then infinity else minusInfinity
  else layout.write x

end Layout

end SchemaCatalog.Decimal
