/-!
# The fewest decimal digits that read back

A positive binary floating point number `m · 2^q` stands for all reals nearer to it than to
its neighbours: an interval from half a step below to half a step above, ends included when
`m` is even. `shortest` finds the coarsest decimal grid with a point in that interval and
on it the point nearest to the number. All arithmetic is exact, on natural numbers.
-/

namespace SchemaCatalog

/-- The decimal `coefficient · 10^exponent`. -/
structure Decimal where
  /-- The digits. -/
  coefficient : Nat
  /-- The power of ten. -/
  exponent : Int
  deriving DecidableEq, Repr

namespace Decimal

/-- What happens to a number that lies in the middle between two decimals. -/
inductive Tie where
  /-- The larger of the two is taken. -/
  | up
  /-- The one with an even last digit is taken. -/
  | even
  deriving DecidableEq, Repr

/-- The reals that round to a binary number, as multiples of a common unit `scale / unit`:
the number itself, the ends of the interval, and whether the ends belong to it. -/
structure Interval where
  /-- The lower end. -/
  low : Nat
  /-- The number. -/
  mid : Nat
  /-- The upper end. -/
  high : Nat
  /-- The numerator of the unit. -/
  scale : Nat
  /-- The denominator of the unit. -/
  unit : Nat
  /-- Whether the ends read back too. -/
  closed : Bool

namespace Interval

/-- The reals that round to `m · 2^q`. Below a power of two the neighbours are closer, so
the lower half step is half as long there, as `narrow` says. -/
def ofBinary (m : Nat) (q : Int) (narrow : Bool) : Interval where
  low := if narrow then 4 * m - 1 else 4 * m - 2
  mid := 4 * m
  high := 4 * m + 2
  scale := Nat.pow 2 (q - 2).toNat
  unit := Nat.pow 2 (2 - q).toNat
  closed := m % 2 == 0

/-- Whether a bound holds, strictly unless the ends of the interval belong to it. -/
def within (i : Interval) (a b : Nat) : Bool := if i.closed then a ≤ b else a < b

/-- The point of the grid of multiples of `10^g` that lies in the interval and is nearest to
the number, if there is one: one of the number's two neighbours on the grid. -/
def nearest? (i : Interval) (tie : Tie) (g : Int) : Option Nat :=
  let numer := i.scale * Nat.pow 10 (-g).toNat
  let denom := i.unit * Nat.pow 10 g.toNat
  let below := i.mid * numer / denom
  let above := below + 1
  let belowFits := i.within (i.low * numer) (below * denom)
  let aboveFits := i.within (above * denom) (i.high * numer)
  let toBelow := i.mid * numer - below * denom
  let toAbove := above * denom - i.mid * numer
  if belowFits && aboveFits then
    if toBelow < toAbove then some below
    else if toAbove < toBelow then some above
    else match tie with
      | .up => some above
      | .even => if below % 2 = 0 then some below else some above
  else if belowFits then some below
  else if aboveFits then some above
  else none

/-- Searches the grids `10^g`, `10^(g-1)`, … for a point of the interval. -/
def search (i : Interval) (tie : Tie) : Nat → Int → Decimal
  | 0, g => ⟨i.mid * i.scale * Nat.pow 10 (-g).toNat / (i.unit * Nat.pow 10 g.toNat), g⟩
  | steps + 1, g =>
    match i.nearest? tie g with
    | some c => ⟨c, g⟩
    | none => search i tie steps (g - 1)

end Interval

/-- The shortest decimal that reads back as `m · 2^q`, and of those the nearest. The first
grid is a power of ten above the number; seventeen digits always suffice. -/
def shortest (tie : Tie) (m : Nat) (q : Int) (narrow : Bool) : Decimal :=
  let top : Int := (((m.log2 : Int) + q + 1) * 30103).fdiv 100000 + 1
  (Interval.ofBinary m q narrow).search tie 20 top

/-- The shortest decimal of the size of a finite number. -/
def ofFloat (tie : Tie) (x : Float) : Decimal :=
  let bits : Nat := x.toBits.toNat
  let fraction : Nat := bits % Nat.pow 2 52
  let exponent : Nat := bits / Nat.pow 2 52 % Nat.pow 2 11
  if exponent = 0 then
    if fraction = 0 then ⟨0, 0⟩ else shortest tie fraction (-1074) false
  else
    shortest tie (Nat.pow 2 52 + fraction) ((exponent : Int) - 1075) (fraction == 0 && exponent > 1)

end Decimal

end SchemaCatalog
