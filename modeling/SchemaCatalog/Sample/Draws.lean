import SchemaCatalog.Definition
import SchemaCatalog.Value

/-!
# Random draws

A source of randomness is a stream of numbers with a position. Every draw takes the next
number, so that the results are a function of the stream, and a law about the results holds
for every stream. `Draws.ofSeed` is a stream of 64-bit words.
-/

namespace SchemaCatalog

/-- A stream of numbers and the position of the next one. -/
structure Draws where
  /-- The numbers. -/
  word : Nat → Nat
  /-- The position. -/
  next : Nat

/-- A computation that draws. -/
abbrev Draw (α : Type) := StateM Draws α

namespace Draws

/-- Mixes the bits of a word. -/
def mixWord (x : UInt64) : UInt64 :=
  let x := (x ^^^ (x >>> 30)) * 0xBF58476D1CE4E5B9
  let x := (x ^^^ (x >>> 27)) * 0x94D049BB133111EB
  x ^^^ (x >>> 31)

/-- The stream of a seed: mixed multiples of an odd number. -/
def ofSeed (seed : Nat) : Draws :=
  ⟨fun i => (mixWord (seed.toUInt64 + (i + 1).toUInt64 * 0x9E3779B97F4A7C15)).toNat, 0⟩

/-- The number of a stream at its position, and the stream behind it. -/
def take (d : Draws) : Nat × Draws := (d.word d.next, { d with next := d.next + 1 })

end Draws

namespace Draw

/-- The next number of the stream. -/
def word : Draw Nat := Draws.take

/-- A number below a positive bound. -/
def below (bound : Nat) : Draw Nat := do
  let w ← word
  return w % bound

/-- A number between two bounds, both included. -/
def between (low high : Nat) : Draw Nat := do
  let n ← below (high - low + 1)
  return low + n

/-- The outcomes of a repeated draw. -/
def replicate {α : Type} : Nat → Draw α → Draw (List α)
  | 0, _ => return []
  | n + 1, x => do
    let a ← x
    let as ← replicate n x
    return a :: as

/-- A fair coin. -/
def coin : Draw Bool := do
  let n ← below 2
  return n = 1

/-- A fraction in units of `2^-53`, from zero to below one. -/
def fraction : Draw Nat := below (Nat.pow 2 53)

/-- A floating point number from zero to below one. -/
def unitFloat : Draw Float := do
  let n ← fraction
  return n.toUInt64.toFloat / 9007199254740992.0

/-- A decimal number from zero to a thousand, rounded to two places. -/
def cents : Draw String := do
  let n ← fraction
  let c := (n * 100000 + Nat.pow 2 52) / Nat.pow 2 53
  return toString (c / 100) ++ "." ++ padded 2 (c % 100)

/-! ### Choices -/

/-- An element of a list, if it has any. -/
def choose? {α : Type} (as : List α) : Draw (Option α) :=
  if as.isEmpty then return none
  else do
    let i ← below as.length
    return as[i]?

/-- The elements of a list in random order: each is put at a random place among those that
follow it. -/
def shuffle {α : Type} : List α → Draw (List α)
  | [] => return []
  | a :: as => do
    let bs ← shuffle as
    let i ← below (bs.length + 1)
    return bs.insertIdx i a

/-- The ASCII letters and digits. -/
def alphanumerics : List Char :=
  "ABCDEFGHIJKLMNOPQRSTUVWXYZabcdefghijklmnopqrstuvwxyz0123456789".toList

/-- An ASCII letter or digit. -/
def alphanumericChar : Draw Char := do
  let c ← choose? alphanumerics
  return c.getD 'A'

/-- A string of ASCII letters and digits with a length between two bounds; a greatest length
below the least one is raised to it. -/
def alphanumeric (least greatest : Nat) : Draw String := do
  let n ← between least (max least greatest)
  let cs ← replicate n alphanumericChar
  return String.ofList cs

/-! ### Times -/

/-- A time on a whole second between two times, the later one excluded. When the times are
less than two seconds apart it is the earlier one. -/
def timestamp (start stop : Timestamp) : Draw Timestamp := do
  let span := (stop.nanosSince start).tdiv TimeOfDay.nanosPerSecond
  let n ← below (max span.toNat 1)
  return start.addSeconds n

/-- A date between two dates, the later one excluded. When the dates are less than two days
apart it is the earlier one. -/
def date (start stop : Date) : Draw Date := do
  let n ← below (max (stop.day - start.day).toNat 1)
  return ⟨start.day + n⟩

/-- A whole second of a day. -/
def timeOfDay : Draw TimeOfDay := do
  let n ← below 86400
  return ⟨n, 0⟩

/-! ### Members of enumerations -/

/-- A value of an enumeration, if it has any. -/
def enumValue? (e : Enumeration) : Draw (Option Literal) := choose? e.values

/-- At most so many values of an enumeration, of different members, in random order. -/
def enumSubset (e : Enumeration) (greatest : Nat) : Draw (List Literal) := do
  let vs ← shuffle e.values
  let n ← between 0 greatest
  return vs.take n

/-! ### Octets -/

/-- An octet. -/
def octet : Draw UInt8 := do
  let n ← below 256
  return n.toUInt8

/-- So many octets. -/
def octets : (n : Nat) → Draw (Vector UInt8 n)
  | 0 => return #v[]
  | n + 1 => do
    let v ← octets n
    let o ← octet
    return v.push o

/-- An address of version 4. -/
def ipv4 : Draw IpAddress := do
  let o ← octets 4
  return .v4 o

/-- An address of version 6. -/
def ipv6 : Draw IpAddress := do
  let o ← octets 16
  return .v6 o

/-- A random identifier: version 4 of the standard variant. -/
def uuid : Draw Uuid := do
  let o ← octets 16
  let o := o.set 6 ((o.get ⟨6, Uuid.version_lt⟩ &&& 0x0F) ||| 0x40) Uuid.version_lt
  let o := o.set 8 ((o.get ⟨8, Uuid.variant_lt⟩ &&& 0x3F) ||| 0x80) Uuid.variant_lt
  return ⟨o⟩

end Draw

end SchemaCatalog
