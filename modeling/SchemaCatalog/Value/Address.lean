import SchemaCatalog.Text.Hex

/-!
# Internet addresses and unique identifiers
-/

namespace SchemaCatalog

/-- An address of either version of the internet protocol. -/
inductive IpAddress where
  /-- Four octets. -/
  | v4 (octets : Vector UInt8 4)
  /-- Sixteen octets. -/
  | v6 (octets : Vector UInt8 16)
  deriving DecidableEq, Inhabited

namespace IpAddress

/-- The octets of an address. -/
def octets : IpAddress → List UInt8
  | v4 o => o.toList
  | v6 o => o.toList

/-- Octets in decimal, with points between them. -/
def dotted (octets : List UInt8) : String :=
  ".".intercalate (octets.map fun o => toString o.toNat)

/-- The 16-bit groups of a list of octets. -/
def groups : List UInt8 → List Nat
  | a :: b :: rest => (a.toNat * 256 + b.toNat) :: groups rest
  | _ => []

/-- Groups in hexadecimal, with colons between them. -/
def colons (gs : List Nat) : String := ":".intercalate (gs.map Text.hexNat)

/-- The number of zeros at the start of a list of groups. -/
def leadingZeros (gs : List Nat) : Nat := (gs.takeWhile (· = 0)).length

/-- The start and length of the longest run of zeros, the first of several; `best` is the
longest run before position `i`. -/
def longestZeros (best : Nat × Nat) (i : Nat) : List Nat → Nat × Nat
  | [] => best
  | g :: gs =>
    let n := leadingZeros (g :: gs)
    longestZeros (if best.2 < n then (i, n) else best) (i + 1) gs

/-- Groups with their longest run of at least two zeros left out. -/
def compressed (gs : List Nat) : String :=
  let (start, length) := longestZeros (0, 0) 0 gs
  if length > 1 then colons (gs.take start) ++ "::" ++ colons (gs.drop (start + length))
  else colons gs

/-- The text of an address. An address of version 6 that stands for one of version 4 shows
that one. -/
def toText : IpAddress → String
  | v4 o => dotted o.toList
  | v6 o =>
    let gs := groups o.toList
    if gs.take 6 = [0, 0, 0, 0, 0, 0xffff] then "::ffff:" ++ dotted (o.toList.drop 12)
    else compressed gs

end IpAddress

/-- A universally unique identifier. -/
structure Uuid where
  /-- The sixteen octets. -/
  octets : Vector UInt8 16
  deriving DecidableEq, Inhabited

namespace Uuid

/-- The digits of an identifier in groups of 8, 4, 4, 4 and 12. -/
def toText (u : Uuid) : String :=
  let part (start length : Nat) : String := Text.hex ((u.octets.toList.drop start).take length)
  "-".intercalate [part 0 4, part 4 2, part 6 2, part 8 2, part 10 6]

/-- The octet that begins with the version is one of the sixteen. -/
theorem version_lt : 6 < 16 := by decide

/-- The octet that begins with the variant is one of the sixteen. -/
theorem variant_lt : 8 < 16 := by decide

/-- Whether an identifier is a random one: version 4 of the standard variant. -/
def isRandom (u : Uuid) : Bool :=
  u.octets.get ⟨6, version_lt⟩ >>> 4 == 4 && u.octets.get ⟨8, variant_lt⟩ >>> 6 == 2

end Uuid

end SchemaCatalog
