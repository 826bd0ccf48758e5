/-!
# Dates, times of day and lengths of time

Dates are days of the proleptic Gregorian calendar, counted from 1970-01-01. Years have at
least four digits; a year after 9999 has a plus sign, one before 0 a minus sign. The fraction
of a second has three, six or nine digits, or none when it is zero.
-/

namespace SchemaCatalog

/-- A number with at least `width` digits. -/
def padded (width n : Nat) : String :=
  let digits := toString n
  String.ofList (List.replicate (width - digits.length) '0') ++ digits

/-- A calendar date. -/
structure Date where
  /-- Days since 1970-01-01. -/
  day : Int
  deriving DecidableEq, Repr, Inhabited

namespace Date

/-- The day of a year, month and day, whether or not the month has that day. Years are
counted from March, so that a leap day is the last of its year. -/
def dayOf (year month day : Int) : Int :=
  let y := if month ≤ 2 then year - 1 else year
  let era := y / 400
  let yearOfEra := y - era * 400
  let dayOfYear := (153 * ((month + 9) % 12) + 2) / 5 + day - 1
  let dayOfEra := yearOfEra * 365 + yearOfEra / 4 - yearOfEra / 100 + dayOfYear
  era * 146097 + dayOfEra - 719468

/-- The year, month and day of a date. -/
def civil (d : Date) : Int × Int × Int :=
  let z := d.day + 719468
  let era := z / 146097
  let dayOfEra := z - era * 146097
  let yearOfEra := (dayOfEra - dayOfEra / 1460 + dayOfEra / 36524 - dayOfEra / 146096) / 365
  let dayOfYear := dayOfEra - (365 * yearOfEra + yearOfEra / 4 - yearOfEra / 100)
  let shifted := (5 * dayOfYear + 2) / 153
  let day := dayOfYear - (153 * shifted + 2) / 5 + 1
  let month := if shifted < 10 then shifted + 3 else shifted - 9
  let year := yearOfEra + era * 400
  (if month ≤ 2 then year + 1 else year, month, day)

/-- The date of a year, month and day, if there is one. -/
def ofCivil? (year month day : Int) : Option Date :=
  let d : Date := ⟨dayOf year month day⟩
  if d.civil = (year, month, day) then some d else none

/-- The text of a year. -/
def yearText (year : Int) : String :=
  let sign := if year < 0 then "-" else if year ≤ 9999 then "" else "+"
  sign ++ padded 4 year.natAbs

/-- The text of a date. -/
def toText (d : Date) : String :=
  let (year, month, day) := d.civil
  yearText year ++ "-" ++ padded 2 month.toNat ++ "-" ++ padded 2 day.toNat

end Date

/-- A time of day. -/
structure TimeOfDay where
  /-- Seconds since midnight. -/
  seconds : Nat
  /-- Nanoseconds; a thousand million and more are within a leap second that follows. -/
  nanos : Nat
  deriving DecidableEq, Repr, Inhabited

namespace TimeOfDay

/-- The nanoseconds of a second. -/
def nanosPerSecond : Nat := 1000000000

/-- The text of a fraction of a second. -/
def fractionText (nanos : Nat) : String :=
  if nanos = 0 then ""
  else if nanos % 1000000 = 0 then "." ++ padded 3 (nanos / 1000000)
  else if nanos % 1000 = 0 then "." ++ padded 6 (nanos / 1000)
  else "." ++ padded 9 nanos

/-- The text of a time of day; a leap second is second 60. -/
def toText (t : TimeOfDay) : String :=
  padded 2 (t.seconds / 3600) ++ ":" ++ padded 2 (t.seconds / 60 % 60) ++ ":"
    ++ padded 2 (t.seconds % 60 + t.nanos / nanosPerSecond)
    ++ fractionText (t.nanos % nanosPerSecond)

end TimeOfDay

/-- A date and time of day. -/
structure Timestamp where
  /-- The date. -/
  date : Date
  /-- The time of day. -/
  time : TimeOfDay
  deriving DecidableEq, Repr, Inhabited

namespace Timestamp

/-- The text of a date and time. -/
def toText (t : Timestamp) : String := t.date.toText ++ "T" ++ t.time.toText

/-- Whether a time of day is within a leap second. -/
def inLeapSecond (t : TimeOfDay) : Bool := TimeOfDay.nanosPerSecond ≤ t.nanos

/-- The nanoseconds from one time of day to another; a leap second in between counts. -/
def timeSince (t start : TimeOfDay) : Int :=
  let leap : Int :=
    if start.seconds < t.seconds && inLeapSecond start then 1
    else if t.seconds < start.seconds && inLeapSecond t then -1
    else 0
  ((t.seconds : Int) - start.seconds + leap) * TimeOfDay.nanosPerSecond +
    ((t.nanos : Int) - start.nanos)

/-- The nanoseconds from one time to another. -/
def nanosSince (t start : Timestamp) : Int :=
  (t.date.day - start.date.day) * 86400 * TimeOfDay.nanosPerSecond + timeSince t.time start.time

/-- The time a number of seconds later; the fraction of the second is kept. -/
def addSeconds (t : Timestamp) (n : Nat) : Timestamp :=
  if n = 0 then t
  else
    let total := t.time.seconds + n
    ⟨⟨t.date.day + (total / 86400 : Nat)⟩, ⟨total % 86400, t.time.nanos % TimeOfDay.nanosPerSecond⟩⟩

end Timestamp

/-- A length of time. -/
structure Interval where
  /-- The length in nanoseconds. -/
  nanos : Int
  deriving DecidableEq, Repr, Inhabited

namespace Interval

/-- A number of seconds. -/
def ofSeconds (s : Int) : Interval := ⟨s * TimeOfDay.nanosPerSecond⟩

/-- The whole seconds, without the fraction toward zero. -/
def seconds (i : Interval) : Int := i.nanos.tdiv TimeOfDay.nanosPerSecond

/-- The nanoseconds beyond the whole seconds, with the sign of the length. -/
def fraction (i : Interval) : Int := i.nanos.tmod TimeOfDay.nanosPerSecond

/-- The length as a floating point number of seconds. -/
def toFloat (i : Interval) : Float :=
  (Int64.ofInt i.seconds).toFloat + (Int64.ofInt i.fraction).toFloat / 1000000000.0

end Interval

end SchemaCatalog
