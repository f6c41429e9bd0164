/-
  The proleptic Gregorian calendar and UTC instants.
  Days are counted from the first of January 1970. A date is found from its day by cutting
  off cycles of 400, 100, 4 and 1 years; the last of the four short cycles in a long one has a
  day more, so that the count of short cycles stops at three.
-/

namespace StakeLedger

/-- A date of the calendar. -/
structure Date where
  year : Int
  month : Nat
  day : Nat
  deriving DecidableEq, Repr

namespace Date

/-- Has the year a leap day? -/
def isLeap (year : Int) : Bool :=
  year % 4 = 0 && (year % 100 ≠ 0 || year % 400 = 0)

/-- The lengths of the months. -/
def monthLengths (leap : Bool) : List Nat :=
  [31, if leap then 29 else 28, 31, 30, 31, 30, 31, 31, 30, 31, 30, 31]

/-- The length of a month from 1 to 12. -/
def monthLength (leap : Bool) (month : Nat) : Nat :=
  (monthLengths leap)[month - 1]?.getD 0

/-- Is it a date of the calendar? -/
def isValid (d : Date) : Bool :=
  1 ≤ d.month && d.month ≤ 12 && 1 ≤ d.day && d.day ≤ monthLength (isLeap d.year) d.month

/-- The days before the first of January of a year, counted from that of the year 1. -/
def daysBeforeYear (year : Int) : Int :=
  let y := year - 1
  365 * y + y / 4 - y / 100 + y / 400

/-- The day of the first of January 1970, counted from that of the year 1. -/
def epochDay : Int := 719162

/-- The days before the first of a month, within its year. -/
def daysBeforeMonth (leap : Bool) (month : Nat) : Nat :=
  ((monthLengths leap).take (month - 1)).foldl (· + ·) 0

/-- The day of a date, counted from the first of January 1970. -/
def dayNumber (d : Date) : Int :=
  daysBeforeYear d.year + daysBeforeMonth (isLeap d.year) d.month + d.day - 1 - epochDay

/-- The month and day of a day of the year, counted from zero, given the lengths of the months
from `month` on. -/
def monthAndDay : Nat → List Nat → Nat → Nat × Nat
  | month, [], day => (month, day + 1)
  | month, length :: rest, day =>
    if day < length then (month, day + 1) else monthAndDay (month + 1) rest (day - length)

/-- The date of a day, counted from the first of January 1970. -/
def ofDayNumber (n : Int) : Date :=
  let day := n + epochDay
  let inCycle := day % 146097
  let centuries := min 3 (inCycle / 36524)
  let inCentury := inCycle - 36524 * centuries
  let fours := inCentury / 1461
  let inFour := inCentury - 1461 * fours
  let years := min 3 (inFour / 365)
  let inYear := inFour - 365 * years
  let year := 400 * (day / 146097) + 100 * centuries + 4 * fours + years + 1
  let (month, day) := monthAndDay 1 (monthLengths (isLeap year)) inYear.toNat
  ⟨year, month, day⟩

end Date

/-- An instant of UTC, to the second. -/
structure Instant where
  date : Date
  hour : Nat
  minute : Nat
  second : Nat
  deriving DecidableEq, Repr

namespace Instant

/-- The seconds of a day. -/
def daySeconds : Int := 86400

/-- The instant of a unix time. -/
def ofUnix (time : Int) : Instant :=
  let inDay := (time % daySeconds).toNat
  ⟨Date.ofDayNumber (time / daySeconds), inDay / 3600, inDay / 60 % 60, inDay % 60⟩

/-- The unix time of an instant. -/
def toUnix (t : Instant) : Int :=
  t.date.dayNumber * daySeconds + t.hour * 3600 + t.minute * 60 + t.second

/-- The unix time of the start of the year 1. -/
def firstUnix : Int := -62135596800

/-- The unix time of the last second of the year 9999. -/
def lastUnix : Int := 253402300799

/-- A number padded with zeros to a width. -/
def padded (width n : Nat) : String :=
  let digits := (toString n).toList
  String.ofList (List.replicate (width - digits.length) '0' ++ digits)

/-- Date and time of day, as in `1970-01-31T23:59:00`. -/
def text (t : Instant) : String :=
  padded 4 t.date.year.toNat ++ "-" ++ padded 2 t.date.month ++ "-" ++ padded 2 t.date.day ++ "T"
    ++ padded 2 t.hour ++ ":" ++ padded 2 t.minute ++ ":" ++ padded 2 t.second

end Instant

end StakeLedger
