import StakeLedger.Calendar
import StakeLedger.Fault

/-
  One-shot schedule expressions.
  The fields are second, minute, hour, day, month, day of the week and year. The second is
  zero and the day of the week is open, so that an expression matches a single minute, the one
  that holds the instant it was made for.
-/

namespace StakeLedger

/-- A schedule that fires once, at the start of one UTC minute. -/
structure OneShot where
  minute : Nat
  hour : Nat
  day : Nat
  month : Nat
  year : Int
  deriving DecidableEq, Repr

namespace OneShot

/-- The expression for the minute of an instant. -/
def ofInstant (t : Instant) : OneShot :=
  ⟨t.minute, t.hour, t.date.day, t.date.month, t.date.year⟩

/-- The expression for a time with an offset; it must lie in the years 1 to 9999. -/
def build (execution offset : Int) : Except Fault OneShot :=
  let time := execution + offset
  if Instant.firstUnix ≤ time ∧ time ≤ Instant.lastUnix then
    .ok (ofInstant (Instant.ofUnix time))
  else .error (.noSuchInstant execution offset)

/-- The instant at which the expression fires. -/
def instant (e : OneShot) : Instant :=
  ⟨⟨e.year, e.month, e.day⟩, e.hour, e.minute, 0⟩

/-- The text of the expression. -/
def text (e : OneShot) : String :=
  "0 " ++ toString e.minute ++ " " ++ toString e.hour ++ " " ++ toString e.day ++ " "
    ++ toString e.month ++ " * " ++ toString e.year

end OneShot

end StakeLedger
