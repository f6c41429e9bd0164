import StakeLedger.Binary64
import StakeLedger.MailDate
import StakeLedger.Text.Decimal

/-
  The delay that a service asks for in a header: seconds as a decimal, or a date.
  A negative number of seconds, one that is not a number, and a text that is neither number nor
  date mean that nothing was asked for. A date in the past means no delay.
-/

namespace StakeLedger.RetryAfter

/-- The seconds from a time in milliseconds until a time in seconds, at least zero. -/
def secondsUntil (time nowMs : Int) : Float :=
  let wait := time * 1000 - nowMs
  if wait ≤ 0 then 0 else Text.nearest wait.toNat (-3)

/-- The seconds asked for by a trimmed text that is no number. -/
def readDate (nowMs : Int) (s : String) : Except Fault (Option Float) :=
  (MailDate.read? s).map fun time => time.map (secondsUntil · nowMs)

/-- The seconds that a header asks for, when it arrives at the given time. -/
def read (nowMs : Int) (header : Option String) : Except Fault (Option Float) :=
  match header.map Text.trimBlank with
  | none => .ok none
  | some s =>
    if s = "" then .ok none
    else
      match Text.readFloat? s with
      | some x => .ok (if (Binary64.ofFloat x).isNonnegative then some x else none)
      | none => readDate nowMs s

end StakeLedger.RetryAfter
