import StakeLedger.Binary64
import StakeLedger.Calendar
import StakeLedger.Fault
import StakeLedger.Log.Context
import StakeLedger.Log.Level
import StakeLedger.Text.Decimal

/-
  Log records and the line that shows one.
  A record shows, in this order, its time, level, logger and message, then its own extra
  fields, then the bound fields of its context, then the fault that it tells of. A field whose
  name is already there takes the place of the earlier one.
-/

namespace StakeLedger.Log

/-- The trouble that a record tells of: an error, the fact that there is none, or the text of
an earlier trace. -/
inductive Trouble where
  | error (label message : String) (code : Option FaultCode)
  | nothing
  | earlier (trace : String)
  deriving DecidableEq, Repr

namespace Trouble

/-- The trouble of a fault. -/
def ofFault (f : Fault) : Trouble := .error f.label f.message f.code?

/-- The message of an error as it is shown: a missing key stands in quotation marks. -/
def shownMessage (label message : String) : String :=
  if label = "KeyError" then Text.quote message else message

/-- The text of an error: its qualified name, and its message unless that is empty. -/
def trace (label message : String) (code : Option FaultCode) : String :=
  (if code.isSome then "vehnt.domain.errors." else "") ++ label
    ++ (if message = "" then "" else ": " ++ message)

/-- The fields that a record shows of a trouble. -/
def fields : Trouble → List (String × Json)
  | .error label message code =>
    let message := shownMessage label message
    [("error_type", .text label), ("error_message", .text message)]
      ++ (code.map fun code => ("error_code", Json.text code.text)).toList
      ++ [("traceback", .text (trace label message code))]
  | .nothing => [("traceback", .text "NoneType: None")]
  | .earlier trace => if trace = "" then [] else [("traceback", .text trace)]

end Trouble

/-- A log record. -/
structure Record where
  level : Int
  logger : String
  message : String
  extra : List (String × Json) := []
  context : Context := {}
  trouble : Option Trouble := none

namespace Record

/-- The fields that a record shows, with the text of its time. -/
def fields (r : Record) (time : String) : List (String × Json) :=
  let own : List (String × Json) :=
    [("timestamp", .text time), ("level", .text (Level.text r.level)),
      ("logger", .text r.logger), ("message", .text r.message)]
  let trouble := (r.trouble.map Trouble.fields).getD []
  Json.putAll (Json.putAll (Json.putAll own r.extra) r.context.fields) trouble

/-- The fields that do not depend on the time or on the place in the program. -/
def lasting (r : Record) : List (String × Json) :=
  (r.fields "").filter fun field => field.1 ≠ "timestamp" && field.1 ≠ "traceback"

end Record

/-- The microseconds of a fraction of a second: the product is a double, rounded to an
integer. -/
def fractionMicros (fraction : Float) : Nat :=
  match Binary64.ofFloat (fraction * 1000000) with
  | .finite _ mantissa exponent => Binary64.nearest mantissa exponent
  | _ => 0

/-- The microseconds that a clock shows at a time in microseconds, when it keeps seconds as a
double. -/
def clockMicros (micros : Int) : Except Fault Int :=
  let seconds := Text.nearest micros.natAbs (-6)
  match Binary64.ofFloat seconds with
  | .finite _ mantissa exponent =>
    let whole := Binary64.truncate mantissa exponent
    let shown : Int :=
      1000000 * whole + fractionMicros (seconds - Float.ofScientific whole false 0)
    .ok (if micros < 0 then -shown else shown)
  | _ => .error .quotientTooLarge

/-- The year as a machine integer of 32 bits shows it. -/
def shownYear (year : Int) : Int := year.bmod 4294967296

/-- The instant that holds a unix time. The machine's calendar counts years from 1900 in 32
bits and seconds in 64, and an instant lies in the years 1 to 9999. -/
def instantOf (time : Int) : Except Fault Instant :=
  let instant := Instant.ofUnix time
  let year := instant.date.year
  if time < -9223372036854775808 ∨ 9223372036854775807 < time then .error .timeTooWide
  else if year - 1900 < -2147483648 ∨ 2147483647 < year - 1900 then .error .yearTooWide
  else if year < 1 ∨ 9999 < year then .error (.yearOutOfRange (shownYear year))
  else .ok instant

/-- The text of a time in microseconds; a fraction of a second has six digits, or none if it is
zero. -/
def stamp (micros : Int) : Except Fault String := do
  let shown ← clockMicros micros
  let fraction := (shown % 1000000).toNat
  let instant ← instantOf (shown / 1000000)
  pure (instant.text
    ++ (if fraction = 0 then "" else "." ++ Instant.padded 6 fraction) ++ "+00:00")

/-- The line of a record written at a time in microseconds. -/
def Record.line (r : Record) (micros : Int) : Except Fault String := do
  let time ← stamp micros
  (Json.object (r.fields time)).write

end StakeLedger.Log
