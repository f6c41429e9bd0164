import StakeLedger.Address.Problem
import StakeLedger.Json
import StakeLedger.Text.Numeral

/-
  Every way in which an operation of the library can fail, one constructor a cause.
  A fault has a class, which is what log records and answers show of it, a message, and for
  faults of the staking domain a code with details. A number too long for a numeral cannot be
  shown: a fault about such a number is shown as the fault of writing it.
-/

namespace StakeLedger

/-- Codes of the faults of the staking domain. -/
inductive FaultCode where
  | arithmetic
  | alreadyFinalized
  | alreadyClosed
  | votingPower
  | schedule
  | positionNotFound
  | poolNotFound
  | lockupNotFound
  | scheduler
  deriving DecidableEq, Repr

/-- The text of a code. -/
def FaultCode.text : FaultCode → String
  | .arithmetic => "ARITHMETIC_ERROR"
  | .alreadyFinalized => "POSITION_ALREADY_FINALIZED"
  | .alreadyClosed => "POSITION_ALREADY_CLOSED"
  | .votingPower => "FAILED_VOTING_POWER_CALCULATION"
  | .schedule => "INVALID_SCHEDULE"
  | .positionNotFound => "POSITION_NOT_FOUND"
  | .poolNotFound => "POOL_NOT_FOUND"
  | .lockupNotFound => "LOCKUP_NOT_FOUND"
  | .scheduler => "SCHEDULER_UNAVAILABLE"

/-- All codes. -/
def FaultCode.all : List FaultCode :=
  [.arithmetic, .alreadyFinalized, .alreadyClosed, .votingPower, .schedule, .positionNotFound,
    .poolNotFound, .lockupNotFound, .scheduler]

/-- The class of a fault: one of the staking domain with its code, or a general one. -/
inductive FaultClass where
  | staking (code : FaultCode)
  | value
  | type
  | overflow
  | permission
  | runtime
  /-- A fault of the machine's calendar. -/
  | machine
  /-- A fault in the address of a service. -/
  | address
  /-- A store that cannot be opened. -/
  | storeOpening
  /-- A file that is no store. -/
  | storeFormat
  /-- A value that no column takes. -/
  | storeValue
  deriving DecidableEq, Repr

/-- The name under which answers and log records show a class. -/
def FaultClass.label : FaultClass → String
  | .staking .arithmetic => "LedgerArithmeticError"
  | .staking .alreadyFinalized => "PositionAlreadyFinalizedError"
  | .staking .alreadyClosed => "PositionAlreadyClosedError"
  | .staking .votingPower => "FailedVotingPowerCalculationError"
  | .staking .schedule => "ScheduleBuildError"
  | .staking .positionNotFound => "RecordNotFoundError"
  | .staking .poolNotFound => "RecordNotFoundError"
  | .staking .lockupNotFound => "RecordNotFoundError"
  | .staking .scheduler => "SchedulerUnavailableError"
  | .value => "ValueError"
  | .type => "TypeError"
  | .overflow => "OverflowError"
  | .permission => "PermissionError"
  | .runtime => "RuntimeError"
  | .machine => "OSError"
  | .address => "InvalidURL"
  | .storeOpening => "OperationalError"
  | .storeFormat => "DatabaseError"
  | .storeValue => "ProgrammingError"

/-- The tables of the store, by the name that faults and log records show. -/
inductive TableName where
  | pools
  | positions
  | lockups
  deriving DecidableEq, Repr

/-- The text of a table's name. -/
def TableName.text : TableName → String
  | .pools => "pools"
  | .positions => "positions"
  | .lockups => "lockups"

/-- What an operator is applied to: a number, or the empty list of an option without a value. -/
inductive Operand where
  | number
  | list
  deriving DecidableEq, Repr

/-- The text of an operand's type. -/
def Operand.text : Operand → String
  | .number => "int"
  | .list => "list"

/-- A cause of failure. -/
inductive Fault where
  /-- An amount outside the unsigned 64-bit range. -/
  | outOfRange (field : String) (value : Int)
  /-- A product outside the signed 64-bit range. -/
  | productTooLarge (field : String) (value : Int)
  /-- A time before the first epoch. -/
  | beforeEpochs (time : Int)
  /-- A pool asked for a time before its last calculation. -/
  | clockBackwards (now asOf : Int)
  | alreadyFinalized (position : String)
  | alreadyClosed (position : String)
  /-- A locked weight above the most that the mint grants. -/
  | lockedAboveMost (locked most : Int)
  /-- A voting power outside the unsigned 64-bit range. -/
  | powerTooLarge (baseline locked : Int)
  /-- A time outside the years 1 to 9999. -/
  | noSuchInstant (execution offset : Int)
  | unknownPosition (position : String)
  | unknownPool (pool : String)
  | unknownLockup (position : String) (index : Int)
  /-- The trigger service refused a request. -/
  | triggerRejected (key : String) (status : Int) (body : String)
  /-- The trigger service gave no conclusive answer in all attempts. -/
  | triggerUnanswered (key : String) (attempts : Int)
  /-- No trigger service is configured. -/
  | noTriggerService
  | unknownKind (text : String)
  | unknownCode (text : String)
  | lockupReversed (start stop : Int)
  | indexOutOfRange (index : Int)
  | closedUnfinalized (position : String)
  /-- A text that is no numeral. -/
  | malformedInteger (text : String)
  /-- A numeral with too many digits. -/
  | integerTooLong (digits : Nat)
  | poolExists (pool : String)
  | positionExists (position : String)
  | finalizedReopened (position : String)
  | closedReopened (position : String)
  | noAttempts
  | negativeDelay
  /-- An integer outside the signed 64-bit range of an integer column. -/
  | cellTooLarge
  /-- A write in a read-only unit of work. -/
  | writeBlocked (table : TableName)
  /-- A unit of work interrupted on purpose. -/
  | interrupted (message : String)
  /-- The whole part of an infinite number. -/
  | wholeOfInfinite
  /-- The whole part of what is not a number. -/
  | wholeOfUndefined
  /-- A delay beyond the range of doubles. -/
  | delayTooLarge
  /-- A field of a date beyond the machine's integers: `wide` is beyond 64 bits. -/
  | dateFieldTooLarge (wide negative : Bool)
  /-- A zone offset of more days than the machine's integers hold. -/
  | zoneTooLarge
  /-- A zone offset of more days than a span of time may have. -/
  | zoneTooLong (days : Int)
  /-- An integer with more digits than a numeral may have. -/
  | numeralTooLong
  /-- A time outside the years 1 to 9999, in the year that is shown. -/
  | yearOutOfRange (year : Int)
  /-- A time whose year is beyond the machine's calendar. -/
  | yearTooWide
  /-- A time beyond the machine's integers. -/
  | timeTooWide
  /-- A quotient beyond the range of doubles. -/
  | quotientTooLarge
  | badAddress (problem : Address.Problem)
  /-- An address without a scheme. -/
  | unknownScheme (address : String)
  | storeUnopened
  | notStore
  /-- A path with the character of code zero in it. -/
  | pathWithZero
  /-- A list in the place of a path. -/
  | pathNotText
  /-- A list in the place of a value to be stored; its place counts from one. -/
  | notStorable (place : Nat)
  /-- A list in the place of the kind of a lockup. -/
  | kindNotText
  /-- Operands that an operator does not take. -/
  | badOperands (operator : String) (left right : Operand)
  /-- Operands that have no order. -/
  | notComparable (operator : String) (left right : Operand)
  /-- A list with a minus sign. -/
  | notNegatable
  /-- A number added to a list. -/
  | notJoinable
  /-- A list times a list. -/
  | notMultipliable
  /-- A list times an integer beyond the machine's. -/
  | repetitionTooLarge
  deriving DecidableEq, Repr

namespace Fault

/-- The class of a fault. -/
def kind : Fault → FaultClass
  | .outOfRange _ value => if Text.fitsNumeral value then .staking .arithmetic else .value
  | .productTooLarge _ value => if Text.fitsNumeral value then .staking .arithmetic else .value
  | .beforeEpochs _ => .staking .arithmetic
  | .clockBackwards _ _ => .staking .arithmetic
  | .alreadyFinalized _ => .staking .alreadyFinalized
  | .alreadyClosed _ => .staking .alreadyClosed
  | .lockedAboveMost _ _ => .staking .votingPower
  | .powerTooLarge _ _ => .staking .votingPower
  | .noSuchInstant _ _ => .staking .schedule
  | .unknownPosition _ => .staking .positionNotFound
  | .unknownPool _ => .staking .poolNotFound
  | .unknownLockup _ _ => .staking .lockupNotFound
  | .triggerRejected _ _ _ => .staking .scheduler
  | .triggerUnanswered _ _ => .staking .scheduler
  | .noTriggerService => .staking .scheduler
  | .unknownKind _ => .value
  | .unknownCode _ => .value
  | .lockupReversed _ _ => .value
  | .indexOutOfRange _ => .value
  | .closedUnfinalized _ => .value
  | .malformedInteger _ => .value
  | .integerTooLong _ => .value
  | .poolExists _ => .value
  | .positionExists _ => .value
  | .finalizedReopened _ => .value
  | .closedReopened _ => .value
  | .noAttempts => .value
  | .negativeDelay => .value
  | .cellTooLarge => .overflow
  | .writeBlocked _ => .permission
  | .interrupted _ => .runtime
  | .wholeOfInfinite => .overflow
  | .wholeOfUndefined => .value
  | .delayTooLarge => .overflow
  | .dateFieldTooLarge _ _ => .overflow
  | .zoneTooLarge => .overflow
  | .zoneTooLong _ => .overflow
  | .numeralTooLong => .value
  | .yearOutOfRange _ => .value
  | .yearTooWide => .machine
  | .timeTooWide => .overflow
  | .quotientTooLarge => .overflow
  | .badAddress problem => if problem.isOfText then .value else .address
  | .unknownScheme _ => .value
  | .storeUnopened => .storeOpening
  | .notStore => .storeFormat
  | .pathWithZero => .value
  | .pathNotText => .type
  | .notStorable _ => .storeValue
  | .kindNotText => .value
  | .badOperands _ _ _ => .type
  | .notComparable _ _ _ => .type
  | .notNegatable => .type
  | .notJoinable => .type
  | .notMultipliable => .type
  | .repetitionTooLarge => .overflow

/-- The code of a fault of the staking domain. -/
def code? (f : Fault) : Option FaultCode :=
  match f.kind with
  | .staking code => some code
  | _ => none

/-- Is it a fault of the staking domain? -/
def isStaking (f : Fault) : Bool := f.code?.isSome

/-- What is said of a number too long for a numeral. -/
def tooLongText : String := "Exceeds the limit (4300 digits) for integer string conversion"

/-- The advice on a number too long for a numeral. -/
def limitAdvice : String := "; use sys.set_int_max_str_digits() to increase the limit"

/-- A message about some numbers, or that one of them is too long for a numeral. -/
def messageAbout (numbers : List Int) (message : String) : String :=
  if numbers.all Text.fitsNumeral then message else tooLongText ++ limitAdvice

/-- The message of a fault. -/
def message : Fault → String
  | .outOfRange field value => messageAbout [value] (field ++ " out of u64 range")
  | .productTooLarge field value => messageAbout [value] (field ++ " overflows i64")
  | .beforeEpochs _ => "epoch undefined for negative timestamp"
  | .clockBackwards _ _ => "ledger clock moved backwards"
  | .alreadyFinalized _ => "position already finalized"
  | .alreadyClosed _ => "position already closed"
  | .lockedAboveMost _ _ => "locked vote weight exceeds max extra lockup weight"
  | .powerTooLarge _ _ => "voting power overflows u64"
  | .noSuchInstant _ _ => "execution time is not a representable calendar instant"
  | .unknownPosition _ => "unknown stake position"
  | .unknownPool _ => "unknown pool"
  | .unknownLockup _ _ => "no lockup registered for deposit entry"
  | .triggerRejected _ _ _ => "scheduler rejected trigger update"
  | .triggerUnanswered _ _ => "scheduler unavailable after retries"
  | .noTriggerService => "SCHEDULER_BASE_URL is not configured; purge triggers cannot be stored"
  | .unknownKind text => Text.quote text ++ " is not a valid LockupKind"
  | .unknownCode text => Text.quote text ++ " is not a valid StakingErrorCode"
  | .lockupReversed start stop =>
    messageAbout [start, stop]
      ("lockup ends before it starts: " ++ Text.writeInt start ++ " > " ++ Text.writeInt stop)
  | .indexOutOfRange index =>
    messageAbout [index] ("deposit_entry_index out of range: " ++ Text.writeInt index)
  | .closedUnfinalized position => "closed position must be finalized: " ++ position
  | .malformedInteger text =>
    "invalid literal for int() with base 10: "
      ++ String.ofList ((Text.quote text).toList.take 200)
  | .integerTooLong digits =>
    tooLongText ++ ": value has " ++ toString digits ++ " digits" ++ limitAdvice
  | .poolExists pool => "pool already exists: " ++ pool
  | .positionExists position => "position already exists: " ++ position
  | .finalizedReopened position => "finalized position cannot be reopened: " ++ position
  | .closedReopened position => "closed position cannot be reopened: " ++ position
  | .noAttempts => "max_attempts must be >= 1"
  | .negativeDelay => "delay values must be >= 0"
  | .cellTooLarge => "Python int too large to convert to SQLite INTEGER"
  | .writeBlocked table => "UnitOfWork is read-only; " ++ table.text ++ " writes are blocked"
  | .interrupted message => message
  | .wholeOfInfinite => "cannot convert float infinity to integer"
  | .wholeOfUndefined => "cannot convert float NaN to integer"
  | .delayTooLarge => "int too large to convert to float"
  | .dateFieldTooLarge wide negative =>
    if wide then "Python int too large to convert to C long"
    else if negative then "signed integer is less than minimum"
    else "signed integer is greater than maximum"
  | .zoneTooLarge => "Python int too large to convert to C int"
  | .zoneTooLong days =>
    "days=" ++ Text.writeInt days ++ "; must have magnitude <= 999999999"
  | .numeralTooLong => tooLongText ++ limitAdvice
  | .yearOutOfRange year => "year " ++ Text.writeInt year ++ " is out of range"
  | .yearTooWide => "[Errno 75] Value too large for defined data type"
  | .timeTooWide => "timestamp out of range for platform time_t"
  | .quotientTooLarge => "integer division result too large for a float"
  | .badAddress problem => problem.message
  | .unknownScheme address => "unknown url type: " ++ Text.quote address
  | .storeUnopened => "unable to open database file"
  | .notStore => "file is not a database"
  | .pathWithZero => "embedded null byte"
  | .pathNotText => "expected str, bytes or os.PathLike object, not list"
  | .notStorable place =>
    "Error binding parameter " ++ toString place ++ ": type 'list' is not supported"
  | .kindNotText => "[] is not a valid LockupKind"
  | .badOperands operator left right =>
    "unsupported operand type(s) for " ++ operator ++ ": " ++ Text.quote left.text ++ " and "
      ++ Text.quote right.text
  | .notComparable operator left right =>
    Text.quote operator ++ " not supported between instances of " ++ Text.quote left.text
      ++ " and " ++ Text.quote right.text
  | .notNegatable => "bad operand type for unary -: 'list'"
  | .notJoinable => "can only concatenate list (not \"int\") to list"
  | .notMultipliable => "can't multiply sequence by non-int of type 'list'"
  | .repetitionTooLarge => "cannot fit 'int' into an index-sized integer"

/-- The details of a fault, in the order in which they are shown. -/
def details : Fault → List (String × Json)
  | .outOfRange field value =>
    if Text.fitsNumeral value then
      [("field", .text field), ("value", .text (Text.writeInt value))]
    else []
  | .productTooLarge field value =>
    if Text.fitsNumeral value then
      [("field", .text field), ("value", .text (Text.writeInt value))]
    else []
  | .beforeEpochs time => [("unix_timestamp", .int time)]
  | .clockBackwards now asOf => [("now", .int now), ("last_calculated_at", .int asOf)]
  | .alreadyFinalized position => [("position_id", .text position)]
  | .alreadyClosed position => [("position_id", .text position)]
  | .lockedAboveMost locked most =>
    [("locked_vote_weight", .int locked), ("max_locked_vote_weight", .int most)]
  | .powerTooLarge baseline locked =>
    [("baseline_vote_weight", .int baseline), ("locked_vote_weight", .int locked)]
  | .noSuchInstant execution offset =>
    [("execution_ts", .int execution), ("offset_seconds", .int offset)]
  | .unknownPosition position => [("position_id", .text position)]
  | .unknownPool pool => [("pool_id", .text pool)]
  | .unknownLockup position index =>
    [("position_id", .text position), ("deposit_entry_index", .int index)]
  | .triggerRejected key status body =>
    [("trigger_key", .text key), ("status_code", .int status), ("body", .text body)]
  | .triggerUnanswered key attempts =>
    [("trigger_key", .text key), ("attempts", .int attempts)]
  | _ => []

/-- The name under which answers and log records show the fault's class. -/
def label (f : Fault) : String := f.kind.label

/-- The fault of the staking domain as one object: code, message and details. -/
def payload (f : Fault) : Json :=
  let code := match f.code? with
    | some code => [("code", Json.text code.text)]
    | none => []
  .object (Json.putAll (code ++ [("message", .text f.message)]) f.details)

end Fault

/-- The code of a text. -/
def FaultCode.read (text : String) : Except Fault FaultCode :=
  match FaultCode.all.find? (·.text = text) with
  | some code => .ok code
  | none => .error (.unknownCode text)

/-- The value on one line, if all of its integers have numerals. -/
def Json.write (j : Json) : Except Fault String :=
  if j.isWritable then .ok j.line else .error .numeralTooLong

end StakeLedger
