import StakeLedger.Binary64
import StakeLedger.Text.Decimal

/-
  Values of settings, read from text.
  An integer has an optional sign and ASCII digits, with single underscores between digits; a
  fraction of zeros may follow. Zeros may lead, and a minus sign may stand behind them if no
  minus sign stands in front. The digits are counted without leading zeros and underscores.
  A number is a decimal fraction. A flag is one of a few words, in any case, with nothing
  around it.
-/

namespace StakeLedger.Settings

/-- Why a text is not a value, or a value not a setting. -/
inductive Problem where
  | notInteger
  | integerTooLong
  | notFlag
  | notNumber
  | negativeFollowup
  | noAttempts
  deriving DecidableEq, Repr

namespace Problem

/-- The kind of a problem. -/
def kind : Problem → String
  | .notInteger => "int_parsing"
  | .integerTooLong => "int_parsing_size"
  | .notFlag => "bool_parsing"
  | .notNumber => "float_parsing"
  | .negativeFollowup => "value_error"
  | .noAttempts => "value_error"

/-- The message of a problem. -/
def message : Problem → String
  | .notInteger => "Input should be a valid integer, unable to parse string as an integer"
  | .integerTooLong =>
    "Unable to parse input string as an integer, exceeded maximum size"
  | .notFlag => "Input should be a valid boolean, unable to interpret input"
  | .notNumber => "Input should be a valid number, unable to parse string as a number"
  | .negativeFollowup => "Value error, PURGE_FOLLOWUP_OFFSET_SECONDS must be >= 0"
  | .noAttempts => "Value error, SCHEDULER_MAX_ATTEMPTS must be >= 1"

end Problem

/-- Whether an integer has a minus sign in front, and its body behind the sign; no minus sign
follows a plus sign. -/
def splitMinus : List Char → Option (Bool × List Char)
  | '-' :: rest => some (true, rest)
  | '+' :: '-' :: _ => none
  | '+' :: rest => some (false, rest)
  | cs => some (false, cs)

/-- May the character begin what is left behind leading zeros? -/
def beginsBody (c : Char) : Bool := c = '-' || c.isDigit

/-- What is left behind leading zeros and underscores, of which `last` is the one just passed:
it is kept where nothing or a point follows. -/
def skipZeros (last : Char) : List Char → Option (List Char)
  | [] => some [last]
  | c :: rest =>
    if c = '0' ∨ c = '_' then skipZeros c rest
    else if c = '.' then some (last :: '.' :: rest)
    else if beginsBody c then some (c :: rest)
    else none

/-- The body of an integer without leading zeros. -/
def dropLeadingZeros : List Char → Option (List Char)
  | [] => none
  | c :: rest =>
    if c = '0' then skipZeros c rest
    else if beginsBody c then some (c :: rest)
    else none

/-- The body of an integer without a fraction of zeros. -/
def dropZeroFraction (cs : List Char) : List Char :=
  match cs.dropWhile (· ≠ '.') with
  | '.' :: zero :: rest =>
    if (zero :: rest).all (· = '0') then cs.takeWhile (· ≠ '.') else cs
  | _ => cs

/-- Does an underscore follow an underscore? -/
def hasDoubleUnderscore : List Char → Bool
  | '_' :: '_' :: _ => true
  | _ :: rest => hasDoubleUnderscore rest
  | [] => false

/-- The text without underscores, which stand neither at an end nor side by side. -/
def dropUnderscores (cs : List Char) : Option (List Char) :=
  if cs.head? = some '_' ∨ cs.getLast? = some '_' ∨ hasDoubleUnderscore cs then none
  else some (cs.filter (· ≠ '_'))

/-- The number that plain digits write, without leading zeros. -/
def plainNumber (cs : List Char) : Except Problem Nat :=
  let digits := cs.takeWhile Char.isDigit
  if digits = [] ∨ (digits.head? = some '0' ∧ digits ≠ ['0']) then .error .notInteger
  else if Text.digitLimit < digits.length then .error .integerTooLong
  else if digits.length < cs.length then .error .notInteger
  else .ok (Text.valueOfDigits (digits.map fun c => c.toNat - 0x30))

/-- The integer that a body without leading zeros writes; a minus sign in front of it stands
for the one in front of the zeros. -/
def readBody (negative : Bool) (body : List Char) : Except Problem Int :=
  let whole := dropZeroFraction body
  let plain := (dropUnderscores whole).getD whole
  match negative, plain with
  | false, '-' :: digits => (plainNumber digits).map fun n => -(n : Int)
  | _, digits => (plainNumber digits).map fun n => if negative then -(n : Int) else n

/-- Reads an integer. -/
def readInteger (s : String) : Except Problem Int :=
  match splitMinus (Text.trimBy Text.isWhite s.toList) with
  | none => .error .notInteger
  | some (negative, cs) =>
    match dropLeadingZeros cs with
    | none => .error .notInteger
    | some body => readBody negative body

/-- A decimal as a double; one that is not a number keeps its sign. -/
def decimal? (cs : List Char) : Option Binary64 :=
  (Text.readSigned Text.asciiDigit? cs).map fun x =>
    match Binary64.ofFloat x with
    | .nan _ => .nan (Text.splitSign cs).1
    | double => double

/-- Reads a number. -/
def readNumber (s : String) : Except Problem Binary64 :=
  let trimmed := decimal? (Text.trimBy Text.isWhite s.toList)
  match trimmed.or ((dropUnderscores s.toList).bind decimal?) with
  | some x => .ok x
  | none => .error .notNumber

/-- Reads a flag. -/
def readFlag (s : String) : Except Problem Bool :=
  let word := String.ofList (s.toList.map Char.toLower)
  if ["1", "t", "true", "y", "yes", "on"].contains word then .ok true
  else if ["0", "f", "false", "n", "no", "off"].contains word then .ok false
  else .error .notFlag

end StakeLedger.Settings
