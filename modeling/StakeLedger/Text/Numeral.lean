import StakeLedger.Text.Blank
import StakeLedger.Text.DecimalDigit

/-
  Integers in decimal.
  Written: a minus sign for negative numbers, then ASCII digits without leading zeros.
  Read: white characters around the numeral, one optional sign, decimal digits of any script,
  and single underscores between digits. A numeral of more than `digitLimit` digits is
  refused, whatever follows the digits.
-/

namespace StakeLedger.Text

-- Powers of naturals are those of core, whatever else is imported.
attribute [local instance (high)] instPowNat

/-- The most digits that a numeral may have, written or read. -/
def digitLimit : Nat := 4300

/-- The numeral of an integer. -/
def writeInt (n : Int) : String := toString n

/-- Has the integer a numeral within the limit? -/
def fitsNumeral (n : Int) : Bool := n.natAbs < 10 ^ digitLimit

/-- Why a text is no numeral. -/
inductive NumeralRefusal where
  | malformed
  | tooLong (digits : Nat)
  deriving DecidableEq, Repr

/-- The digits of a numeral's body, most significant first; `afterDigit` says whether an
underscore may stand here. -/
def bodyDigits (afterDigit : Bool) : List Char → Option (List Nat)
  | [] => if afterDigit then some [] else none
  | c :: rest =>
    match digitValue? c with
    | some d => (bodyDigits true rest).map (d :: ·)
    | none => if c = '_' ∧ afterDigit then bodyDigits false rest else none

/-- The number that a list of digits writes, most significant first. -/
def valueOfDigits (ds : List Nat) : Nat :=
  ds.foldl (fun n d => 10 * n + d) 0

/-- A sign in front of a numeral, and what follows it. -/
def splitSign : List Char → Bool × List Char
  | '-' :: rest => (true, rest)
  | '+' :: rest => (false, rest)
  | cs => (false, cs)

/-- Reads the unsigned part of a numeral. -/
def readBody (body : List Char) : Except NumeralRefusal Nat :=
  let run := body.takeWhile fun c => isDecimalDigit c || c = '_'
  match bodyDigits false run with
  | none => .error .malformed
  | some ds =>
    if digitLimit < ds.length then .error (.tooLong ds.length)
    else if run.length = body.length then .ok (valueOfDigits ds)
    else .error .malformed

/-- Reads a numeral. -/
def readInt (s : String) : Except NumeralRefusal Int :=
  let (negative, body) := splitSign (trimBy isWhite s.toList)
  (readBody body).map fun n => if negative then -(n : Int) else n

end StakeLedger.Text
