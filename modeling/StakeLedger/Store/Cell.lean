import StakeLedger.Amount
import StakeLedger.Binary64
import StakeLedger.Text.Decimal

/-
  Values of the store's integer columns.
  An integer column holds integers of 64 signed bits. A text put into it becomes the integer
  that it writes, if it writes one of that range. One that writes another decimal becomes the
  double nearest to it, and this an integer again if it is one of that range. Any other text
  stays a text. Numbers come before texts; numbers are in their own order, texts in the order
  of their characters.
-/

namespace StakeLedger

-- Powers of naturals are those of core, whatever else is imported.
attribute [local instance (high)] instPowNat

/-- A value of an integer column. -/
inductive Cell where
  | int (n : Int)
  /-- A number that is no integer of 64 signed bits. -/
  | real (x : Binary64)
  | text (s : String)
  deriving DecidableEq, Repr

namespace Cell

/-- Does an integer fit an integer column? -/
def fits (n : Int) : Bool := signedMin ≤ n && n ≤ signedMax

/-- The cell of an integer, which must fit. -/
def ofInt (n : Int) : Except Fault Cell :=
  if fits n then .ok (.int n) else .error .cellTooLarge

/-- The cell of a double. The least integer stays a double. -/
def ofReal (x : Binary64) : Cell :=
  match x.integer? with
  | some n => if fits n && n ≠ signedMin then .int n else .real x
  | none => .real x

/-- The blanks that may stand around a number in a text. -/
def isSpace (c : Char) : Bool :=
  c = ' ' || (0x09 ≤ c.toNat && c.toNat ≤ 0x0D)

/-- The integer that ASCII digits write behind an optional sign. -/
def integer? (cs : List Char) : Option Int :=
  let (negative, body) := Text.splitSign cs
  if body.isEmpty || body.any (!·.isDigit) then none
  else
    some (Binary64.signed negative (Text.valueOfDigits (body.map fun c => c.toNat - 0x30)))

/-- The double nearest to the decimal that ASCII digits write behind an optional sign. -/
def decimal? (cs : List Char) : Option Binary64 :=
  let (negative, body) := Text.splitSign cs
  (Text.readUnsigned Text.asciiDigit? body).map fun x =>
    .ofFloat (if negative then -x else x)

/-- The cell of a text. -/
def ofText (s : String) : Cell :=
  let cs := Text.trimBy isSpace s.toList
  match (integer? cs).filter fits, decimal? cs with
  | some n, _ => .int n
  | none, some x => ofReal x
  | none, none => .text s

/-- Reads the integer of a text column. -/
def readText (s : String) : Except Fault Int :=
  match Text.readInt s with
  | .ok n => .ok n
  | .error .malformed => .error (.malformedInteger s)
  | .error (.tooLong digits) => .error (.integerTooLong digits)

/-- The whole part of a double. -/
def wholePart : Binary64 → Except Fault Int
  | .finite negative mantissa exponent =>
    .ok (Binary64.signed negative (Binary64.truncate mantissa exponent))
  | .infinite _ => .error .wholeOfInfinite
  | .nan _ => .error .wholeOfUndefined

/-- Reads the integer of a cell; of another number it is the whole part. -/
def read : Cell → Except Fault Int
  | .int n => .ok n
  | .real x => wholePart x
  | .text s => readText s

/-- Reads the flag of a cell: any number but zero, and any text but the empty one, is set. -/
def flag : Cell → Bool
  | .int n => n ≠ 0
  | .real x => x.inUnits ≠ 0
  | .text s => s ≠ ""

/-- The cell of a flag. -/
def ofFlag (b : Bool) : Cell := .int (if b then 1 else 0)

/-- An integer in the units of the least double. -/
def inUnits (n : Int) : Int := n * ((2 ^ Binary64.unitExponent : Nat) : Int)

/-- Does a cell come before another? -/
def before : Cell → Cell → Bool
  | .int m, .int n => m < n
  | .int m, .real y => inUnits m < y.inUnits
  | .real x, .int n => x.inUnits < inUnits n
  | .real x, .real y => x.inUnits < y.inUnits
  | .text s, .text t => s < t
  | _, .text _ => true
  | .text _, _ => false

end Cell

end StakeLedger
