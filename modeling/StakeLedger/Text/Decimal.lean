import StakeLedger.Text.Numeral

/-
  Decimal fractions read as doubles.
  The grammar: an optional sign; then one of the words inf, infinity and nan in any case, or
  digits with an optional point and more digits, at least one digit in all, and an optional
  exponent of e, an optional sign and digits. The result is the double nearest to the decimal,
  a tie going to the even mantissa.
-/

namespace StakeLedger.Text

/-- The double nearest to `m * 10 ^ e`. The two early answers only keep the powers small:
beyond them the value is above the largest double, or below half of the least. -/
def nearest (m : Nat) (e : Int) : Float :=
  if m = 0 then 0
  else if 400 < e then 1.0 / 0.0
  else if e < -400 - (m.log2 : Int) then 0
  else Float.ofScientific m (e < 0) e.natAbs

/-- The longest run of digits at the front, as values, and what follows it. -/
def splitDigits (digit : Char → Option Nat) : List Char → List Nat × List Char
  | [] => ([], [])
  | c :: rest =>
    match digit c with
    | some d => let (ds, tail) := splitDigits digit rest; (d :: ds, tail)
    | none => ([], c :: rest)

/-- Reads an exponent that must reach the end; nothing at all is the exponent zero. -/
def readExponent (digit : Char → Option Nat) : List Char → Option Int
  | [] => some 0
  | c :: rest =>
    if c = 'e' ∨ c = 'E' then
      let (negative, body) := splitSign rest
      match splitDigits digit body with
      | ([], _) => none
      | (ds, []) => some (if negative then -(valueOfDigits ds : Int) else valueOfDigits ds)
      | (_, _ :: _) => none
    else none

/-- Reads an unsigned decimal. -/
def readUnsigned (digit : Char → Option Nat) (body : List Char) : Option Float :=
  let (whole, rest) := splitDigits digit body
  let (fraction, rest) :=
    match rest with
    | '.' :: rest => splitDigits digit rest
    | rest => ([], rest)
  if whole = [] ∧ fraction = [] then none
  else (readExponent digit rest).map fun e =>
    nearest (valueOfDigits (whole ++ fraction)) (e - fraction.length)

/-- Reads a word for a value that is no number of the line. -/
def readWord (body : List Char) : Option Float :=
  let word := String.ofList (body.map Char.toLower)
  if word = "inf" ∨ word = "infinity" then some (1.0 / 0.0)
  else if word = "nan" then some (0.0 / 0.0)
  else none

/-- Reads a decimal with an optional sign. -/
def readSigned (digit : Char → Option Nat) (cs : List Char) : Option Float :=
  let (negative, body) := splitSign cs
  ((readWord body).or (readUnsigned digit body)).map fun x => if negative then -x else x

/-- The text without its underscores, each of which must stand between two digits. -/
def joinDigits (afterDigit : Bool) : List Char → Option (List Char)
  | [] => some []
  | ['_'] => none
  | '_' :: c :: rest =>
    if afterDigit ∧ isDecimalDigit c then (joinDigits true rest).map (c :: ·) else none
  | c :: rest => (joinDigits (isDecimalDigit c) rest).map (c :: ·)

/-- Reads a decimal written with the digits of any script, with white characters around it
and single underscores between digits. -/
def readFloat? (s : String) : Option Float :=
  (joinDigits false (trimBy isWhite s.toList)).bind (readSigned digitValue?)

/-- The value of an ASCII digit. -/
def asciiDigit? (c : Char) : Option Nat :=
  if c.isDigit then some (c.toNat - 0x30) else none

end StakeLedger.Text
