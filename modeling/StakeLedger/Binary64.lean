/-
  Doubles taken apart into integers, and rounding to their precision.
  A finite double is `± mantissa * 2 ^ exponent`; reading it this way gives truncation without
  rounding. The product of two doubles, and the double of a large integer, are rounded to 53
  significant bits, a tie going to the even neighbour; `round53` does that on integers, so that
  products are exact until they are rounded once.
-/

namespace StakeLedger

-- Powers of naturals are those of core, whatever else is imported.
attribute [local instance (high)] instPowNat

/-- A double taken apart. -/
inductive Binary64 where
  | finite (negative : Bool) (mantissa : Nat) (exponent : Int)
  | infinite (negative : Bool)
  | nan (negative : Bool)
  deriving DecidableEq, Repr

namespace Binary64

/-- The bits of a double's fraction. -/
abbrev fractionBits : Nat := 52

/-- The bits of a double's exponent. -/
abbrev exponentBits : Nat := 11

/-- The sign of a double as the first of its bits. -/
def signBit (negative : Bool) : Nat :=
  if negative then 2 ^ (fractionBits + exponentBits) else 0

/-- The double of 64 bits: sign, exponent and fraction. -/
def ofBits (bits : Nat) : Binary64 :=
  let negative := bits / 2 ^ (fractionBits + exponentBits) == 1
  let power : Nat := bits / 2 ^ fractionBits % 2 ^ exponentBits
  let fraction : Nat := bits % 2 ^ fractionBits
  if power = 2047 then (if fraction = 0 then .infinite negative else .nan negative)
  else if power = 0 then .finite negative fraction (-1074)
  else .finite negative (2 ^ fractionBits + fraction) ((power : Int) - 1075)

/-- Takes a double apart. -/
def ofFloat (x : Float) : Binary64 := ofBits x.toBits.toNat

/-- Is the double a number of zero or more? Both zeros are. -/
def isNonnegative : Binary64 → Bool
  | .finite negative mantissa _ => !negative || mantissa = 0
  | .infinite negative => !negative
  | .nan _ => false

/-- The 64 bits of a double: sign, exponent and fraction. -/
def bits : Binary64 → Nat
  | .finite negative mantissa exponent =>
    signBit negative
      + if mantissa < 2 ^ fractionBits then mantissa
        else (exponent + 1075).toNat * 2 ^ fractionBits + (mantissa - 2 ^ fractionBits)
  | .infinite negative => signBit negative + (2 ^ exponentBits - 1) * 2 ^ fractionBits
  | .nan negative =>
    signBit negative + (2 ^ exponentBits - 1) * 2 ^ fractionBits + 2 ^ (fractionBits - 1)

/-- The integer next to `mantissa * 2 ^ exponent` towards zero. -/
def truncate (mantissa : Nat) (exponent : Int) : Nat :=
  if 0 ≤ exponent then mantissa * 2 ^ exponent.toNat else mantissa / 2 ^ (-exponent).toNat

/-- The integer nearest to `n / 2 ^ shift`, a tie going to the even one. -/
def roundShift (n shift : Nat) : Nat :=
  let low := n / 2 ^ shift
  let rest := 2 * (n % 2 ^ shift)
  if rest < 2 ^ shift ∨ (rest = 2 ^ shift ∧ low % 2 = 0) then low else low + 1

/-- The integer nearest to `mantissa * 2 ^ exponent`, a tie going to the even one. -/
def nearest (mantissa : Nat) (exponent : Int) : Nat :=
  if 0 ≤ exponent then mantissa * 2 ^ exponent.toNat
  else roundShift mantissa (-exponent).toNat

/-- The integer of 53 significant bits nearest to an integer, a tie going to the even one. -/
def round53 (n : Nat) : Nat := roundShift n (n.log2 - fractionBits) * 2 ^ (n.log2 - fractionBits)

/-- The binary exponent at which doubles end. -/
abbrev exponentEnd : Nat := 2 ^ (exponentBits - 1)

/-- The least power of two beyond all doubles. -/
def sizeLimit : Nat := 2 ^ exponentEnd

/-- A natural number with the sign of a double. -/
def signed (negative : Bool) (n : Nat) : Int := if negative then -(n : Int) else n

/-- The integer that a double is, if it is one. -/
def integer? : Binary64 → Option Int
  | .finite negative mantissa exponent =>
    if mantissa % 2 ^ (-exponent).toNat = 0 then
      some (signed negative (truncate mantissa exponent))
    else none
  | _ => none

/-- The power of two that every finite double is a multiple of, as how often it halves one. -/
abbrev unitExponent : Nat := 1074

/-- The size of a double in the units of the least one; infinity counts as the least power of
two beyond all doubles. -/
def inUnits : Binary64 → Int
  | .finite negative mantissa exponent =>
    signed negative (truncate mantissa (exponent + unitExponent))
  | .infinite negative => signed negative (2 ^ (exponentEnd + unitExponent))
  | .nan _ => 0

/-- The double nearest to an integer, if there is one. -/
def ofInt? (n : Int) : Option Float :=
  if sizeLimit ≤ round53 n.natAbs then none
  else
    let size := Float.ofScientific n.natAbs false 0
    some (if n < 0 then -size else size)

theorem roundShift_le (n shift : Nat) : roundShift n shift ≤ n / 2 ^ shift + 1 := by
  unfold roundShift
  dsimp only
  split <;> omega

end Binary64

end StakeLedger
