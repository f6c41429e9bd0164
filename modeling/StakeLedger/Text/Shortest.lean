import StakeLedger.Binary64

/-
  The text of a double with the fewest digits that read back to it.
  A decimal reads back when it lies between the midpoints to the neighbouring doubles, the
  midpoints included when the mantissa is even. For one digit, then two, and so on, the two
  decimals next to the value are tried; the first number of digits with a hit wins, of two
  hits the nearer, and on a tie the even digit. Exponents from -4 to 15 are written
  positionally, the others with a signed exponent of at least two digits.
-/

namespace StakeLedger.Text

-- Powers of naturals are those of core, whatever else is imported.
attribute [local instance (high)] instPowNat

/-- A positive double `mantissa * 2 ^ exponent`; `narrow` says that the double below is half
as far away as the double above. -/
structure PositiveDouble where
  mantissa : Nat
  exponent : Int
  narrow : Bool

/-- Compares `a * 10 ^ i` with `n * 2 ^ j`. -/
def compareScaled (a : Nat) (i : Int) (n : Nat) (j : Int) : Ordering :=
  compare (a * 10 ^ i.toNat * 2 ^ (-j).toNat) (n * 2 ^ j.toNat * 10 ^ (-i).toNat)

/-- Does `digits * 10 ^ power` round to the double? -/
def PositiveDouble.readsBack (x : PositiveDouble) (digits : Nat) (power : Int) : Bool :=
  let below := if x.narrow then 4 * x.mantissa - 1 else 4 * x.mantissa - 2
  let fromBelow := compareScaled digits power below (x.exponent - 2)
  let fromAbove := compareScaled digits power (4 * x.mantissa + 2) (x.exponent - 2)
  let ends := x.mantissa % 2 == 0
  (fromBelow == .gt || (ends && fromBelow == .eq)) &&
    (fromAbove == .lt || (ends && fromAbove == .eq))

/-- The least `k` with the value below `10 ^ k`, up to the four candidates that the binary
logarithm leaves. -/
def PositiveDouble.scale (x : PositiveDouble) : Int :=
  let low := Int.fdiv ((x.mantissa.log2 + x.exponent) * 30103) 100000
  ([low, low + 1, low + 2].find? fun k =>
    compareScaled 1 k x.mantissa x.exponent == .gt).getD (low + 3)

/-- The decimal next below the value, in units of `10 ^ power`. -/
def PositiveDouble.floorAt (x : PositiveDouble) (power : Int) : Nat :=
  x.mantissa * 2 ^ x.exponent.toNat * 10 ^ (-power).toNat /
    (2 ^ (-x.exponent).toNat * 10 ^ power.toNat)

/-- The nearer of two neighbouring decimals that both read back. -/
def PositiveDouble.nearer (x : PositiveDouble) (low : Nat) (power : Int) : Nat :=
  match compareScaled (2 * low + 1) power (2 * x.mantissa) x.exponent with
  | .gt => low
  | .lt => low + 1
  | .eq => if low % 2 = 0 then low else low + 1

/-- The decimal of `count` digits that reads back, if there is one. -/
def PositiveDouble.tryCount (x : PositiveDouble) (scale : Int) (count : Nat) :
    Option (Nat × Int) :=
  let power := scale - count
  let low := x.floorAt power
  match x.readsBack low power, x.readsBack (low + 1) power with
  | true, true => some (x.nearer low power, power)
  | true, false => some (low, power)
  | false, true => some (low + 1, power)
  | false, false => none

/-- The shortest decimal `(digits, power)` that reads back. Seventeen digits are enough for
every double; the exact lower neighbour stands in should they not be. -/
def PositiveDouble.shortest (x : PositiveDouble) : Nat × Int :=
  let scale := x.scale
  ((List.range' 1 17).findSome? (x.tryCount scale)).getD (x.floorAt (-1100), -1100)

/-- Moves trailing zeros of the digits into the power, at most `fuel` of them. -/
def dropZeros : Nat → Nat → Int → Nat × Int
  | 0, digits, power => (digits, power)
  | fuel + 1, digits, power =>
    if digits % 10 = 0 then dropZeros fuel (digits / 10) (power + 1) else (digits, power)

/-- The digits of the exponent, at least two of them. -/
def exponentText (e : Nat) : String :=
  if e < 10 then "0" ++ toString e else toString e

/-- Lays out `digits * 10 ^ power`. -/
def layout (digits : Nat) (power : Int) : String :=
  let text := (toString digits).toList
  let lead := power + text.length - 1
  if -4 ≤ lead ∧ lead < 16 then
    if 0 ≤ power then String.ofList (text ++ List.replicate power.toNat '0') ++ ".0"
    else if 0 ≤ lead then
      String.ofList (text.take (lead.toNat + 1) ++ '.' :: text.drop (lead.toNat + 1))
    else "0." ++ String.ofList (List.replicate (-lead - 1).toNat '0' ++ text)
  else
    let fraction := if text.length = 1 then [] else '.' :: text.drop 1
    let mark := if 0 ≤ lead then "e+" else "e-"
    String.ofList (text.take 1 ++ fraction) ++ mark ++ exponentText lead.natAbs

/-- The text of a double. -/
def writeFloat (x : Float) : String :=
  match Binary64.ofFloat x with
  | .nan _ => "NaN"
  | .infinite negative => if negative then "-Infinity" else "Infinity"
  | .finite negative mantissa exponent =>
    let sign := if negative then "-" else ""
    if mantissa = 0 then sign ++ "0.0"
    else
      let narrow := mantissa == 2 ^ Binary64.fractionBits && -1074 < exponent
      let x : PositiveDouble := ⟨mantissa, exponent, narrow⟩
      let (digits, power) := x.shortest
      let (digits, power) := dropZeros 17 digits power
      sign ++ layout digits power

end StakeLedger.Text
