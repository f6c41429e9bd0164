import StakeLedger.Fault

/-
  Amounts: integers that fit 64 unsigned bits.
  Sums, differences and products are taken over the unbounded integers and checked once, at
  the end. One product, of a time and a rate, is checked against 64 signed bits instead.
-/

namespace StakeLedger

/-- The greatest amount. -/
def amountMax : Int := 18446744073709551615

/-- The least integer of 64 signed bits. -/
def signedMin : Int := -9223372036854775808

/-- The greatest integer of 64 signed bits. -/
def signedMax : Int := 9223372036854775807

/-- An integer that fits 64 unsigned bits. -/
structure Amount where
  val : Int
  nonneg : 0 ≤ val
  le_max : val ≤ amountMax
  deriving DecidableEq, Repr

namespace Amount

/-- Accepts an integer as the amount called `field`. -/
def check (field : String) (value : Int) : Except Fault Amount :=
  if h : 0 ≤ value ∧ value ≤ amountMax then .ok ⟨value, h.1, h.2⟩
  else .error (.outOfRange field value)

/-- The checked sum. -/
def sum (field : String) (left right : Int) : Except Fault Amount := check field (left + right)

/-- The checked difference. -/
def difference (field : String) (left right : Int) : Except Fault Amount :=
  check field (left - right)

/-- The checked product. -/
def product (field : String) (left right : Int) : Except Fault Amount :=
  check field (left * right)

/-- The amount zero. -/
def zero : Amount := ⟨0, by decide, by decide⟩

@[ext] theorem ext {a b : Amount} (h : a.val = b.val) : a = b := by
  cases a; cases b; simp_all

end Amount

/-- The product checked against 64 signed bits. -/
def signedProduct (field : String) (left right : Int) : Except Fault Int :=
  if signedMin ≤ left * right ∧ left * right ≤ signedMax then .ok (left * right)
  else .error (.productTooLarge field (left * right))

end StakeLedger
