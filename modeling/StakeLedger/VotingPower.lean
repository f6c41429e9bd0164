import StakeLedger.Amount
import StakeLedger.Lockup

/-
  The voting power of a deposit: a baseline weight for what is deposited, and a bonus for
  what was locked at the start, by the terms of the lockup. The factors of a mint are scaled
  by 10^9, and weights round down.
-/

namespace StakeLedger

/-- How a mint weighs deposits. -/
structure Mint where
  baselineFactor : Int
  mostExtraFactor : Int
  saturation : Int
  leastFactor : Int := 0
  minSaturation : Int := 0
  deriving DecidableEq, Repr

namespace Mint

/-- What a factor of one is written as. -/
def factorBase : Int := 1000000000

/-- The amount times a scaled factor, rounded down, as the weight called `field`. -/
def scale (field : String) (amount factor : Int) : Except Fault Amount :=
  Amount.check field (amount * factor / factorBase)

/-- The weight of a deposit without any lockup. -/
def baseline (m : Mint) (amount : Int) : Except Fault Amount :=
  scale "baseline_vote_weight" amount m.baselineFactor

/-- The least weight of a locked amount. -/
def leastLocked (m : Mint) (amount : Int) : Except Fault Amount :=
  scale "min_required_lockup_vote_weight" amount m.leastFactor

/-- The greatest weight of a locked amount. -/
def mostLocked (m : Mint) (amount : Int) : Except Fault Amount :=
  scale "max_extra_lockup_vote_weight" amount m.mostExtraFactor

/-- The voting power at a time. Unlocked deposits have none under a mint that asks for a
minimum saturation. -/
def votingPower (m : Mint) (lockup : Lockup.View) (deposited initiallyLocked now : Int) :
    Except Fault Int :=
  if 0 < m.minSaturation ∧ lockup.kind = .unlocked then .ok 0
  else do
    let baseline ← m.baseline deposited
    let least ← m.leastLocked initiallyLocked
    let most ← m.mostLocked initiallyLocked
    let locked := lockup.lockedWeight now
      ⟨least.val, most.val, m.saturation, m.minSaturation⟩
    if most.val < locked then throw (.lockedAboveMost locked most.val)
    else if amountMax < baseline.val + locked then
      throw (.powerTooLarge baseline.val locked)
    else pure (baseline.val + locked)

end Mint

end StakeLedger
