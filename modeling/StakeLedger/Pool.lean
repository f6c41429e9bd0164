import StakeLedger.Amount

/-
  The ledger of one pool: an amount that decays at a constant rate.
  A pool holds the amount staked as it stood at the time of the last calculation, and the
  rate at which it has fallen since. Rolling forward charges the decay up to a later time;
  applying a delta rolls forward first and then changes rate and amount. No other operation
  derives a new state.
-/

namespace StakeLedger

/-- A signed change to a pool's rate and staked amount. -/
structure Delta where
  rate : Int := 0
  staked : Int := 0
  deriving DecidableEq, Repr

namespace Delta

/-- Both changes together. -/
def combine (a b : Delta) : Delta := ⟨a.rate + b.rate, a.staked + b.staked⟩

/-- What staking an amount that falls at `rate` adds. -/
def stake (rate amount : Int) : Delta := ⟨rate, amount⟩

/-- What unstaking takes away: the rate, and the amount that is left. -/
def unstake (rate amount : Int) : Delta := ⟨-rate, -amount⟩

end Delta

/-- The decaying total of one pool; `staked` is right at the time `asOf`. -/
structure Pool where
  staked : Amount
  rate : Amount
  asOf : Int
  deriving DecidableEq, Repr

namespace Pool

/-- Builds a pool from unchecked integers; the amount is checked before the rate. -/
def make (staked rate asOf : Int) : Except Fault Pool := do
  let staked ← Amount.check "staked_amount" staked
  let rate ← Amount.check "fall_rate" rate
  pure ⟨staked, rate, asOf⟩

/-- An empty pool. -/
def empty (asOf : Int) : Pool := ⟨Amount.zero, Amount.zero, asOf⟩

/-- The pool at a later time: the decay since the last calculation is charged. -/
def rollForward (pool : Pool) (now : Int) : Except Fault Pool :=
  let elapsed := now - pool.asOf
  if elapsed = 0 then .ok pool
  else if elapsed < 0 then .error (.clockBackwards now pool.asOf)
  else do
    let decay ← signedProduct "decay" elapsed pool.rate.val
    let staked ← Amount.difference "staked_amount" pool.staked.val decay
    pure { pool with staked := staked, asOf := now }

/-- The pool at a later time, changed by a delta there. -/
def applyDelta (pool : Pool) (now : Int) (delta : Delta) : Except Fault Pool := do
  let rolled ← pool.rollForward now
  let rate ← Amount.sum "fall_rate" rolled.rate.val delta.rate
  let staked ← Amount.sum "staked_amount" rolled.staked.val delta.staked
  pure { rolled with rate := rate, staked := staked }

/-- The amount staked at a later time. -/
def projected (pool : Pool) (time : Int) : Except Fault Amount :=
  (pool.rollForward time).map (·.staked)

/-- The pool as fields of an answer. -/
def fields (pool : Pool) : List (String × Json) :=
  [("staked_amount", .int pool.staked.val), ("fall_rate", .int pool.rate.val),
   ("last_calculated_at", .int pool.asOf)]

end Pool

end StakeLedger
