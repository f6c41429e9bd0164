import StakeLedger.Lockup
import StakeLedger.OneShot
import StakeLedger.Pool
import StakeLedger.Position
import StakeLedger.Trigger

/-
  The decision on a position whose purge trigger has fired.
  If the lockup still runs, because it was extended or is constant, the trigger is moved to
  the present expiry. If it has expired, the position's rate is taken from the pool and the
  decay that the pool charged for it after the expiry is given back.
-/

namespace StakeLedger

namespace Purge

/-- How purges are run: the seconds between an expiry and its trigger, and whether the expiry
is looked at. -/
structure Policy where
  followup : Int := 3600
  bypassExpiry : Bool := false
  deriving DecidableEq, Repr

/-- A trigger to be moved. -/
structure Reschedule where
  key : String
  expression : OneShot
  expiry : Int
  deriving DecidableEq, Repr

/-- A pool and a position to be stored together. -/
structure Finalization where
  pool : Pool
  position : Position
  delta : Delta
  sinceExpiry : Int
  deriving DecidableEq, Repr

/-- What is to be done with a position. -/
inductive Decision where
  | reschedule (r : Reschedule)
  | finalize (f : Finalization)
  deriving DecidableEq, Repr

/-- Takes the position's rate away and gives back the decay charged after the expiry. -/
def expiredDelta (position : Position) (lockup : Lockup.View) (now : Int) :
    Except Fault Delta :=
  (Amount.product "expired_decay" position.rate.val (lockup.secondsSinceExpiry now)).map
    fun restored => ⟨-position.rate.val, restored.val⟩

/-- The decision on a position at a time. -/
def decision (policy : Policy) (position : Position) (pool : Pool) (lockup : Lockup.View)
    (now : Int) : Except Fault Decision :=
  if position.phase.isFinalized then .error (.alreadyFinalized position.id)
  else if !policy.bypassExpiry && !lockup.isExpired now then do
    let expiry := now + lockup.secondsLeft now
    let expression ← OneShot.build expiry policy.followup
    pure (.reschedule ⟨Trigger.key position.id position.index, expression, expiry⟩)
  else do
    let delta ← expiredDelta position lockup now
    let pool ← pool.applyDelta now delta
    let position ← position.finalize
    pure (.finalize ⟨pool, position, delta, lockup.secondsSinceExpiry now⟩)

end Purge

end StakeLedger
