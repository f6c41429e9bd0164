import StakeLedger.Fault

/-
  Epochs: days of the ledger, counted from zero at unix time zero.
-/

namespace StakeLedger.Epoch

/-- The seconds of an epoch. -/
def length : Int := 86400

/-- The epoch that holds a time; times before zero have none. -/
def current (time : Int) : Except Fault Int :=
  if time < 0 then .error (.beforeEpochs time) else .ok (time / length)

/-- The start of the epoch after the one that holds a time. -/
def nextStart (time : Int) : Except Fault Int :=
  (current time).map fun epoch => (epoch + 1) * length

end StakeLedger.Epoch
