import StakeLedger.Amount

/-
  Stake positions.
  A position goes through three phases. While running it falls at its rate. Once finalized its
  rate is gone from the pool, by a purge or by unstaking. Once closed its remaining amount is
  gone too. In the store and in answers the phase is shown as two flags, finalized and closed,
  of which the second implies the first.
-/

namespace StakeLedger

/-- How far a position has come. -/
inductive Phase where
  | running
  | finalized
  | closed
  deriving DecidableEq, Repr

namespace Phase

/-- Is the rate gone from the pool? -/
def isFinalized : Phase → Bool
  | .running => false
  | _ => true

/-- Is the amount gone from the pool? -/
def isClosed : Phase → Bool
  | .closed => true
  | _ => false

/-- The phase that two flags show, if any. -/
def ofFlags? : Bool → Bool → Option Phase
  | false, false => some .running
  | true, false => some .finalized
  | true, true => some .closed
  | false, true => none

end Phase

/-- The greatest index of a deposit entry. -/
def indexMax : Int := 255

/-- A stake position of a pool. -/
structure Position where
  id : String
  pool : String
  index : Int
  rate : Amount
  phase : Phase
  index_in_range : 0 ≤ index ∧ index ≤ indexMax
  deriving DecidableEq, Repr

namespace Position

/-- Builds a position from unchecked parts: the index is checked first, then the rate, then
the flags. -/
def make (id pool : String) (index rate : Int) (finalized closed : Bool) :
    Except Fault Position :=
  if h : 0 ≤ index ∧ index ≤ indexMax then do
    let rate ← Amount.check "fall_rate" rate
    match Phase.ofFlags? finalized closed with
    | some phase => pure ⟨id, pool, index, rate, phase, h⟩
    | none => throw (.closedUnfinalized id)
  else .error (.indexOutOfRange index)

/-- Marks the rate as gone; once only. -/
def finalize (p : Position) : Except Fault Position :=
  match p.phase with
  | .running => .ok { p with phase := .finalized }
  | _ => .error (.alreadyFinalized p.id)

/-- Marks rate and amount as gone; once only. -/
def close (p : Position) : Except Fault Position :=
  match p.phase with
  | .closed => .error (.alreadyClosed p.id)
  | _ => .ok { p with phase := .closed }

end Position

end StakeLedger
