import StakeLedger.Fault

/-
  Lockups: the terms under which a deposit is locked.
  A lockup runs from a start to a stop. The time left of an unlocked or cliff deposit runs
  down to the stop; a constant lockup keeps its whole period until it is converted. The locked
  weight grows with the time left, from the least to the greatest weight, and reaches the
  greatest at the saturation.
-/

namespace StakeLedger

namespace Lockup

/-- The kinds of lockup. -/
inductive Kind where
  | unlocked
  | cliff
  | constant
  deriving DecidableEq, Repr

/-- The text of a kind. -/
def Kind.text : Kind → String
  | .unlocked => "none"
  | .cliff => "cliff"
  | .constant => "constant"

/-- All kinds, in the order in which they are listed. -/
def Kind.all : List Kind := [.unlocked, .cliff, .constant]

/-- Reads a kind. -/
def Kind.read (text : String) : Except Fault Kind :=
  match Kind.all.find? (·.text = text) with
  | some kind => .ok kind
  | none => .error (.unknownKind text)

/-- The bounds between which a locked weight lies, and the times that steer it. -/
structure Weighting where
  least : Int
  most : Int
  saturation : Int
  minSaturation : Int
  deriving DecidableEq, Repr

/-- A lockup as its registrar shows it: answers for any time, without the terms behind them. -/
structure View where
  kind : Kind
  isExpired : Int → Bool
  secondsLeft : Int → Int
  secondsSinceExpiry : Int → Int
  lockedWeight : Int → Weighting → Int

end Lockup

/-- The terms of a lockup. -/
structure Lockup where
  kind : Lockup.Kind
  start : Int
  stop : Int
  start_le_stop : start ≤ stop
  deriving DecidableEq, Repr

namespace Lockup

/-- Builds a lockup between two times. -/
def between (kind : Kind) (start stop : Int) : Except Fault Lockup :=
  if h : start ≤ stop then .ok ⟨kind, start, stop, h⟩ else .error (.lockupReversed start stop)

/-- Builds a lockup from unchecked terms; the kind is read before the times are compared. -/
def make (kind : String) (start stop : Int) : Except Fault Lockup := do
  between (← Kind.read kind) start stop

/-- The seconds from start to stop. -/
def period (l : Lockup) : Int := l.stop - l.start

/-- The seconds left at a time. -/
def secondsLeft (l : Lockup) (now : Int) : Int :=
  match l.kind with
  | .constant => l.period
  | _ => max 0 (l.stop - now)

/-- Is no time left? -/
def isExpired (l : Lockup) (now : Int) : Bool := l.secondsLeft now = 0

/-- The seconds since the stop of an expired lockup; zero before. -/
def secondsSinceExpiry (l : Lockup) (now : Int) : Int :=
  if l.isExpired now then max 0 (now - l.stop) else 0

/-- The weight of the locked part at a time. -/
def lockedWeight (l : Lockup) (now : Int) (w : Weighting) : Int :=
  let left := l.secondsLeft now
  if l.isExpired now ∨ w.most = 0 then 0
  else if 0 < w.minSaturation ∧ left < w.minSaturation then 0
  else if w.saturation ≤ 0 ∨ w.saturation ≤ left then w.most
  else w.least + (w.most - w.least) * left / w.saturation

/-- The lockup as its registrar shows it. -/
def view (l : Lockup) : View :=
  ⟨l.kind, l.isExpired, l.secondsLeft, l.secondsSinceExpiry, l.lockedWeight⟩

end Lockup

end StakeLedger
