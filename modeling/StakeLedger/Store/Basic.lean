import StakeLedger.Lockup
import StakeLedger.Pool
import StakeLedger.Position
import StakeLedger.Store.Cell
import StakeLedger.Store.Table

/-
  The store: three tables of pools, positions and lockups.
  Rows hold amounts and rates as texts and everything else as cells, and need not be well
  formed: reading a row checks it and gives the domain value behind it, or the first fault
  found. Saving writes numbers in their shortest form. A position that was saved as finalized
  or closed is never saved again as less than that.
-/

namespace StakeLedger

/-- A row of the table of pools. -/
structure PoolRow where
  staked : String
  rate : String
  asOf : Cell
  deriving DecidableEq, Repr

/-- A row of the table of positions. -/
structure PositionRow where
  pool : String
  index : Cell
  rate : String
  finalized : Cell
  closed : Cell
  deriving DecidableEq, Repr

/-- A row of the table of lockups. -/
structure LockupRow where
  kind : String
  start : Cell
  stop : Cell
  deriving DecidableEq, Repr

namespace PoolRow

/-- The pool of a row. -/
def read (row : PoolRow) : Except Fault Pool := do
  let staked ← Cell.readText row.staked
  let rate ← Cell.readText row.rate
  let asOf ← row.asOf.read
  Pool.make staked rate asOf

/-- The row of a pool. -/
def ofPool (pool : Pool) : Except Fault PoolRow := do
  let asOf ← Cell.ofInt pool.asOf
  pure ⟨Text.writeInt pool.staked.val, Text.writeInt pool.rate.val, asOf⟩

end PoolRow

namespace PositionRow

/-- The position of a row. -/
def read (id : String) (row : PositionRow) : Except Fault Position := do
  let index ← row.index.read
  let rate ← Cell.readText row.rate
  Position.make id row.pool index rate row.finalized.flag row.closed.flag

/-- The row of a position. -/
def ofPosition (p : Position) : PositionRow :=
  { pool := p.pool
    index := .int p.index
    rate := Text.writeInt p.rate.val
    finalized := Cell.ofFlag p.phase.isFinalized
    closed := Cell.ofFlag p.phase.isClosed }

/-- Is it the row of an open position of a pool? -/
def isOpenIn (pool : String) (row : PositionRow) : Bool :=
  row.pool = pool && row.finalized = .int 0

end PositionRow

namespace LockupRow

/-- The lockup of a row. -/
def read (row : LockupRow) : Except Fault Lockup := do
  let kind ← Lockup.Kind.read row.kind
  let start ← row.start.read
  let stop ← row.stop.read
  Lockup.between kind start stop

/-- The row of a lockup. -/
def ofLockup (l : Lockup) : Except Fault LockupRow := do
  let start ← Cell.ofInt l.start
  let stop ← Cell.ofInt l.stop
  pure ⟨l.kind.text, start, stop⟩

end LockupRow

/-- The key of a lockup: position and index of the deposit entry. -/
abbrev LockupKey := String × Cell

/-- The rows of all tables. -/
structure Store where
  pools : Table String PoolRow := {}
  positions : Table String PositionRow := {}
  lockups : Table LockupKey LockupRow := {}
  deriving DecidableEq, Repr

namespace Store

/-- The pool of an id, if there is one. -/
def pool? (s : Store) (id : String) : Except Fault (Option Pool) :=
  (s.pools.get? id).mapM PoolRow.read

/-- The position of an id, if there is one. -/
def position? (s : Store) (id : String) : Except Fault (Option Position) :=
  (s.positions.get? id).mapM (PositionRow.read id)

/-- The lockup of a deposit entry, if there is one. -/
def lockup? (s : Store) (position : String) (index : Int) : Except Fault (Option Lockup) := do
  let index ← Cell.ofInt index
  (s.lockups.get? (position, index)).mapM LockupRow.read

/-- Does an id come before another? -/
def idBefore (a b : String) : Bool := a < b

/-- Does a lockup's key come before another? -/
def keyBefore (a b : LockupKey) : Bool :=
  a.1 < b.1 || (a.1 = b.1 && a.2.before b.2)

/-- The ids of all pools, ascending. -/
def poolIds (s : Store) : List String :=
  (s.pools.sorted idBefore).map (·.1)

/-- The open positions of a pool, by ascending id. -/
def openPositions (s : Store) (pool : String) : Except Fault (List Position) :=
  ((s.positions.sorted idBefore).filter (·.2.isOpenIn pool)).mapM fun entry =>
    entry.2.read entry.1

/-- Saves a pool. -/
def savePool (s : Store) (id : String) (pool : Pool) : Except Fault Store := do
  let row ← PoolRow.ofPool pool
  pure { s with pools := s.pools.put id row }

/-- May a position be saved over an earlier state of it? -/
def checkPhase (earlier : Option Position) (p : Position) : Except Fault Unit :=
  match earlier with
  | none => .ok ()
  | some earlier =>
    if earlier.phase.isFinalized && !p.phase.isFinalized then .error (.finalizedReopened p.id)
    else if earlier.phase.isClosed && !p.phase.isClosed then .error (.closedReopened p.id)
    else .ok ()

/-- Saves a position. -/
def savePosition (s : Store) (p : Position) : Except Fault Store := do
  let earlier ← s.position? p.id
  checkPhase earlier p
  pure { s with positions := s.positions.put p.id (PositionRow.ofPosition p) }

/-- Saves the lockup of a deposit entry. -/
def saveLockup (s : Store) (position : String) (index : Int) (l : Lockup) :
    Except Fault Store := do
  let index ← Cell.ofInt index
  let row ← LockupRow.ofLockup l
  pure { s with lockups := s.lockups.put (position, index) row }

end Store

end StakeLedger
