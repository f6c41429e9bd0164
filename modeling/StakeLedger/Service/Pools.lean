import StakeLedger.Service.Basic

/-
  The bookkeeping of pools: each write goes through the ledger and is one unit of work.
  Closing a position takes away what is left of its amount, and its rate unless a purge has
  done so. A position that expired without a purge gets back, as a purge would give it, the
  decay that the pool charged for it after the expiry.
-/

namespace StakeLedger.Service

namespace Pools

/-- The logger of the pools' bookkeeping. -/
def logger : String := "vehnt.services.pool_service"

/-- Logs news of the pools' bookkeeping. -/
def log (message : String) (extra : List (String × Json)) : Service Unit :=
  Work.emit Log.Level.info logger message extra

/-- The delta of closing a position of which `amount` is left. -/
def closingDelta (p : Position) (lockup : Lockup.View) (now amount : Int) :
    Except Fault Delta :=
  let unstaked := Delta.unstake 0 amount
  if p.phase.isFinalized then .ok unstaked
  else (Purge.expiredDelta p lockup now).map (·.combine unstaked)

end Pools

open Pools

/-- Creates an empty pool, at a time or at that of the registrar. -/
def createPool (id : String) (time : Option Int) : Service Pool := do
  let asOf ← match time with
    | some time => pure time
    | none => now
  let pool := Pool.empty asOf
  Work.unit do
    if (← Work.readStore (·.pool? id)).isSome then throw (.poolExists id)
    Work.savePool .readWrite id pool
  log "pool_created" [("pool_id", .text id)]
  pure pool

/-- The pool as it stands now; nothing is stored. -/
def status (id : String) : Service Pool := do
  let pool ← Work.unit (Work.loadPool id)
  Work.check (pool.rollForward (← now))

/-- Rolls a pool forward to the present time. -/
def rollForward (id : String) : Service Pool := do
  let time ← now
  Work.unit <| Work.within { pool := some id } do
    let rolled ← Work.check ((← Work.loadPool id).rollForward time)
    Work.savePool .readWrite id rolled
    log "pool_rolled_forward" [("now", .int time), ("staked_amount", .int rolled.staked.val)]
    pure rolled

/-- Opens a position with an amount and its lockup. -/
def openPosition (p : Position) (amount : Int) (l : Lockup) : Service Pool := do
  let time ← now
  Work.unit <| Work.within (.ofPosition p.id p.pool) do
    if (← Work.readStore (·.position? p.id)).isSome then throw (.positionExists p.id)
    let pool ← Work.loadPool p.pool
    let pool ← Work.check (pool.applyDelta time (Delta.stake p.rate.val amount))
    Work.savePool .readWrite p.pool pool
    Work.savePosition .readWrite p
    Work.saveLockup .readWrite p.id p.index l
    log "position_opened" [("fall_rate", .int p.rate.val), ("vehnt_amount", .int amount)]
    pure pool

/-- The unit of work that closes a position. -/
def closeAt (id : String) (lockup : Lockup.View) (time amount : Int) : Service Pool :=
  Work.unit do
    let p ← Work.loadPosition id
    Work.within (.ofPosition id p.pool) do
      let closed ← Work.check p.close
      let delta ← Work.check (closingDelta p lockup time amount)
      let pool ← Work.check ((← Work.loadPool p.pool).applyDelta time delta)
      Work.savePool .readWrite p.pool pool
      Work.savePosition .readWrite closed
      log "position_closed"
        [("current_vehnt", .int amount), ("fall_rate_change", .int delta.rate),
          ("staked_change", .int delta.staked), ("was_purged", .bool p.phase.isFinalized)]
      pure pool

/-- Closes a position of which `amount` is left. One that is closed already is refused before
its lockup is looked up. -/
def closePosition (id : String) (amount : Int) : Service Pool := do
  let stored ← Work.unit (Work.loadPosition id)
  let _ ← Work.check stored.close
  let l ← lockup id stored.index
  closeAt id l.view (← now) amount

end StakeLedger.Service
