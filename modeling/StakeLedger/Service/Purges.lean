import StakeLedger.Service.Basic

/-
  Purges of stored positions.
  Processing a position decides on it and carries out the decision: a finalization stores pool
  and position in one unit of work; a rescheduling stores nothing and hands the new expression
  to the scheduler. A sweep processes every open position of a pool; a fault of the staking
  domain at one of them is reported for it and does not stop the others.
-/

namespace StakeLedger

namespace Purge

/-- What came of processing a position. -/
inductive Outcome where
  | rescheduled (r : Reschedule)
  | finalized (pool : Pool)
  | failed (code : FaultCode)
  deriving DecidableEq, Repr

/-- The outcome for a position. -/
structure Result where
  position : String
  outcome : Outcome
  deriving DecidableEq, Repr

namespace Outcome

/-- The text of an outcome's status. -/
def status : Outcome → String
  | .rescheduled _ => "rescheduled"
  | .finalized _ => "finalized"
  | .failed _ => "failed"

/-- Did the processing fail? -/
def isFailed : Outcome → Bool
  | .failed _ => true
  | _ => false

/-- The fields of an outcome beside its status. -/
def fields : Outcome → List (String × Json)
  | .rescheduled r => [("trigger_key", .text r.key), ("expression", .text r.expression.text)]
  | .finalized pool => [("pool", .object pool.fields)]
  | .failed code => [("error_code", .text code.text)]

end Outcome

/-- A result as an object. -/
def Result.payload (r : Result) : Json :=
  .object ([("position_id", .text r.position), ("status", .text r.outcome.status)]
    ++ r.outcome.fields)

end Purge

namespace Service

namespace Purges

/-- The logger of purges. -/
def logger : String := "vehnt.services.purge_service"

/-- Logs news of purges. -/
def log (message : String) (extra : List (String × Json)) : Service Unit :=
  Work.emit Log.Level.info logger message extra

/-- The fields of the record of a finalization. -/
def finalizedFields (p : Position) (now : Int) (f : Purge.Finalization) :
    List (String × Json) :=
  [("now", .int now), ("position_fall_rate", .int p.rate.val),
    ("elapsed_since_expiry", .int f.sinceExpiry), ("restored_vehnt", .int f.delta.staked),
    ("pool_fall_rate", .int f.pool.rate.val), ("pool_staked_amount", .int f.pool.staked.val)]

/-- Stores a finalized position and its pool. -/
def store (p : Position) (now : Int) (f : Purge.Finalization) : Service Unit := do
  Work.savePool .readWrite p.pool f.pool
  Work.savePosition .readWrite f.position
  log "position_finalized" (finalizedFields p now f)

/-- The unit of work that decides on a position and stores a finalization. -/
def decideAt (id : String) (lockup : Lockup.View) (now : Int) :
    Service (Position × Purge.Decision) :=
  Work.unit do
    let p ← Work.loadPosition id
    Work.within (.ofPosition id p.pool) do
      let pool ← Work.loadPool p.pool
      let policy := (← partners).policy
      let decision ← Work.check (Purge.decision policy p pool lockup now)
      match decision with
      | .finalize f => store p now f
      | .reschedule _ => pure ()
      pure (p, decision)

/-- Moves the trigger of a position. -/
def move (p : Position) (r : Purge.Reschedule) : Service Unit :=
  Work.within { position := some p.id, pool := some p.pool, trigger := some r.key } do
    upsert r.key r.expression.text
    log "purge_rescheduled"
      [("expiry_ts", .int r.expiry), ("schedule", .text r.expression.text)]

end Purges

open Purges

/-- Processes a position whose trigger has fired. -/
def process (id : String) : Service Purge.Result := do
  let index := (← Work.unit (Work.loadPosition id)).index
  let l ← lockup id index
  let (p, decision) ← decideAt id l.view (← now)
  match decision with
  | .finalize f => pure ⟨id, .finalized f.pool⟩
  | .reschedule r => do
    move p r
    pure ⟨p.id, .rescheduled r⟩

/-- Processes a position of a sweep: a fault of the staking domain becomes its result. -/
def processSafely (id : String) : Service Purge.Result :=
  tryCatch (process id) fun fault =>
    match fault.code? with
    | none => throw fault
    | some code => do
      Work.emit Log.Level.error logger "purge_failed"
        [("position_id", .text id), ("error_code", .text code.text)]
        (some (Log.Trouble.ofFault fault))
      pure ⟨id, .failed code⟩

/-- Processes every open position of a pool, by ascending id. -/
def sweep (pool : String) : Service (List Purge.Result) := do
  let ids ← Work.unit do
    let _ ← Work.loadPool pool
    pure ((← Work.readStore (·.openPositions pool)).map (·.id))
  ids.mapM processSafely

/-- Starts the purges: it is logged if expiries are not looked at. -/
def startPurges : Service Unit := do
  if (← partners).policy.bypassExpiry then
    Work.emit Log.Level.warning logger "purge_expiry_check_bypassed"

end Service

end StakeLedger
