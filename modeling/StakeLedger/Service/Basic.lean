import StakeLedger.Purge
import StakeLedger.Registrar
import StakeLedger.Scheduler
import StakeLedger.Work

/-
  What the services work with beside the store: the registrar, the scheduler and the rules for
  purges. A lockup that is read from the store is read in a unit of work of its own.
-/

namespace StakeLedger

/-- What the services work with beside the store. -/
structure Partners where
  registrar : Registrar := {}
  scheduler : Scheduler := .empty
  policy : Purge.Policy := {}

/-- Work of the services. -/
abbrev Service : Type → Type := Work Partners

namespace Service

/-- What the services work with at present. -/
def partners : Service Partners := do pure (← get).outside

/-- Changes the registrar. -/
def setRegistrar (registrar : Registrar) : Service Unit :=
  modify fun books => { books with outside := { books.outside with registrar := registrar } }

/-- Changes the scheduler. -/
def setScheduler (scheduler : Scheduler) : Service Unit :=
  modify fun books => { books with outside := { books.outside with scheduler := scheduler } }

/-- The time of the registrar's clock. -/
def now : Service Int := do pure (← partners).registrar.clock.now

/-- The lockup of a deposit entry, if the registrar knows it. -/
def lockup? (position : String) (index : Int) : Service (Option Lockup) := do
  match (← partners).registrar.lockups with
  | .kept table => pure (table.get? (position, index))
  | .stored => Work.unit (Work.readStore (·.lockup? position index))

/-- The lockup of a deposit entry, which must be known. -/
def lockup (position : String) (index : Int) : Service Lockup := do
  match ← lockup? position index with
  | some l => pure l
  | none => throw (.unknownLockup position index)

namespace Scheduling

/-- The logger of the scheduler. -/
def logger : String := "vehnt.services.scheduler"

/-- Logs that an update is repeated. -/
def logRetry (key : String) (notice : Retry.Notice UpdateFailure) : Service Unit :=
  Work.emit Log.Level.warning logger "scheduler_retry"
    [("trigger_key", .text key), ("attempt", .int notice.attempt),
      ("delay_ms", .int notice.delay), ("error_type", .text "_RetryableSchedulerError")]

/-- Stores a trigger at a trigger service. -/
def send (client : TriggerClient) (key expression : String) : Service Unit := do
  let address ← Work.check (client.address key)
  let report := client.update address key
  setScheduler (.remote (client.after address expression report))
  report.notices.forM (logRetry key)
  Work.check (client.outcome key report.ending)
  Work.emit Log.Level.info logger "trigger_upserted"
    [("trigger_key", .text key), ("schedule", .text expression)]

end Scheduling

/-- Stores an expression under a key, in the place of any earlier one. -/
def upsert (key expression : String) : Service Unit := do
  match (← partners).scheduler with
  | .kept triggers updates =>
    setScheduler (.kept (triggers.put key expression) (updates ++ [(key, expression)]))
  | .remote client => Scheduling.send client key expression

end Service

end StakeLedger
