import StakeLedger.Service.Pools
import StakeLedger.Service.Purges
import StakeLedger.Settings.Basic

/-
  Sessions: runs of the services over one store.
  A session begins by starting the purges; then its steps follow, of which each is answered or
  fails, and goes on from where the one before it ended.
-/

namespace StakeLedger

namespace Session

/-- A step of a session. -/
inductive Step where
  | setClock (time : Int)
  | advanceClock (seconds : Int)
  | readClock
  /-- Puts a lockup into the registrar's own table. -/
  | registerLockup (position : String) (index : Int) (l : Lockup)
  /-- Puts a lockup into the store. -/
  | storeLockup (position : String) (index : Int) (l : Lockup)
  | findLockup (position : String) (index : Int)
  | createPool (id : String) (time : Option Int)
  /-- Opens a position; `register` puts its lockup into the registrar's own table as well. -/
  | openPosition (p : Position) (amount : Int) (l : Lockup) (register : Bool)
  | closePosition (id : String) (amount : Int)
  | poolStatus (id : String)
  | rollForward (id : String)
  | process (id : String)
  | sweep (id : String)
  /-- Fails with a fault of its own. -/
  | fail (fault : Fault)
  deriving DecidableEq, Repr

/-- The answer to a step. -/
inductive Answer where
  | done
  | time (t : Int)
  | lockup (l : Lockup)
  | pool (p : Pool)
  | result (r : Purge.Result)
  | results (rs : List Purge.Result)
  deriving DecidableEq, Repr

open Service

/-- Puts a lockup into the registrar's own table, if it has one. -/
def register (position : String) (index : Int) (l : Lockup) : Service Unit := do
  setRegistrar ((← partners).registrar.put position index l)

/-- Sets the registrar's clock. -/
def setClock (time : Int) : Service Unit := do
  let registrar := (← partners).registrar
  setRegistrar { registrar with clock := registrar.clock.setTo time }

/-- Carries out a step. -/
def Step.run : Step → Service Answer
  | .setClock time => do
    Session.setClock time
    pure .done
  | .advanceClock seconds => do
    let time := (← now) + seconds
    Session.setClock time
    pure (.time time)
  | .readClock => do pure (.time (← now))
  | .registerLockup position index l => do
    register position index l
    pure .done
  | .storeLockup position index l => do
    Work.unit (Work.saveLockup .readWrite position index l)
    pure .done
  | .findLockup position index => do pure (.lockup (← Service.lockup position index))
  | .createPool id time => do pure (.pool (← Service.createPool id time))
  | .openPosition p amount l registered => do
    let pool ← Service.openPosition p amount l
    if registered then register p.id p.index l
    pure (.pool pool)
  | .closePosition id amount => do pure (.pool (← Service.closePosition id amount))
  | .poolStatus id => do pure (.pool (← Service.status id))
  | .rollForward id => do pure (.pool (← Service.rollForward id))
  | .process id => do pure (.result (← Service.process id))
  | .sweep id => do pure (.results (← Service.sweep id))
  | .fail fault => throw fault

/-- The books with an empty log. -/
def fresh (books : Books Partners) : Books Partners := { books with log := [] }

/-- A step's answer and the books after it; the log holds the records of this step only. -/
structure Entry where
  answer : Except Fault Answer
  books : Books Partners

/-- One step from some books. -/
def step (books : Books Partners) (s : Step) : Entry :=
  let (answer, after) := s.run.runOn (fresh books)
  ⟨answer, after⟩

/-- The entries of steps that follow one another. -/
def course (books : Books Partners) : List Step → List Entry
  | [] => []
  | s :: rest =>
    let entry := step books s
    entry :: course entry.books rest

/-- The books after steps that follow one another. -/
def booksAfter (books : Books Partners) (steps : List Step) : Books Partners :=
  steps.foldl (fun books s => (step books s).books) books

/-- The books once the purges have been started. -/
def start (store : Store) (partners : Partners) : Books Partners :=
  (startPurges.runOn { store := store, outside := partners }).2

/-- The scheduler of a session: a client of a service that gives scripted answers, or one that
keeps the triggers itself. -/
def scheduler (settings : Settings) (answers : Option (Nat → ServiceAnswer)) (nowMs : Int) :
    Except Fault Scheduler :=
  match answers with
  | none => .ok .empty
  | some answers =>
    settings.retryPolicy.map fun policy =>
      .remote { policy := policy, answers := answers, nowMs := nowMs }

end Session

end StakeLedger
