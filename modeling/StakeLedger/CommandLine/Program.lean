import StakeLedger.CommandLine.Hollow
import StakeLedger.Epoch
import StakeLedger.Service.Pools
import StakeLedger.Service.Purges
import StakeLedger.Settings.Basic
import StakeLedger.Store.Place

/-
  The program behind the command line.
  A line is read first, then the settings; what is wrong with either of them ends the program
  before it has done anything. A command prints one object. Faults of the staking domain and
  faulty values are printed as objects too, with an exit code of their own; any other fault
  ends the program without output.
-/

namespace StakeLedger.CommandLine

/-- What the program finds around it: variables, the clock, stores by the names of their files,
and the trigger service, with what has been sent to it so far. -/
structure Surroundings where
  source : Settings.Source := {}
  systemMs : Int := 0
  stores : Table String Store := {}
  answers : Nat → ServiceAnswer
  requests : List TriggerRequest := []
  sleeps : List Float := []

/-- How a run of the program ends. -/
inductive Ending where
  /-- It exits with a code. -/
  | exit (code : Nat)
  /-- A fault is not caught. -/
  | fault (f : Fault)
  /-- Settings are refused. -/
  | settings (refusals : List Settings.Refusal)
  /-- The line is refused. -/
  | line (refusal : Refusal)
  deriving DecidableEq, Repr

/-- A run of the program: its output, its end, its log records that are shown, and what it
leaves around it. -/
structure Run where
  output : String
  ending : Ending
  log : List Log.Record
  surroundings : Surroundings

namespace Program

/-- Where the path of a store leads. The file of variables is no store. -/
def placeOf (s : Surroundings) (path : String) : StorePlace :=
  match StorePlace.ofPath path with
  | .file ".env" => if s.source.file.getD "" = "" then .file ".env" else .nowhere .notStore
  | place => place

/-- The store at a place. -/
def storeAt (s : Surroundings) (place : StorePlace) : Store :=
  (place.name?.bind s.stores.get?).getD {}

/-- An object as a line of output, its fields in order. -/
def outputLine (fields : List (String × Json)) : String :=
  (Json.object fields).sorted.line ++ "\n"

/-- What a command prints, and the exit code that goes with it. -/
structure Answer where
  fields : List (String × Json)
  code : Nat := 0

/-- A pool under its id. -/
def poolFields (id : String) (pool : Pool) : List (String × Json) :=
  ("pool_id", .text id) :: pool.fields

/-- The fields of an epoch's number and of the start of the next. -/
def epochFields (time : Int) : Except Fault (List (String × Json)) := do
  let epoch ← Epoch.current time
  let next ← Epoch.nextStart time
  pure [("epoch", .int epoch), ("next_epoch_ts", .int next)]

/-- The client of the trigger service; purges need its address to be known. -/
def client (s : Surroundings) (settings : Settings) : Except Fault TriggerClient :=
  match settings.serviceUrl with
  | none => .error .noTriggerService
  | some url => do
    let policy ← settings.retryPolicy
    let base ← (Address.readBase url).mapError .badAddress
    pure
      { policy := policy
        base := base
        answers := s.answers
        nowMs := s.systemMs
        requests := s.requests
        sleeps := s.sleeps }

/-- What a command is carried out with: surroundings, settings, the path of the store and where
it leads, and the options that are left hollow. -/
structure Basis where
  surroundings : Surroundings
  settings : Settings
  path : String
  place : StorePlace
  hollow : Hollow.Options

/-- Opens the store; `upToHollow` is the work up to the first hollow option, if there is one. -/
def openStore (s : Basis) (upToHollow : Service Unit) : Service Unit := do
  Work.check s.place.check
  if s.hollow ≠ [] then upToHollow

/-- Makes ready for purges, with the client of the trigger service. -/
def readyPurges (s : Basis) : Service Unit := do
  Service.setScheduler (.remote (← Work.check (client s.surroundings s.settings)))
  Service.startPurges

/-- The expression that a command asks for. -/
def plan (s : Basis) (time : Int) (offset : Option Int) : Except Fault OneShot := do
  if "--offset" ∈ s.hollow then throw (.badOperands "+" .number .list)
  OneShot.build time (offset.getD s.settings.followup)

/-- The voting power that a command asks for. -/
def weigh (h : Hollow.Options) (w : Weighing) : Except Fault Int := do
  let l ← Hollow.lockup h "--lockup-kind" "--start-ts" "--end-ts" w.kind w.start w.stop
  Hollow.weighing h l w
  w.mint.votingPower l.view w.deposited w.initiallyLocked w.time

/-- The exit code of a sweep: one if a position failed. -/
def sweepCode (results : List Purge.Result) : Nat :=
  if results.any (·.outcome.isFailed) then 1 else 0

/-- Carries out a command. -/
def perform (s : Basis) : Command → Service Answer
  | .initStore => do
    Work.check s.place.check
    pure { fields := [("state_db_path", .text s.path), ("status", .text "ok")] }
  | .createPool id => do
    openStore s (Hollow.creation id)
    pure { fields := poolFields id (← Service.createPool id none) }
  | .openPosition o => do
    let (p, l) ← Work.check (Hollow.terms s.hollow o)
    openStore s (Hollow.opening s.hollow p o.amount)
    pure { fields := poolFields o.pool (← Service.openPosition p o.amount l) }
  | .poolStatus id => do
    openStore s (Hollow.projection id)
    let pool ← Service.status id
    let epoch ← Work.check (epochFields pool.asOf)
    pure { fields := poolFields id pool ++ epoch }
  | .closePosition id amount => do
    openStore s (Hollow.closing s.hollow id)
    let pool ← Service.closePosition id amount
    pure { fields := [("position_id", .text id), ("pool", .object pool.fields)] }
  | .rollForward id => do
    openStore s (Hollow.rolling id)
    pure { fields := poolFields id (← Service.rollForward id) }
  | .purge id => do
    readyPurges s
    openStore s (Hollow.processing id)
    let result ← Service.process id
    pure { fields := [("position_id", .text result.position),
      ("status", .text result.outcome.status)] ++ result.outcome.fields }
  | .sweep id => do
    readyPurges s
    openStore s (Hollow.sweeping id)
    let results ← Service.sweep id
    pure { fields := [("pool_id", .text id), ("results", .list (results.map (·.payload)))]
           code := sweepCode results }
  | .schedule time offset => do
    let expression ← Work.check (plan s time offset)
    pure { fields := [("execution_ts", .int time), ("schedule", .text expression.text)] }
  | .votingPower w => do
    pure { fields := [("voting_power", .int (← Work.check (weigh s.hollow w)))] }

/-- An answer, if it can be written. -/
def written (answer : Answer) : Except Fault Answer :=
  if (Json.object answer.fields).isWritable then .ok answer else .error .numeralTooLong

/-- What a fault makes the program print, if it is caught; a fault of the staking domain is
logged as well. -/
def recover (fault : Fault) : Service Answer :=
  match fault.kind with
  | .staking _ => do
    Work.emit Log.Level.error "vehnt.cli" "command_failed" [("error", fault.payload)]
    pure { fields := [("error", fault.payload)], code := 1 }
  | .value =>
    pure
      { fields := [("error", .object [("code", .text "INVALID_INPUT"),
          ("message", .text fault.message)])]
        code := 2 }
  | _ => throw fault

/-- A command, with the faults that are caught, under its name in the log. -/
def work (s : Basis) (i : Invocation) : Service Answer :=
  Work.within { command := some i.name } do
    let answer ← tryCatch (do Work.check (written (← perform s i.command))) recover
    Work.check (written answer)

/-- The clock that a line asks for. -/
def clock (s : Surroundings) (now : Option Int) : Clock :=
  { Clock.ofSystem s.systemMs with set := now }

/-- The surroundings after a command. -/
def leave (s : Surroundings) (place : StorePlace) (books : Books Partners) : Surroundings :=
  let s := match place.name? with
    | some name => { s with stores := s.stores.put name books.store }
    | none => s
  match books.outside.scheduler with
  | .kept _ _ => s
  | .remote client => { s with requests := client.requests, sleeps := client.sleeps }

/-- The records of a log that a level lets through. -/
def shown (settings : Settings) (log : List Log.Record) : List Log.Record :=
  let level := Log.Level.read Log.Level.info settings.logLevel
  log.filter (level ≤ ·.level)

/-- The path of the store that an invocation is about. -/
def pathOf (settings : Settings) (i : Invocation) : String :=
  i.storePath.getD settings.statePath

/-- Where the store of an invocation lies. -/
def placeFor (s : Surroundings) (settings : Settings) (i : Invocation) : StorePlace :=
  if "--db" ∈ i.hollow then .nowhere .pathNotText else placeOf s (pathOf settings i)

/-- Runs an invocation under some settings. -/
def invoke (s : Surroundings) (settings : Settings) (i : Invocation) : Run :=
  let place := placeFor s settings i
  let (result, books) := (work ⟨s, settings, pathOf settings i, place, i.hollow⟩ i).runOn
    { store := storeAt s place
      outside :=
        { registrar := ⟨clock s i.now, .stored⟩
          policy := settings.purgePolicy } }
  let log := shown settings books.log
  let after := leave s place books
  match result with
  | .ok answer => ⟨outputLine answer.fields, .exit answer.code, log, after⟩
  | .error fault => ⟨"", .fault fault, log, after⟩

/-- The name of the file of the store that a line is about, if the line and the settings are not
refused and the store is a file. -/
def storeName? (s : Surroundings) (line : List String) : Option String :=
  match Invocation.read line, Settings.read s.source with
  | .ok i, .ok settings => (placeFor s settings i).name?
  | _, _ => none

/-- Runs a line. -/
def run (s : Surroundings) (line : List String) : Run :=
  match Invocation.read line with
  | .error refusal => ⟨"", .line refusal, [], s⟩
  | .ok i =>
    match Settings.read s.source with
    | .error refusals => ⟨"", .settings refusals, [], s⟩
    | .ok settings => invoke s settings i

/-- Runs lines one after another. -/
def runAll (s : Surroundings) : List (List String) → List Run
  | [] => []
  | line :: rest =>
    let r := run s line
    r :: runAll r.surroundings rest

end Program

end StakeLedger.CommandLine
