import Std.Time.DateTime.Timestamp
import StakeLedger.CommandLine.Program
import StakeLedger.Store.File

/-
  The command line in its surroundings: it finds the variables, the clock and the store that a
  line is about, runs the line, keeps the store if it has changed, and shows output, log and
  refusals. It has no connection to a trigger service, so that every request to one stays
  without an answer.
-/

namespace StakeLedger.CommandLine

/-- The text of a file, if there is such a file. -/
def textOfFile? (path : String) : IO (Option String) := do
  try
    return some (← IO.FS.readFile path)
  catch
    | .noFileOrDirectory .. => return none
    | e => throw e

/-- Those of some variables that the environment sets. -/
def variablesOf (names : List String) : IO (List (String × String)) :=
  names.filterMapM fun name => do return (← IO.getEnv name).map (name, ·)

/-- The variables that settings are read from. -/
def findSource : IO Settings.Source := do
  let file ← textOfFile? ".env"
  let names := Settings.names ++ Settings.names.map Text.toLower
    ++ (file.map EnvFile.referred).getD []
  return { env := ← variablesOf names, file := file }

/-- The time of the clock in milliseconds. -/
def clockMs : IO Int := return (← Std.Time.Timestamp.now).toMillisecondsSinceUnixEpoch.val

/-- The stores of some names, from their files. -/
def findStores (names : List String) : IO (Table String Store) := do
  let found ← names.filterMapM fun name => do
    return (← textOfFile? name).map fun text => (name, Store.ofText text)
  return Table.ofList found

/-- Keeps those of the named stores that a run has changed. -/
def keepStores (names : List String) (before after : Table String Store) : IO Unit :=
  names.forM fun name => do
    if let some store := after.get? name then
      if before.get? name ≠ some store then IO.FS.writeFile name store.toText

/-- Shows the line of a log record, or why it cannot be written. -/
def showRecord (micros : Int) (record : Log.Record) : IO Unit :=
  match record.line micros with
  | .ok line => IO.eprintln line
  | .error f => IO.eprintln f.message

/-- Shows how a run has ended, and gives its exit code. -/
def finish : Ending → IO UInt32
  | .exit code => return code.toUInt32
  | .fault f => do
    IO.eprintln (f.label ++ ": " ++ f.message)
    return 1
  | .settings refusals => do
    for r in refusals do IO.eprintln (r.name ++ ": " ++ r.problem.message)
    return 1
  | .line .help => do
    IO.println ("usage: " ++ Invocation.program ++ " [--db DB] [--now NOW] command ...")
    return 0
  | .line refusal => do
    IO.eprintln refusal.line
    return 2

/-- Runs a line. -/
def runLine (line : List String) : IO UInt32 := do
  let source ← findSource
  let ms ← clockMs
  let bare : Surroundings :=
    { source := source, systemMs := ms, answers := fun _ => .unreachable }
  let names := (Program.storeName? bare line).toList
  let stores ← findStores names
  let run := Program.run { bare with stores := stores } line
  keepStores names stores run.surroundings.stores
  run.log.forM (showRecord (1000 * ms))
  IO.print run.output
  finish run.ending

end StakeLedger.CommandLine

/-- The program. -/
def main (args : List String) : IO UInt32 := StakeLedger.CommandLine.runLine args
