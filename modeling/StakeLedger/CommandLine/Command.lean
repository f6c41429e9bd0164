import StakeLedger.CommandLine.Arguments
import StakeLedger.Lockup
import StakeLedger.VotingPower

/-
  The commands of the program and their grammars.
  A line names the store and the time, if they are not the usual ones, and then one command
  with arguments of its own.
-/

namespace StakeLedger.CommandLine

/-- The arguments of the command that opens a position. -/
structure Opening where
  pool : String
  position : String
  index : Int
  rate : Int
  amount : Int
  kind : String
  start : Int
  stop : Int
  deriving DecidableEq, Repr

/-- The arguments of the command that weighs a deposit. -/
structure Weighing where
  kind : String
  start : Int
  stop : Int
  deposited : Int
  initiallyLocked : Int
  time : Int
  mint : Mint
  deriving DecidableEq, Repr

/-- A command. -/
inductive Command where
  | initStore
  | createPool (id : String)
  | openPosition (o : Opening)
  | poolStatus (id : String)
  | closePosition (id : String) (amount : Int)
  | rollForward (id : String)
  | purge (id : String)
  | sweep (id : String)
  | schedule (time : Int) (offset : Option Int)
  | votingPower (w : Weighing)
  deriving DecidableEq, Repr

namespace Command

/-- The kinds of lockup that a command takes. -/
def lockupKinds : ArgumentKind := .choice (Lockup.Kind.all.map (·.text))

/-- A required argument. -/
def need (name : String) (kind : ArgumentKind := .text) : Argument := ⟨name, kind, true⟩

/-- An argument that may be left out. -/
def may (name : String) (kind : ArgumentKind := .text) : Argument := ⟨name, kind, false⟩

/-- The arguments of each command, under the command's name. -/
def arguments : List (String × List Argument) :=
  [("init-db", []),
   ("create-pool", [need "pool_id"]),
   ("open-position",
    [need "--pool", need "--position", need "--index" .integer, need "--fall-rate" .integer,
     need "--vehnt" .integer, may "--lockup-kind" lockupKinds, need "--lockup-start" .integer,
     need "--lockup-end" .integer]),
   ("pool-status", [need "pool_id"]),
   ("close-position", [need "position_id", need "--vehnt" .integer]),
   ("roll-forward", [need "pool_id"]),
   ("purge", [need "position_id"]),
   ("sweep", [need "pool_id"]),
   ("schedule", [need "execution_ts" .integer, may "--offset" .integer]),
   ("voting-power",
    [need "--lockup-kind" lockupKinds, need "--start-ts" .integer, need "--end-ts" .integer,
     need "--deposited" .integer, need "--initially-locked" .integer, need "--at" .integer,
     may "--baseline-factor" .integer, may "--max-extra-factor" .integer,
     may "--min-required-factor" .integer, may "--saturation-secs" .integer,
     may "--min-required-saturation-secs" .integer])]

/-- The command of a name, with the arguments found for it. -/
def ofFound (name : String) (f : Found) : Command :=
  match name with
  | "create-pool" => .createPool (f.text "pool_id")
  | "open-position" => .openPosition
      { pool := f.text "--pool"
        position := f.text "--position"
        index := f.int "--index"
        rate := f.int "--fall-rate"
        amount := f.int "--vehnt"
        kind := f.text "--lockup-kind" Lockup.Kind.cliff.text
        start := f.int "--lockup-start"
        stop := f.int "--lockup-end" }
  | "pool-status" => .poolStatus (f.text "pool_id")
  | "close-position" => .closePosition (f.text "position_id") (f.int "--vehnt")
  | "roll-forward" => .rollForward (f.text "pool_id")
  | "purge" => .purge (f.text "position_id")
  | "sweep" => .sweep (f.text "pool_id")
  | "schedule" => .schedule (f.int "execution_ts") (f.int? "--offset")
  | "voting-power" => .votingPower
      { kind := f.text "--lockup-kind"
        start := f.int "--start-ts"
        stop := f.int "--end-ts"
        deposited := f.int "--deposited"
        initiallyLocked := f.int "--initially-locked"
        time := f.int "--at"
        mint :=
          { baselineFactor := f.int "--baseline-factor"
            mostExtraFactor := f.int "--max-extra-factor"
            saturation := f.int "--saturation-secs"
            leastFactor := f.int "--min-required-factor"
            minSaturation := f.int "--min-required-saturation-secs" } }
  | _ => .initStore

end Command

/-- A line of the program: the store, the time, a command with its name, and the options that
are left hollow. Where a hollow option has a field, the field says nothing. -/
structure Invocation where
  storePath : Option String
  now : Option Int
  name : String
  command : Command
  hollow : List String := []
  deriving DecidableEq, Repr

namespace Invocation

/-- The program's name. -/
def program : String := "vehnt"

/-- The grammar of a line up to its command. -/
def outer : Grammar :=
  ⟨program, [Command.may "--db", Command.may "--now" .integer,
    Command.need "command" (.command (Command.arguments.map (·.1)))]⟩

/-- The grammar of what follows a command's name. -/
def inner (name : String) : Grammar :=
  ⟨program ++ " " ++ name, (Command.arguments.lookup name).getD []⟩

/-- Reads a line. Arguments that neither grammar knows are refused last. -/
def read (line : List String) : Except Refusal Invocation := do
  let before ← outer.read line
  let name := before.text "command"
  let after ← (inner name).read before.rest
  match before.extras ++ after.extras with
  | [] =>
    pure ⟨before.text? "--db", before.int? "--now", name, Command.ofFound name after,
      before.hollow ++ after.hollow⟩
  | extras => throw (.usage program ("unrecognized arguments: " ++ " ".intercalate extras))

end Invocation

end StakeLedger.CommandLine
