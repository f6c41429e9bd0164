import StakeLedger.Purge
import StakeLedger.Retry
import StakeLedger.Settings.EnvFile
import StakeLedger.Settings.Value
import StakeLedger.Text.Lower

/-
  The settings of the program.
  Each comes from a variable of the environment or, where that is not set, of the variables'
  file, and has a default. Names are compared in lower case; of several variables with one
  name the last counts. All faulty settings are reported together, in the order of the fields.
-/

namespace StakeLedger

/-- The settings. -/
structure Settings where
  statePath : String := "vehnt_state.db"
  logLevel : String := "INFO"
  followup : Int := 3600
  bypassExpiry : Bool := false
  serviceUrl : Option String := none
  timeout : Binary64 := .ofFloat 10
  attempts : Int := 4
  baseDelay : Int := 400
  maxDelay : Int := 4000

namespace Settings

/-- The names of the variables of all settings, in the order of the fields. -/
def names : List String :=
  ["STATE_DB_PATH", "LOG_LEVEL", "PURGE_FOLLOWUP_OFFSET_SECONDS", "PURGE_BYPASS_EXPIRY_CHECK",
   "SCHEDULER_BASE_URL", "SCHEDULER_TIMEOUT_SECONDS", "SCHEDULER_MAX_ATTEMPTS",
   "SCHEDULER_BASE_DELAY_MS", "SCHEDULER_MAX_DELAY_MS"]

/-- The variables that settings are read from. -/
structure Source where
  env : List (String × String) := []
  file : Option String := none
  deriving DecidableEq, Repr

namespace Source

/-- The value of a variable of the environment, by its exact name. -/
def exact (s : Source) (name : String) : Option String := s.env.lookup name

/-- The last value under a name. -/
def lastValue {α : Type} (name : String) (entries : List (String × α)) : Option α :=
  (entries.reverse.find? fun v => Text.toLower v.1 = Text.toLower name).map (·.2)

/-- The value of a setting's variable. -/
def value? (s : Source) (name : String) : Option String :=
  let ofFile := (s.file.map (EnvFile.read s.exact)).getD []
  (lastValue name s.env).or (lastValue name ofFile).join

end Source

/-- A faulty setting. -/
structure Refusal where
  name : String
  problem : Problem
  deriving DecidableEq, Repr

/-- A service's address without blanks around it and slashes behind it; nothing if empty. -/
def normalUrl (url : String) : Option String :=
  let cs := Text.trimEndBy (· = '/') (Text.trimBlank url).toList
  if cs = [] then none else some (String.ofList cs)

/-- A log level in upper case without blanks around it; the default if empty. -/
def normalLevel (level : String) : String :=
  let level := Text.toUpper (Text.trimBlank level)
  if level = "" then "INFO" else level

/-- A follow-up offset, which must not be negative. -/
def readFollowup (s : String) : Except Problem Int := do
  let n ← readInteger s
  if n < 0 then throw .negativeFollowup else pure n

/-- A number of attempts, which must be positive. -/
def readAttempts (s : String) : Except Problem Int := do
  let n ← readInteger s
  if n < 1 then throw .noAttempts else pure n

/-- A setting under its name: its value, or its default if it is not given. -/
def field {α : Type} (source : Source) (name : String) (default : α)
    (read : String → Except Problem α) : Except Refusal α :=
  match source.value? name with
  | none => .ok default
  | some text => (read text).mapError (⟨name, ·⟩)

/-- The refusal of a field, if it is refused. -/
def refusal? {α : Type} : Except Refusal α → List Refusal
  | .ok _ => []
  | .error r => [r]

/-- Reads the settings. -/
def read (source : Source) : Except (List Refusal) Settings :=
  let defaults : Settings := {}
  let statePath := (source.value? "STATE_DB_PATH").getD defaults.statePath
  let logLevel := ((source.value? "LOG_LEVEL").map normalLevel).getD defaults.logLevel
  let followup := field source "PURGE_FOLLOWUP_OFFSET_SECONDS" defaults.followup readFollowup
  let bypass := field source "PURGE_BYPASS_EXPIRY_CHECK" defaults.bypassExpiry readFlag
  let url := (source.value? "SCHEDULER_BASE_URL").bind normalUrl
  let timeout := field source "SCHEDULER_TIMEOUT_SECONDS" defaults.timeout readNumber
  let attempts := field source "SCHEDULER_MAX_ATTEMPTS" defaults.attempts readAttempts
  let baseDelay := field source "SCHEDULER_BASE_DELAY_MS" defaults.baseDelay readInteger
  let maxDelay := field source "SCHEDULER_MAX_DELAY_MS" defaults.maxDelay readInteger
  match followup, bypass, timeout, attempts, baseDelay, maxDelay with
  | .ok followup, .ok bypass, .ok timeout, .ok attempts, .ok baseDelay, .ok maxDelay =>
    .ok ⟨statePath, logLevel, followup, bypass, url, timeout, attempts, baseDelay, maxDelay⟩
  | _, _, _, _, _, _ =>
    .error (refusal? followup ++ refusal? bypass ++ refusal? timeout ++ refusal? attempts
      ++ refusal? baseDelay ++ refusal? maxDelay)

/-- The rules for purges. -/
def purgePolicy (s : Settings) : Purge.Policy := ⟨s.followup, s.bypassExpiry⟩

/-- The policy for the retries of requests to the trigger service. -/
def retryPolicy (s : Settings) : Except Fault Retry.Policy :=
  Retry.Policy.make s.attempts s.baseDelay s.maxDelay 0

end Settings

end StakeLedger
