import StakeLedger.Text.Blank
import StakeLedger.Text.Numeral
import StakeLedger.Text.Upper

/-
  Levels of log records.
  A level is an integer, of which some have names; two of them have two. A level may be asked
  for by number or by name; a name is taken without the blanks around it and in any case, and
  one that is not known counts as not asked for. The levels of the connection to the trigger
  service follow the common one unless the environment asks for others.
-/

namespace StakeLedger.Log

namespace Level

/-- The named levels; of two names of a level, the first is shown. -/
def names : List (String × Int) :=
  [("CRITICAL", 50), ("FATAL", 50), ("ERROR", 40), ("WARNING", 30), ("WARN", 30), ("INFO", 20),
   ("DEBUG", 10), ("NOTSET", 0)]

/-- The level of errors. -/
def error : Int := 40

/-- The level of warnings. -/
def warning : Int := 30

/-- The level of plain news, which is also the default. -/
def info : Int := 20

/-- The level of details. -/
def debug : Int := 10

/-- The text of a level. -/
def text (level : Int) : String :=
  match names.find? (·.2 = level) with
  | some named => named.1
  | none => "Level " ++ Text.writeInt level

/-- The level of a name. -/
def ofName? (name : String) : Option Int :=
  (names.find? (·.1 = name)).map (·.2)

/-- The level that a text asks for, or the default. -/
def read (default : Int) (text : String) : Int :=
  (ofName? (Text.toUpper (Text.trimBlank text))).getD default

end Level

/-- How a level is asked for. -/
inductive LevelRequest where
  | number (level : Int)
  | name (text : String)
  deriving DecidableEq, Repr

/-- The level asked for, or the default. -/
def LevelRequest.resolve (default : Int) : LevelRequest → Int
  | .number level => level
  | .name text => Level.read default text

/-- The levels in force: the common one, that of requests to the trigger service, and that of
the connections below them. -/
structure Levels where
  common : Int
  requests : Int
  connections : Int
  deriving DecidableEq, Repr

namespace Levels

/-- The level that a variable of the environment asks for, or the default. -/
def ofVariable (env : String → Option String) (name : String) (default : Int) : Int :=
  ((env name).map (Level.read default)).getD default

/-- The levels for a request, which wins over the environment. -/
def setup (request : Option LevelRequest) (env : String → Option String) : Levels :=
  let common := match request with
    | some request => request.resolve Level.info
    | none => ofVariable env "LOG_LEVEL" Level.info
  let debugging := common ≤ Level.debug
  { common := common
    requests := ofVariable env "HTTPX_LOG_LEVEL" (if debugging then Level.debug else Level.info)
    connections :=
      ofVariable env "HTTPCORE_LOG_LEVEL" (if debugging then Level.debug else Level.warning) }

end Levels

/-- The outlets to which records go once the levels are set up: any earlier ones are gone. -/
def outlets : Nat := 1

end StakeLedger.Log
