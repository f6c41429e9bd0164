import StakeLedger.Address.Basic
import StakeLedger.Retry
import StakeLedger.Store.Table

/-
  Schedulers: where the one-shot expressions of purge triggers are stored, one for each key.
  A scheduler either keeps the triggers itself or sends each update to a trigger service. The
  service's answer is conclusive unless it is 429, at least 500, or missing; an update without
  a conclusive answer is sent again by the rules for retries. A conclusive answer below 400
  means that the trigger is stored, one of 400 or more that it is refused. A trigger's address
  lies below the service's. Where it has no scheme, or a lone bracket, an answer is a fault: its
  cookies have no place.
-/

namespace StakeLedger

/-- What comes back for a request to the trigger service. -/
inductive ServiceAnswer where
  | response (status : Int) (body : String) (retryAfter : Option String)
  | unreachable
  deriving DecidableEq, Repr

/-- A request to the trigger service. -/
structure TriggerRequest where
  path : String
  expression : String
  deriving DecidableEq, Repr

namespace TriggerRequest

/-- The method of every request. -/
def method : String := "PUT"

/-- The body of a request: the trigger's expression, and that it is never left out. -/
def body (r : TriggerRequest) : Json :=
  .object [("schedule", .text r.expression), ("skippable", .bool false)]

end TriggerRequest

/-- The address of a service on the same machine. -/
def Address.ofThisMachine : Address := { scheme := "http", host := "localhost", path := "/" }

/-- A client of a trigger service, whose address is `base`: answers come in the order of the
requests. -/
structure TriggerClient where
  policy : Retry.Policy
  base : Address := .ofThisMachine
  answers : Nat → ServiceAnswer
  nowMs : Int := 0
  requests : List TriggerRequest := []
  sleeps : List Float := []

/-- Why a request did not store a trigger. -/
inductive UpdateFailure where
  /-- No conclusive answer, and the header that asks for a delay. -/
  | inconclusive (retryAfter : Option String)
  | refused (fault : Fault)
  deriving DecidableEq, Repr

/-- The most characters of an answer's body that a fault shows. -/
def shownBody : Nat := 512

/-- What a status and a body mean for the update of a trigger. -/
def verdictOf (key : String) (status : Int) (body : String) (retryAfter : Option String) :
    Except UpdateFailure Unit :=
  if status = 429 ∨ 500 ≤ status then .error (.inconclusive retryAfter)
  else if 400 ≤ status then
    .error (.refused (.triggerRejected key status (String.ofList (body.toList.take shownBody))))
  else .ok ()

/-- What an answer from an address means for the update of a trigger. -/
def ServiceAnswer.verdict (address : Address) (key : String) :
    ServiceAnswer → Except UpdateFailure Unit
  | .unreachable => .error (.inconclusive none)
  | .response status body retryAfter =>
    let text := address.cookieText
    if !Address.beginsWithScheme text then .error (.refused (.unknownScheme text))
    else if Address.hasLoneBracket text then .error (.refused (.badAddress .loneBracket))
    else verdictOf key status body retryAfter

namespace TriggerClient

/-- Updates without a conclusive answer are repeated, after the delay that its header asks
for. -/
def rules (c : TriggerClient) : Retry.Rules UpdateFailure where
  retryable
    | .inconclusive _ => true
    | .refused _ => false
  header
    | .inconclusive retryAfter => retryAfter
    | .refused _ => none
  nowMs := c.nowMs

/-- The address of a trigger, which a request must be able to name. -/
def address (c : TriggerClient) (key : String) : Except Fault Address := do
  let address ← (c.base.below ("/triggers/" ++ key)).mapError .badAddress
  address.checkPlace.mapError .badAddress
  pure address

/-- The course of the update of a trigger at its address. -/
def update (c : TriggerClient) (address : Address) (key : String) :
    Retry.Report UpdateFailure Unit :=
  Retry.run c.rules c.policy fun n =>
    (c.answers (c.requests.length + n)).verdict address key

/-- The client after the course of an update. -/
def after (c : TriggerClient) (address : Address) (expression : String)
    (report : Retry.Report UpdateFailure Unit) : TriggerClient :=
  { c with
    requests := c.requests ++ List.replicate report.calls ⟨address.shownPath, expression⟩
    sleeps := c.sleeps ++ report.sleeps }

/-- How an update ended. -/
def outcome (c : TriggerClient) (key : String) :
    Retry.Ending UpdateFailure Unit → Except Fault Unit
  | .returned _ => .ok ()
  | .raised (.inconclusive _) => .error (.triggerUnanswered key c.policy.attempts)
  | .raised (.refused fault) => .error fault
  | .broken fault => .error fault

end TriggerClient

/-- A keeper of triggers, or a client of a service that keeps them. -/
inductive Scheduler where
  | kept (triggers : Table String String) (updates : List (String × String))
  | remote (client : TriggerClient)

/-- A scheduler that keeps triggers and has none. -/
def Scheduler.empty : Scheduler := .kept {} []

end StakeLedger
