import StakeLedger.RetryAfter
import StakeLedger.Twister

/-
  Retries with growing delays.
  A call that fails with a retryable error is made again after a delay, as long as the policy
  has attempts left. The delay is what the error's header asks for, capped; without a usable
  header it is the base delay doubled with every attempt, capped, and then multiplied by a
  factor between one half and three halves that is drawn at random. Draws are taken only where
  they are used.
  The calls are given as a script: the outcome of call number `i`, counted from zero.
-/

namespace StakeLedger.Retry

-- Powers of naturals are those of core, whatever else is imported.
attribute [local instance (high)] instPowNat

/-- How often, and after which delays in milliseconds, a call is made again. -/
structure Policy where
  attempts : Nat
  baseDelay : Nat
  maxDelay : Nat
  seed : Int
  attempts_pos : 0 < attempts

namespace Policy

/-- Accepts a policy; the attempts are checked before the delays. -/
def make (attempts baseDelay maxDelay seed : Int) : Except Fault Policy :=
  if h : attempts < 1 then .error .noAttempts
  else if baseDelay < 0 ∨ maxDelay < 0 then .error .negativeDelay
  else .ok ⟨attempts.toNat, baseDelay.toNat, maxDelay.toNat, seed, by omega⟩

/-- The policy in use where none is given. -/
def standard : Policy := ⟨4, 400, 4000, 0, by decide⟩

/-- The whole milliseconds of some seconds. -/
def wholeMs (seconds : Float) : Except Fault Int :=
  match Binary64.ofFloat seconds with
  | .infinite _ => .error .wholeOfInfinite
  | .nan _ => .error .wholeOfUndefined
  | .finite negative mantissa exponent =>
    let n := Binary64.truncate (Binary64.round53 (mantissa * 1000)) exponent
    if Binary64.sizeLimit ≤ n then .error .wholeOfInfinite
    else .ok (if negative then -(n : Int) else n)

/-- The delay for a request of some seconds. -/
def askedDelay (p : Policy) (seconds : Float) : Except Fault Int :=
  (wholeMs seconds).map (min (p.maxDelay : Int))

/-- The delay for a request of whole seconds, which are taken as a double. -/
def askedWhole (p : Policy) (seconds : Int) : Except Fault Int :=
  match Binary64.ofInt? seconds with
  | none => .error .delayTooLarge
  | some seconds => p.askedDelay seconds

/-- The delay before jitter: doubled with every attempt after the first, and capped. -/
def grownDelay (p : Policy) (attempt : Int) : Nat :=
  min p.maxDelay (p.baseDelay * 2 ^ (attempt - 1).toNat)

/-- The factor of a draw, as the numerator of a fraction of 2^53: one half plus the draw. -/
def jitterFactor (draw : Nat) : Nat := Binary64.round53 (2 ^ Binary64.fractionBits + draw)

/-- The delay after jitter: the product of doubles, without its fraction. -/
def jitteredDelay (p : Policy) (attempt : Int) (draw : Nat) : Except Fault Int :=
  let ms := Binary64.round53 (p.grownDelay attempt)
  if Binary64.sizeLimit ≤ ms then .error .delayTooLarge
  else
    let n := Binary64.round53 (ms * jitterFactor draw) / 2 ^ (Binary64.fractionBits + 1)
    if Binary64.sizeLimit ≤ n then .error .wholeOfInfinite else .ok n

/-- The delay after an attempt; the draw counts only if no delay is asked for. -/
def delay (p : Policy) (attempt : Int) (asked : Option Float) (draw : Nat) : Except Fault Int :=
  match asked with
  | some seconds => p.askedDelay seconds
  | none => p.jitteredDelay attempt draw

end Policy

/-- The seconds slept for a delay in milliseconds. Irreducible, so that unfolding the calls below
does not compute the powers of two in it. -/
@[irreducible]
def sleepSeconds (ms : Int) : Except Fault Float :=
  match Binary64.ofInt? ms with
  | none => .error .delayTooLarge
  | some x => .ok (x / 1000)

/-- What is told of an attempt that is to be repeated. -/
structure Notice (ε : Type) where
  attempt : Nat
  delay : Int
  fromHeader : Bool
  error : ε

/-- How the calls ended: with a value, with an error that is not retried, or with a fault in
the computation of a delay. -/
inductive Ending (ε α : Type) where
  | returned (value : α)
  | raised (error : ε)
  | broken (fault : Fault)

/-- The whole course of the calls. -/
structure Report (ε α : Type) where
  ending : Ending ε α
  calls : Nat
  notices : List (Notice ε) := []
  sleeps : List Float := []

/-- One more call, with its notice and its sleep, in front of a course. -/
def Report.after {ε α : Type} (rest : Report ε α) (notice : Notice ε) (sleep : Float) :
    Report ε α :=
  ⟨rest.ending, rest.calls + 1, notice :: rest.notices, sleep :: rest.sleeps⟩

/-- Which errors are retried, the header that an error brings, and the time in milliseconds at
which headers arrive. -/
structure Rules (ε : Type) where
  retryable : ε → Bool
  header : ε → Option String := fun _ => none
  nowMs : Int := 0

/-- The notice for a failed attempt, and the generator after it. -/
def Rules.notice {ε : Type} (rules : Rules ε) (p : Policy) (attempt : Nat) (error : ε)
    (gen : Twister) : Except Fault (Notice ε × Twister) := do
  let asked ← RetryAfter.read rules.nowMs (rules.header error)
  match asked with
  | some seconds =>
    let ms ← p.delay attempt (some seconds) 0
    pure (⟨attempt, ms, true, error⟩, gen)
  | none =>
    let (draw, gen) := gen.draw
    let ms ← p.delay attempt none draw
    pure (⟨attempt, ms, false, error⟩, gen)

/-- The calls from attempt number `attempt` on, of which `left` may be repeated. -/
def attemptFrom {ε α : Type} (rules : Rules ε) (p : Policy) (script : Nat → Except ε α) :
    Nat → Nat → Twister → Report ε α
  | left, attempt, gen =>
    match script (attempt - 1) with
    | .ok value => { ending := .returned value, calls := 1 }
    | .error error =>
      match rules.retryable error, left with
      | true, left + 1 =>
        match rules.notice p attempt error gen with
        | .error fault => { ending := .broken fault, calls := 1 }
        | .ok (notice, gen) =>
          match sleepSeconds notice.delay with
          | .error fault => { ending := .broken fault, calls := 1, notices := [notice] }
          | .ok sleep =>
            (attemptFrom rules p script left (attempt + 1) gen).after notice sleep
      | _, _ => { ending := .raised error, calls := 1 }

/-- Calls until a call returns, fails for good, or the attempts are used up. -/
def run {ε α : Type} (rules : Rules ε) (p : Policy) (script : Nat → Except ε α) : Report ε α :=
  attemptFrom rules p script (p.attempts - 1) 1 (Twister.ofSeed p.seed)

end StakeLedger.Retry
