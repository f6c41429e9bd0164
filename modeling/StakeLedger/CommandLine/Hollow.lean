import StakeLedger.CommandLine.Command
import StakeLedger.Service.Pools
import StakeLedger.Service.Purges

/-
  Commands with hollow options.
  A hollow option stands for an empty list. A command with one goes as far as it can: it fails
  where it would first compare, count with or store the list, after everything that it checks
  before. What is found here ends before the failure or goes through, so that a command is
  carried out behind it as if the option's field were right.
-/

namespace StakeLedger.CommandLine.Hollow

/-- The names of the hollow options of a line. -/
abbrev Options := List String

/-- A number taken from the list, as the clock's time less an earlier one. -/
def listLess : Fault := .badOperands "-" .list .number

/-- The list taken from a number. -/
def numberLess : Fault := .badOperands "-" .number .list

/-- The type of what an option gives. -/
def operand (isHollow : Bool) : Operand := if isHollow then .list else .number

/-- The lockup of a command; the options name its terms. Two hollow times are in order. -/
def lockup (h : Options) (kindName startName stopName kind : String) (start stop : Int) :
    Except Fault Lockup := do
  if kindName ∈ h then throw .kindNotText
  let kind ← Lockup.Kind.read kind
  let (hollowStart, hollowStop) := (decide (startName ∈ h), decide (stopName ∈ h))
  if hollowStart && hollowStop then Lockup.between kind 0 0
  else if hollowStart || hollowStop then
    throw (.notComparable "<" (operand hollowStop) (operand hollowStart))
  else Lockup.between kind start stop

/-- The position and the lockup of an opening. -/
def terms (h : Options) (o : Opening) : Except Fault (Position × Lockup) := do
  if "--index" ∈ h then throw (.notComparable "<=" .number .list)
  let p ← Position.make o.position o.pool o.index (if "--fall-rate" ∈ h then 0 else o.rate)
    false false
  if "--fall-rate" ∈ h then throw (.notComparable "<" .list .number)
  let l ← lockup h "--lockup-kind" "--lockup-start" "--lockup-end" o.kind o.start o.stop
  pure (p, l)

open Service

/-- An opening up to its first hollow option. -/
def opening (h : Options) (p : Position) (amount : Int) : Service Unit := do
  let time ← now
  Work.unit <| Work.within (.ofPosition p.id p.pool) do
    if "--position" ∈ h then throw (.notStorable 1)
    if (← Work.readStore (·.position? p.id)).isSome then throw (.positionExists p.id)
    if "--pool" ∈ h then throw (.notStorable 1)
    let pool ← Work.loadPool p.pool
    if "--now" ∈ h then throw listLess
    let amount := if "--vehnt" ∈ h then 0 else amount
    let pool ← Work.check (pool.applyDelta time (Delta.stake p.rate.val amount))
    if "--vehnt" ∈ h then throw (.badOperands "+" .number .list)
    Work.savePool .readWrite p.pool pool
    Work.savePosition .readWrite p
    throw (.notStorable 4)

/-- A creation of a pool up to the hollow time. -/
def creation (id : String) : Service Unit :=
  Work.unit do
    if (← Work.readStore (·.pool? id)).isSome then throw (.poolExists id)
    throw (.notStorable 4)

/-- A projection of a pool up to the hollow time. -/
def projection (id : String) : Service Unit := do
  let _ ← Work.unit (Work.loadPool id)
  throw listLess

/-- A rolling forward of a pool up to the hollow time. -/
def rolling (id : String) : Service Unit :=
  Work.unit <| Work.within { pool := some id } do
    let _ ← Work.loadPool id
    throw listLess

/-- The time left of a lockup at a hollow time, which only a constant lockup does without. -/
def timeLeft (l : Lockup) : Except Fault Int :=
  match l.kind with
  | .constant => .ok l.period
  | _ => .error numberLess

/-- The fault of asking for the time since the expiry at a hollow time, if it counts. -/
def sinceExpiry (l : Lockup) : Except Fault Unit := do
  if (← timeLeft l) = 0 then throw listLess

/-- A closing up to its first hollow option. -/
def closing (h : Options) (id : String) : Service Unit := do
  let stored ← Work.unit (Work.loadPosition id)
  let _ ← Work.check stored.close
  let l ← Service.lockup id stored.index
  Work.unit do
    let p ← Work.loadPosition id
    Work.within (.ofPosition id p.pool) do
      let _ ← Work.check p.close
      if "--vehnt" ∈ h then throw .notNegatable
      if !p.phase.isFinalized then Work.check (sinceExpiry l)
      let _ ← Work.loadPool p.pool
      throw listLess

/-- The fault of a decision on a purge at a hollow time. -/
def decisionFault (policy : Purge.Policy) (p : Position) (l : Lockup) : Except Fault Unit := do
  if p.phase.isFinalized then throw (.alreadyFinalized p.id)
  if !policy.bypassExpiry && (← timeLeft l) ≠ 0 then throw .notJoinable
  sinceExpiry l
  throw listLess

/-- The processing of a position up to the hollow time. -/
def processing (id : String) : Service Unit := do
  let stored ← Work.unit (Work.loadPosition id)
  let l ← Service.lockup id stored.index
  Work.unit do
    let p ← Work.loadPosition id
    Work.within (.ofPosition id p.pool) do
      let _ ← Work.loadPool p.pool
      Work.check (decisionFault (← partners).policy p l)

/-- A sweep up to the hollow time. -/
def sweeping (pool : String) : Service Unit := do
  let ids ← Work.unit do
    let _ ← Work.loadPool pool
    pure ((← Work.readStore (·.openPositions pool)).map (·.id))
  ids.forM processing

/-- The fault of a list repeated a number of times and then divided. -/
def repetition (times : Int) : Fault :=
  if times < signedMin ∨ signedMax < times then .repetitionTooLarge
  else .badOperands "//" .list .number

/-- An amount times a factor, of which either may be hollow. -/
def product (amount factor : Int) (hollowAmount hollowFactor : Bool) : Except Fault Unit :=
  match hollowAmount, hollowFactor with
  | false, false => .ok ()
  | true, true => .error .notMultipliable
  | true, false => .error (repetition factor)
  | false, true => .error (repetition amount)

/-- The time left of a lockup, any of whose times may be hollow. -/
def leftOf (h : Options) (l : Lockup) (time : Int) : Except Fault Int :=
  let (hollowStop, hollowTime) := (decide ("--end-ts" ∈ h), decide ("--at" ∈ h))
  match l.kind with
  | .constant => if hollowStop then .error (.badOperands "-" .list .list) else .ok l.period
  | _ =>
    if hollowStop || hollowTime then
      .error (.badOperands "-" (operand hollowStop) (operand hollowTime))
    else .ok (l.secondsLeft time)

/-- The weighing of a deposit up to its first hollow option that counts. -/
def weighing (h : Options) (l : Lockup) (w : Weighing) : Except Fault Unit := do
  let hollow := fun name => decide (name ∈ h)
  let m := w.mint
  if "--min-required-saturation-secs" ∈ h then throw (.notComparable ">" .list .number)
  if !(0 < m.minSaturation ∧ l.kind = .unlocked) then
    product w.deposited m.baselineFactor (hollow "--deposited") (hollow "--baseline-factor")
    let _ ← m.baseline w.deposited
    let locked := w.initiallyLocked
    let hollowLocked := hollow "--initially-locked"
    product locked m.leastFactor hollowLocked (hollow "--min-required-factor")
    let _ ← m.leastLocked locked
    product locked m.mostExtraFactor hollowLocked (hollow "--max-extra-factor")
    let most ← m.mostLocked locked
    let left ← leftOf h l w.time
    if left ≠ 0 ∧ most.val ≠ 0 ∧ ¬(0 < m.minSaturation ∧ left < m.minSaturation)
        ∧ "--saturation-secs" ∈ h then
      throw (.notComparable "<=" .list .number)

end StakeLedger.CommandLine.Hollow
