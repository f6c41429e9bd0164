import StakeLedger.Work

/-
  Transactions: units of work given as lists of requests to the store.
  Every request has an outcome, which is reported. A request that fails ends the transaction,
  which then leaves the store as it was, unless the request is marked as allowed to fail.
-/

namespace StakeLedger

/-- A request to the store. -/
inductive StoreRequest where
  | savePool (id : String) (pool : Pool)
  | getPool (id : String)
  | listPools
  | savePosition (p : Position)
  | getPosition (id : String)
  | listOpen (pool : String)
  | saveLockup (position : String) (index : Int) (l : Lockup)
  | getLockup (position : String) (index : Int)
  /-- Fails with a fault of its own. -/
  | fail (fault : Fault)
  deriving DecidableEq, Repr

/-- The answer to a request. -/
inductive StoreAnswer where
  | saved
  | pool (found : Option Pool)
  | poolIds (ids : List String)
  | position (found : Option Position)
  | positions (found : List Position)
  | lockup (found : Option Lockup)
  deriving DecidableEq, Repr

namespace StoreRequest

/-- Carries out a request. -/
def run {ω : Type} (access : Access) : StoreRequest → Work ω StoreAnswer
  | .savePool id pool => do
    Work.savePool access id pool
    pure .saved
  | .getPool id => do pure (.pool (← Work.readStore (·.pool? id)))
  | .listPools => do pure (.poolIds (← get).store.poolIds)
  | .savePosition p => do
    Work.savePosition access p
    pure .saved
  | .getPosition id => do pure (.position (← Work.readStore (·.position? id)))
  | .listOpen pool => do pure (.positions (← Work.readStore (·.openPositions pool)))
  | .saveLockup position index l => do
    Work.saveLockup access position index l
    pure .saved
  | .getLockup position index => do pure (.lockup (← Work.readStore (·.lockup? position index)))
  | .fail fault => throw fault

end StoreRequest

/-- A transaction: requests, each with the mark that it may fail. -/
structure Transaction where
  access : Access
  requests : List (StoreRequest × Bool)
  deriving DecidableEq, Repr

namespace Transaction

/-- The outcomes of the requests so far. -/
abbrev Outcomes := List (Except Fault StoreAnswer)

/-- Carries out a request and reports its outcome. -/
def report (access : Access) (request : StoreRequest) (mayFail : Bool) : Work Outcomes Unit :=
  Work.ofRun fun books =>
    let (result, after) := (request.run access).runOn books
    let ending : Except Fault Unit := if mayFail then .ok () else result.map fun _ => ()
    (ending, { after with outside := after.outside ++ [result] })

/-- The transaction as a unit of work. -/
def work (t : Transaction) : Work Outcomes Unit :=
  Work.unit (t.requests.forM fun request => report t.access request.1 request.2)

/-- The course of a transaction. -/
structure Course where
  outcomes : Outcomes
  ending : Except Fault Unit
  store : Store
  log : List Log.Record

/-- Runs a transaction on a store. -/
def run (t : Transaction) (store : Store) : Course :=
  let (ending, after) := t.work.runOn { store := store, outside := [] }
  ⟨after.outside, ending, after.store, after.log⟩

/-- Runs transactions one after another. -/
def runAll (store : Store) : List Transaction → List Course
  | [] => []
  | t :: rest =>
    let course := t.run store
    course :: runAll course.store rest

end Transaction

end StakeLedger
