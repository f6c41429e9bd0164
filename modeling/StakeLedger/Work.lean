import StakeLedger.Log.Record
import StakeLedger.Store.Basic

/-
  Work on the books.
  The books are the store, the log and the context of its records, and whatever else the work
  uses. Work that fails keeps the books as they were at the failure. A frame of the context
  ends with the work inside it, whether that fails or not. A unit of work whose work fails gives
  back the store that it began with, and only the store: records stay written.
-/

namespace StakeLedger

/-- The store, the log with the context of its records, and what else the work uses. -/
structure Books (ω : Type) where
  store : Store := {}
  context : Log.Context := {}
  log : List Log.Record := []
  outside : ω

/-- Work on the books; the books reached are kept if it fails. -/
abbrev Work (ω : Type) : Type → Type := ExceptT Fault (StateM (Books ω))

namespace Work

variable {ω α : Type}

/-- Runs work on some books. -/
def runOn (work : Work ω α) (books : Books ω) : Except Fault α × Books ω := work.run.run books

/-- The work of a given course on the books. -/
def ofRun (f : Books ω → Except Fault α × Books ω) : Work ω α := ExceptT.mk fun books => f books

/-- The result of a check. -/
def check (r : Except Fault α) : Work ω α := ofRun fun books => (r, books)

/-- Looks something up in the store. -/
def readStore (f : Store → Except Fault α) : Work ω α := do check (f (← get).store)

/-- Changes the store. -/
def writeStore (f : Store → Except Fault Store) : Work ω Unit := do
  let store ← readStore f
  modify fun books => { books with store := store }

/-- Writes a log record in the present context. -/
def emit (level : Int) (logger message : String) (extra : List (String × Json) := [])
    (trouble : Option Log.Trouble := none) : Work ω Unit :=
  modify fun books =>
    { books with log := books.log ++ [⟨level, logger, message, extra, books.context, trouble⟩] }

/-- Work inside a frame of the context. -/
def within (frame : Log.Context) (work : Work ω α) : Work ω α :=
  ofRun fun books =>
    let (result, after) := work.runOn { books with context := books.context.bind frame }
    (result, { after with context := books.context.leave frame after.context })

/-- The record of a unit of work that failed. -/
def rollbackRecord (context : Log.Context) (fault : Fault) : Log.Record :=
  { level := Log.Level.info
    logger := "vehnt.persistence.uow"
    message := "uow_rollback"
    extra := [("error_type", .text fault.label)]
    context := context }

/-- A unit of work: all of its writes, or none if it fails. -/
def unit (work : Work ω α) : Work ω α :=
  ofRun fun books =>
    match work.runOn books with
    | (.ok a, after) => (.ok a, after)
    | (.error fault, after) =>
      (.error fault,
        { after with
          store := books.store
          log := after.log ++ [rollbackRecord after.context fault] })

@[simp] theorem runOn_ofRun (f : Books ω → Except Fault α × Books ω) (books : Books ω) :
    (ofRun f).runOn books = f books := rfl

@[simp] theorem runOn_pure (a : α) (books : Books ω) :
    (pure a : Work ω α).runOn books = (.ok a, books) := rfl

@[simp] theorem runOn_throw (fault : Fault) (books : Books ω) :
    (throw fault : Work ω α).runOn books = (.error fault, books) := rfl

/-- Work goes on where it has not failed. -/
theorem runOn_bind {β : Type} (work : Work ω α) (next : α → Work ω β) (books : Books ω) :
    (work >>= next).runOn books =
      match work.runOn books with
      | (.ok a, after) => (next a).runOn after
      | (.error fault, after) => (.error fault, after) := by
  show (ExceptT.bindCont next =<< (work : StateM (Books ω) (Except Fault α))) books = _
  show (match (work : StateM (Books ω) (Except Fault α)) books with
    | (r, after) => ExceptT.bindCont next r after) = _
  unfold runOn ExceptT.run StateT.run
  rcases (work : StateM (Books ω) (Except Fault α)) books with ⟨r, after⟩
  cases r <;> rfl

end Work

/-- What a unit of work may do to the store. -/
inductive Access where
  | readWrite
  | readOnly
  deriving DecidableEq, Repr

/-- Refuses a write to a table of a read-only unit of work. -/
def Access.guard {ω : Type} (access : Access) (table : TableName) : Work ω Unit := do
  if access = .readOnly then
    Work.emit Log.Level.warning "vehnt.persistence.sqlite.base" "read_only_write_blocked"
      [("repo", .text table.text)]
    throw (.writeBlocked table)

namespace Work

variable {ω : Type}

/-- Saves a pool. -/
def savePool (access : Access) (id : String) (pool : Pool) : Work ω Unit := do
  access.guard .pools
  writeStore (·.savePool id pool)

/-- Saves a position. -/
def savePosition (access : Access) (p : Position) : Work ω Unit := do
  access.guard .positions
  writeStore (·.savePosition p)

/-- Saves the lockup of a deposit entry. -/
def saveLockup (access : Access) (position : String) (index : Int) (l : Lockup) :
    Work ω Unit := do
  access.guard .lockups
  writeStore (·.saveLockup position index l)

/-- The pool of an id, which must exist. -/
def loadPool (id : String) : Work ω Pool := do
  match ← readStore (·.pool? id) with
  | some pool => pure pool
  | none => throw (.unknownPool id)

/-- The position of an id, which must exist. -/
def loadPosition (id : String) : Work ω Position := do
  match ← readStore (·.position? id) with
  | some p => pure p
  | none => throw (.unknownPosition id)

end Work

end StakeLedger
