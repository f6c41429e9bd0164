import StakeLedger.Json

/-
  The context of log records: what the work at hand is about.
  A frame binds some of the four fields for as long as the work inside it lasts. Leaving a
  frame gives back, to the fields that it bound and to no others, the values from before. So
  frames that are left in the reverse order of their entries leave no trace
  (`Context.leave_bind`).
-/

namespace StakeLedger.Log

/-- The fields that records may carry; as a frame, the fields to be bound. -/
structure Context where
  command : Option String := none
  pool : Option String := none
  position : Option String := none
  trigger : Option String := none
  deriving DecidableEq, Repr

namespace Context

/-- The context inside a frame. -/
def bind (outer frame : Context) : Context :=
  ⟨frame.command.or outer.command, frame.pool.or outer.pool,
    frame.position.or outer.position, frame.trigger.or outer.trigger⟩

/-- A field after a frame: the value from before it if the frame bound the field. -/
def leaveField (outer frame inner : Option String) : Option String :=
  if frame.isSome then outer else inner

/-- The context after a frame, given those before it and at its end. -/
def leave (outer frame inner : Context) : Context :=
  ⟨leaveField outer.command frame.command inner.command,
    leaveField outer.pool frame.pool inner.pool,
    leaveField outer.position frame.position inner.position,
    leaveField outer.trigger frame.trigger inner.trigger⟩

/-- The frame of the work on a position. -/
def ofPosition (position : String) (pool : Option String) : Context :=
  { position := some position, pool := pool }

/-- The contexts seen while frames are entered one inside the other and left again, and the
context after the last exit. -/
def course (outer : Context) : List Context → List Context × Context
  | [] => ([outer], outer)
  | frame :: frames =>
    let (seen, inner) := course (outer.bind frame) frames
    let after := outer.leave frame inner
    (outer :: seen ++ [after], after)

/-- The bound fields under the names that records show. -/
def fields (c : Context) : List (String × Json) :=
  [("command", c.command), ("pool_id", c.pool), ("position_id", c.position),
    ("trigger_key", c.trigger)].filterMap
    fun field => field.2.map fun value => (field.1, Json.text value)

theorem leaveField_or (outer frame : Option String) :
    leaveField outer frame (frame.or outer) = outer := by
  cases frame <;> rfl

/-- A frame that is left as it was entered leaves no trace. -/
@[simp] theorem leave_bind (outer frame : Context) :
    outer.leave frame (outer.bind frame) = outer := by
  simp [leave, bind, leaveField_or]

end Context

end StakeLedger.Log
