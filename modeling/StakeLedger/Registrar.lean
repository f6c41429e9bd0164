import StakeLedger.Lockup
import StakeLedger.Store.Table

/-
  The registrar: the clock that lockups are measured by, and where lockups are looked up.
  The clock follows the system until it is set. Lockups are either kept by the registrar or
  read from the store.
-/

namespace StakeLedger

/-- A clock in whole seconds. -/
structure Clock where
  set : Option Int := none
  system : Int := 0
  deriving DecidableEq, Repr

namespace Clock

/-- The time that the clock shows. -/
def now (c : Clock) : Int := c.set.getD c.system

/-- The clock set to a time. -/
def setTo (c : Clock) (time : Int) : Clock := { c with set := some time }

/-- The clock of a system that counts milliseconds: whole seconds, towards zero. -/
def ofSystem (ms : Int) : Clock := { system := ms.tdiv 1000 }

@[simp] theorem now_setTo (c : Clock) (time : Int) : (c.setTo time).now = time := rfl

end Clock

/-- Where lockups are looked up. -/
inductive LockupSource where
  | kept (table : Table (String × Int) Lockup)
  | stored
  deriving DecidableEq, Repr

/-- A clock, and a source of lockups. -/
structure Registrar where
  clock : Clock := {}
  lockups : LockupSource := .kept {}
  deriving DecidableEq, Repr

/-- The registrar with a lockup put into its own table, if it keeps one. -/
def Registrar.put (r : Registrar) (position : String) (index : Int) (l : Lockup) : Registrar :=
  match r.lockups with
  | .kept table => { r with lockups := .kept (table.put (position, index) l) }
  | .stored => r

end StakeLedger
