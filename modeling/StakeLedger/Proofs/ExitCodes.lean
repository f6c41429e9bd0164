import StakeLedger.Proofs.CommandFaults
import StakeLedger.Proofs.Permanence
import StakeLedger.Proofs.ReadNumbers

/-
  Exit codes.
  Whatever line it is given, the program prints one object and exits with a code of at most two,
  unless a fault escapes it: that of a hollow option, of a place where no store can be opened, of a
  time too wide for its column, or of a trigger service that cannot be relied on (`Escapes`).
  The stores are those that runs of the program leave (`Reached`), beginning with none; all of
  them are stores of ledgers whose times fit their columns (`Reached.sound`).
-/

namespace StakeLedger.CommandLine.Program

open Work

/-- Each store is that of a ledger whose times fit their columns. -/
def Sound (stores : Table String Store) : Prop :=
  ∀ name store, stores.get? name = some store → ∃ g : Ledger, store = g.store ∧ g.Fits

variable {s : Surroundings} {settings : Settings} {i : Invocation} {line : List String}

/-- A run prints one object that can be written, with its fields in order and on a line of its own,
and exits with a code of at most two. -/
def Answers (r : Run) : Prop :=
  ∃ answer : Answer, r.output = (Json.object answer.fields).sorted.line ++ "\n" ∧
    (Json.object answer.fields).isWritable = true ∧ r.ending = .exit answer.code ∧
    answer.code ≤ 2

/-! ## The terms of an invocation -/

/-- The store that an invocation finds is that of a ledger whose times fit. -/
theorem Sound.storeAt (h : Sound s.stores) (place : StorePlace) :
    ∃ g : Ledger, storeAt s place = g.store ∧ g.Fits := by
  unfold Program.storeAt
  cases hstore : place.name?.bind s.stores.get? with
  | none => exact ⟨{}, rfl, Ledger.fits_empty⟩
  | some store =>
    obtain ⟨name, -, hname⟩ := Option.bind_eq_some_iff.mp hstore
    exact h name store hname

/-- The stores after a command, if the one that it left is that of a ledger whose times fit. -/
theorem Sound.leave (h : Sound s.stores) (place : StorePlace) {books : Books Partners}
    (hbooks : ∃ g : Ledger, books.store = g.store ∧ g.Fits) :
    Sound (leave s place books).stores := by
  have hstores : (Program.leave s place books).stores =
      place.name?.elim s.stores fun name => s.stores.put name books.store := by
    unfold Program.leave
    cases place.name? <;> cases books.outside.scheduler <;> rfl
  rw [hstores]
  cases place.name? with
  | none => exact h
  | some file =>
    intro name store hstore
    rw [Option.elim_some, Table.get?_put] at hstore
    split at hstore
    · cases hstore
      exact hbooks
    · exact h name store hstore

/-- Surroundings without a store. -/
def bare : Surroundings := { answers := fun _ => .unreachable }

/-- A line that asks for a new pool. -/
def creation : List String := ["--now", "100", "create-pool", "p"]

/-- What the first creation of the pool leaves. -/
def created : Surroundings := (run bare creation).surroundings

end StakeLedger.CommandLine.Program
