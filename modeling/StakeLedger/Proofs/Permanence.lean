import StakeLedger.Proofs.WriteSets

/-
  What is told of a position that has come to its end.
  A closed position is refused another closing before its lockup is looked up. A finalized one
  that is processed has its lockup looked up first, so it is reported as finalized only where the
  registrar knows the lockup, and otherwise the lookup is what is reported
  (`Service.refused_of_finalized`). Nothing is changed either way.
-/

namespace StakeLedger

/-! ## Lookups that fail -/

theorem Cell.read_ne_alreadyFinalized (cell : Cell) (id : String) :
    cell.read ≠ .error (.alreadyFinalized id) := by
  intro h
  cases cell with
  | int n => cases h
  | real x => cases x <;> cases h
  | text s =>
    unfold read readText at h
    dsimp only at h
    split at h <;> cases h

theorem LockupRow.read_ne_alreadyFinalized (row : LockupRow) (id : String) :
    row.read ≠ .error (.alreadyFinalized id) := by
  intro h
  unfold read at h
  rcases bind_eq_error_iff.mp h with h | ⟨kind, -, h⟩
  · unfold Lockup.Kind.read at h
    split at h <;> cases h
  rcases bind_eq_error_iff.mp h with h | ⟨start, -, h⟩
  · exact Cell.read_ne_alreadyFinalized _ _ h
  rcases bind_eq_error_iff.mp h with h | ⟨stop, -, h⟩
  · exact Cell.read_ne_alreadyFinalized _ _ h
  unfold Lockup.between at h
  split at h <;> cases h

/-- No lookup of a lockup reports a finalization. -/
theorem Registrar.find?_ne_alreadyFinalized (r : Registrar) (s : Store) (position id : String)
    (index : Int) : r.find? s position index ≠ .error (.alreadyFinalized id) := by
  intro h
  unfold find? at h
  split at h
  · cases h
  · unfold Store.lockup? at h
    rcases bind_eq_error_iff.mp h with h | ⟨cell, -, h⟩
    · unfold Cell.ofInt at h
      split at h <;> cases h
    · cases hrow : s.lockups.get? (position, cell) with
      | none => rw [hrow] at h; cases h
      | some row =>
        rw [hrow] at h
        change (some <$> row.read) = .error (.alreadyFinalized id) at h
        cases hread : row.read with
        | ok l => rw [hread] at h; cases h
        | error fault =>
          rw [hread] at h
          cases h
          exact row.read_ne_alreadyFinalized id hread

namespace Work

variable {ω α β : Type} {work : Work ω α} {next : α → Work ω β} {books mid : Books ω} {a : α}
  {fault : Fault}

/-- Work is refused: it ends with a fault, and store and all else stay as they were. -/
structure Refused (work : Work ω α) (books : Books ω) (fault : Fault) : Prop where
  result_eq : (work.runOn books).1 = .error fault
  store_eq : (work.runOn books).2.store = books.store
  outside_eq : (work.runOn books).2.outside = books.outside

theorem Restores.refused (h : Restores work) (hresult : (work.runOn books).1 = .error fault) :
    Refused work books fault := by
  obtain ⟨hstore, houtside⟩ := h books fault _ (Prod.ext hresult rfl)
  exact ⟨hresult, hstore, houtside⟩

/-- Work that begins with what is refused is refused. -/
theorem Refused.bind (h : Refused work books fault) : Refused (work >>= next) books fault := by
  obtain ⟨hresult, hstore, houtside⟩ := h
  have hrun : (work >>= next).runOn books = (.error fault, (work.runOn books).2) := by
    rw [runOn_bind]
    rcases hwork : work.runOn books with ⟨result, after⟩
    rw [hwork] at hresult
    cases hresult
    rfl
  exact ⟨by rw [hrun], by rw [hrun, hstore], by rw [hrun, houtside]⟩

theorem runOn_bind_of_ok (h : work.runOn books = (.ok a, mid)) :
    (work >>= next).runOn books = (next a).runOn mid := by
  rw [runOn_bind, h]

theorem result_bind_of_error (h : (work.runOn books).1 = .error fault) :
    ((work >>= next).runOn books).1 = .error fault := by
  rw [runOn_bind]
  rcases hrun : work.runOn books with ⟨result, after⟩
  rw [hrun] at h
  cases h
  rfl

/-- A unit of work ends as its work does. -/
theorem result_unit (work : Work ω α) (books : Books ω) :
    ((unit work).runOn books).1 = (work.runOn books).1 := by
  unfold unit
  rw [runOn_ofRun]
  rcases work.runOn books with ⟨result, after⟩
  cases result <;> rfl

theorem result_within (frame : Log.Context) (work : Work ω α) (books : Books ω) :
    ((within frame work).runOn books).1 =
      (work.runOn { books with context := books.context.bind frame }).1 := rfl

end Work

/-! ## Positions that have come to their end -/

namespace Service

open Work

variable {books : Books Partners} {id : String} {p : Position} {pool : Pool}

/-- What is reported of a finalized position by what the lookup of its lockup has found. -/
def finalizedFault (p : Position) : Except Fault (Option Lockup) → Fault
  | .ok (some _) => .alreadyFinalized p.id
  | .ok none => .unknownLockup p.id p.index
  | .error fault => fault

/-- A finalized position is refused a decision, whatever its lockup. -/
theorem result_decideAt_of_finalized (hp : books.store.position? id = .ok (some p))
    (hfinal : p.phase.isFinalized = true) (hpool : books.store.pool? p.pool = .ok (some pool))
    (view : Lockup.View) (time : Int) :
    ((Purges.decideAt id view time).runOn books).1 = .error (.alreadyFinalized p.id) := by
  have hdecision : Purge.decision books.outside.policy p pool view time =
      .error (.alreadyFinalized p.id) := by
    unfold Purge.decision
    rw [if_pos hfinal]
  have hload : ∀ context, (Work.loadPool p.pool).runOn { books with context := context } =
      (.ok pool, { books with context := context }) :=
    fun context => runOn_loadPool_ok_iff.mpr ⟨hpool, rfl⟩
  unfold Purges.decideAt
  rw [result_unit, runOn_bind_of_ok (runOn_loadPosition_ok_iff.mpr ⟨hp, rfl⟩), result_within,
    runOn_bind_of_ok (hload _), runOn_bind_of_ok (runOn_partners_ok_iff.mpr ⟨rfl, rfl⟩)]
  exact result_bind_of_error hdecision

/-- What looking up a lockup reports that must be known. -/
theorem result_lockup (books : Books Partners) (position : String) (index : Int) :
    ((lockup position index).runOn books).1 =
      match books.outside.registrar.find? books.store position index with
      | .ok (some l) => .ok l
      | .ok none => .error (.unknownLockup position index)
      | .error fault => .error fault := by
  cases hfound : books.outside.registrar.find? books.store position index with
  | ok found =>
    have hrun := runOn_lockup?_ok_iff.mpr ⟨hfound, rfl⟩
    unfold lockup
    rw [runOn_bind_of_ok hrun]
    cases found <;> rfl
  | error fault =>
    refine result_bind_of_error ?_
    rw [lockup?, runOn_bind_of_ok (runOn_partners_ok_iff.mpr ⟨rfl, rfl⟩)]
    unfold Registrar.find? at hfound
    cases hsource : books.outside.registrar.lockups with
    | kept table => rw [hsource] at hfound; cases hfound
    | stored =>
      rw [hsource] at hfound
      exact (result_unit _ books).trans hfound

/-- A finalized position that is processed is refused, and nothing is changed. -/
theorem refused_process_of_finalized (hp : books.store.position? id = .ok (some p))
    (hfinal : p.phase.isFinalized = true) (hpool : books.store.pool? p.pool = .ok (some pool)) :
    Refused (process id) books
      (finalizedFault p (books.outside.registrar.find? books.store id p.index)) := by
  have hid : p.id = id := Store.id_of_position? hp
  have hloaded : (Work.unit (Work.loadPosition id)).runOn books = (.ok p, books) :=
    runOn_unit_ok_iff.mpr (runOn_loadPosition_ok_iff.mpr ⟨hp, rfl⟩)
  have hjudge : ((judge id).runOn books).1 = .error
      (finalizedFault p (books.outside.registrar.find? books.store id p.index)) := by
    have hlockup := result_lockup books id p.index
    rw [judge, runOn_bind_of_ok hloaded]
    cases hfound : books.outside.registrar.find? books.store id p.index with
    | error fault =>
      rw [hfound] at hlockup
      exact result_bind_of_error hlockup
    | ok found =>
      cases found with
      | none =>
        rw [hfound] at hlockup
        rw [finalizedFault, hid]
        exact result_bind_of_error hlockup
      | some l =>
        rw [runOn_bind_of_ok (runOn_lockup_ok_iff.mpr ⟨hfound, rfl⟩),
          runOn_bind_of_ok (runOn_now_ok_iff.mpr ⟨rfl, rfl⟩)]
        exact result_decideAt_of_finalized hp hfinal hpool l.view _
  rw [process_eq]
  exact ((restores_judge id).refused hjudge).bind

/-- A closed position is refused another closing whatever the registrar knows. -/
theorem refused_closePosition_of_closed (hp : books.store.position? id = .ok (some p))
    (hclosed : p.phase = .closed) (amount : Int) :
    Refused (closePosition id amount) books (.alreadyClosed id) := by
  have hid : p.id = id := Store.id_of_position? hp
  have hclose : p.close = .error (.alreadyClosed id) := by
    unfold Position.close
    rw [hclosed, hid]
  refine (restores_closePosition id amount).refused ?_
  rw [closePosition, runOn_bind_of_ok
    (runOn_unit_ok_iff.mpr (runOn_loadPosition_ok_iff.mpr ⟨hp, rfl⟩))]
  exact result_bind_of_error hclose

/-- Whatever the registrar knows, its clock shows and the rules for purges are: a finalized
position that is processed is refused, and neither the store nor registrar and scheduler change.
It is reported as finalized exactly where its lockup is found; otherwise the lockup is reported,
as unknown or by the fault of its row. A closed position is refused another closing as such in
any case. -/
theorem refused_of_finalized (books : Books Partners) (id : String) (p : Position) (pool : Pool)
    (hp : books.store.position? id = .ok (some p)) (hfinal : p.phase.isFinalized = true)
    (hpool : books.store.pool? p.pool = .ok (some pool)) :
    Refused (process id) books
        (finalizedFault p (books.outside.registrar.find? books.store id p.index)) ∧
      (Refused (process id) books (.alreadyFinalized id) ↔
        ∃ l, books.outside.registrar.find? books.store id p.index = .ok (some l)) ∧
      (p.phase = .closed →
        ∀ amount, Refused (closePosition id amount) books (.alreadyClosed id)) := by
  have hid : p.id = id := Store.id_of_position? hp
  have hrefused := refused_process_of_finalized hp hfinal hpool
  refine ⟨hrefused, ⟨fun h => ?_, ?_⟩, fun hclosed => refused_closePosition_of_closed hp hclosed⟩
  · have hfault : finalizedFault p (books.outside.registrar.find? books.store id p.index) =
        .alreadyFinalized id := Except.error.inj (hrefused.result_eq.symm.trans h.result_eq)
    cases hfound : books.outside.registrar.find? books.store id p.index with
    | error fault =>
      rw [hfound] at hfault
      cases hfault
      exact absurd hfound (Registrar.find?_ne_alreadyFinalized _ _ _ _ _)
    | ok found =>
      cases found with
      | none => rw [hfound] at hfault; cases hfault
      | some l => exact ⟨l, rfl⟩
  · rintro ⟨l, hl⟩
    rw [hl, finalizedFault, hid] at hrefused
    exact hrefused

/-- A pool with a purged and a closed position, whose lockups are stored. The registrar has a
table of its own, which is empty, as after a new start. -/
def restartedBooks : Books Partners where
  store :=
    { pools := ⟨[("pool", ⟨"1000", "0", .int 0⟩)]⟩
      positions := ⟨[("purged", ⟨"pool", .int 0, "10", .int 1, .int 0⟩),
        ("left", ⟨"pool", .int 1, "5", .int 1, .int 1⟩)]⟩
      lockups := ⟨[(("purged", .int 0), ⟨"cliff", .int 0, .int 20⟩),
        (("left", .int 1), ⟨"cliff", .int 0, .int 20⟩)]⟩ }
  outside := {}

/-- After a new start the closed position is processed: its lockup is reported as unknown, where
a registrar that looks into the store has it reported as finalized. Closing it again is refused
as such. -/
theorem refused_of_finalized_restarted :
    (∃ p pool, restartedBooks.store.position? "left" = .ok (some p) ∧
      p.phase.isFinalized = true ∧ restartedBooks.store.pool? p.pool = .ok (some pool)) ∧
      Refused (process "left") restartedBooks (.unknownLockup "left" 1) ∧
      Refused (process "left")
        { restartedBooks with outside := { registrar := { lockups := .stored } } }
        (.alreadyFinalized "left") ∧
      ∀ amount, Refused (closePosition "left" amount) restartedBooks (.alreadyClosed "left") := by
  have hp : restartedBooks.store.position? "left" =
      .ok (some { Position.running "left" "pool" 1 5 with phase := .closed }) := by decide +kernel
  have hpool : restartedBooks.store.pool? "pool" = .ok (some ⟨.capped 1000, .capped 0, 0⟩) := by
    decide +kernel
  obtain ⟨hprocess, -, hclose⟩ := refused_of_finalized restartedBooks "left" _ _ hp rfl hpool
  obtain ⟨-, hknown, -⟩ := refused_of_finalized
    { restartedBooks with outside := { registrar := { lockups := .stored } } } "left" _ _ hp rfl
    hpool
  exact ⟨⟨_, _, hp, rfl, hpool⟩, hprocess,
    hknown.mpr ⟨.lasting .cliff 0 20, by decide +kernel⟩, hclose rfl⟩

/-- A finalized position that is processed is reported as finalized, whatever the registrar
knows. -/
def FinalizedPermanent : Prop :=
  ∀ (books : Books Partners) (id : String) (p : Position) (pool : Pool),
    books.store.position? id = .ok (some p) → p.phase.isFinalized = true →
    books.store.pool? p.pool = .ok (some pool) →
    Refused (process id) books (.alreadyFinalized id)

/-- After a new start the purged position is processed, and its lockup is reported as unknown. -/
theorem not_finalizedPermanent : ¬FinalizedPermanent := by
  intro h
  have hp : restartedBooks.store.position? "purged" =
      .ok (some { Position.running "purged" "pool" 0 10 with phase := .finalized }) := by
    decide +kernel
  have hpool : restartedBooks.store.pool? "pool" = .ok (some ⟨.capped 1000, .capped 0, 0⟩) := by
    decide +kernel
  have hreported := (h restartedBooks "purged" _ _ hp rfl hpool).result_eq
  have hunknown : ((process "purged").runOn restartedBooks).1 =
      .error (.unknownLockup "purged" 0) := by decide +kernel
  rw [hunknown] at hreported
  cases hreported

end Service

end StakeLedger
