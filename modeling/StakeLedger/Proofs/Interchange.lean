import StakeLedger.Proofs.Separation

/-
  Registrars that can take each other's place.
  A session is run twice: once with a registrar that keeps the lockups in a table of its own, and
  once with one that looks them up in the store. As long as lockups come from openings only, the
  table is at every point that of the ledger behind the store (`Session.Mirrored`). Every lookup
  then finds the same on both sides, and what goes on from it is one posting on one ledger, so
  answers, rows and triggers are the same throughout (`Session.shared_step`).
-/

namespace StakeLedger

/-- The registrar, with another place where lockups are looked up. -/
def Registrar.lookingUp (r : Registrar) (source : LockupSource) : Registrar :=
  { r with lockups := source }

/-- The partners, with another place where lockups are looked up. -/
def Partners.lookingUp (o : Partners) (source : LockupSource) : Partners :=
  { o with registrar := o.registrar.lookingUp source }

@[simp] theorem Partners.clock_lookingUp (o : Partners) (source : LockupSource) :
    (o.lookingUp source).registrar.clock = o.registrar.clock := rfl

@[simp] theorem Partners.policy_lookingUp (o : Partners) (source : LockupSource) :
    (o.lookingUp source).policy = o.policy := rfl

/-! ## Postings of both registrars -/

namespace Posting

variable {α β : Type} {t t' : Posting α} {u u' : α → Posting β} {g g' : Ledger} {id : String}
  {time amount : Int}

/-- Postings that go on alike from what the first part leaves. -/
theorem run_bind_congr (h : ∀ a g', t.run g = .ok (a, g') → (u a).run g' = (u' a).run g') :
    (t >>= u).run g = (t >>= u').run g := by
  show (t.run g >>= fun r => (u r.1).run r.2) = (t.run g >>= fun r => (u' r.1).run r.2)
  cases hrun : t.run g with
  | error fault => rfl
  | ok r => exact h r.1 r.2 hrun

/-- Postings whose first parts come to the same. -/
theorem run_bind_congr_left (h : t.run g = t'.run g) : (t >>= u).run g = (t' >>= u).run g := by
  show (t.run g >>= fun r => (u r.1).run r.2) = (t'.run g >>= fun r => (u r.1).run r.2)
  rw [h]

theorem result_congr (h : t.run g = t'.run g) : t.result g = t'.result g := by
  rw [result, h, result]

theorem after_congr (h : t.run g = t'.run g) : t.after g = t'.after g := by
  rw [after, h, after]

/-- In the table of a ledger a lockup is found as it is in the store of the ledger. -/
theorem run_findLockup_stored (r : Registrar) (g : Ledger) (position : String) {index : Int}
    (hindex : Cell.fits index = true) :
    (findLockup (r.lookingUp .stored) position index).run g =
      (findLockup (r.lookingUp (.kept g.lockups)) position index).run g := by
  refine run_bind_congr_left ?_
  show (g.lockup? position index).map (fun found => (found, g)) =
    Except.ok (g.lockups.get? (position, index), g)
  rw [Ledger.lockup?, Cell.ofInt_eq_ok_iff.mpr ⟨hindex, rfl⟩]
  rfl

theorem run_closePosition_stored (r : Registrar) (g : Ledger) (id : String) (amount : Int) :
    (closePosition (r.lookingUp .stored) id amount).run g =
      (closePosition (r.lookingUp (.kept g.lockups)) id amount).run g := by
  refine run_bind_congr fun p g₁ hp => ?_
  obtain ⟨-, rfl⟩ := run_loadPosition_ok_iff.mp hp
  refine run_bind_congr fun closed g₂ hclosed => ?_
  obtain ⟨-, rfl⟩ := run_check_ok_iff.mp hclosed
  exact run_bind_congr_left (run_findLockup_stored r _ id p.fits_index)

theorem run_process_stored (r : Registrar) (policy : Purge.Policy) (g : Ledger) (id : String) :
    (process (r.lookingUp .stored) policy id).run g =
      (process (r.lookingUp (.kept g.lockups)) policy id).run g := by
  refine run_bind_congr fun p g₁ hp => ?_
  obtain ⟨-, rfl⟩ := run_loadPosition_ok_iff.mp hp
  exact run_bind_congr_left (run_findLockup_stored r _ id p.fits_index)

/-! ### Postings that leave the lockups alone -/

theorem Looks.lockups_after (h : t.Looks) (g : Ledger) : (t.after g).lockups = g.lockups := by
  rw [h g]

theorem lockups_createPool (id : String) (asOf : Int) (g : Ledger) :
    ((createPool id asOf).after g).lockups = g.lockups := by
  refine keeps (P := fun g' => g'.lockups = g.lockups) rfl fun pool g' hrun => ?_
  obtain ⟨-, rfl⟩ := run_createPool_ok hrun
  rfl

theorem lockups_rollForward (id : String) (time : Int) (g : Ledger) :
    ((rollForward id time).after g).lockups = g.lockups := by
  refine keeps (P := fun g' => g'.lockups = g.lockups) rfl fun pool g' hrun => ?_
  obtain ⟨-, -, -, rfl⟩ := run_rollForward_ok hrun
  rfl

theorem lockups_closePosition (registrar : Registrar) (id : String) (amount : Int) (g : Ledger) :
    ((closePosition registrar id amount).after g).lockups = g.lockups := by
  refine keeps (P := fun g' => g'.lockups = g.lockups) rfl fun pool g' hrun => ?_
  obtain ⟨-, -, -, -, -, -, -, -, hlockups⟩ := exchange_of_close hrun
  exact hlockups

theorem lockups_process (registrar : Registrar) (policy : Purge.Policy) (id : String)
    (g : Ledger) : ((process registrar policy id).after g).lockups = g.lockups := by
  refine keeps (P := fun g' => g'.lockups = g.lockups) rfl fun r g' hrun => ?_
  rcases exchange_of_process hrun with rfl | ⟨-, -, -, -, -, -, -, -, -, hlockups⟩
  · rfl
  · exact hlockups

end Posting

/-- A round by the ledger's own table is one by the store. -/
theorem Purge.Round.stored {r : Registrar} {policy : Policy} {g g' : Ledger} {ids : List String}
    {rs : List Result} {fault? : Option Fault} {table : Table (String × Int) Lockup}
    (h : Round (r.lookingUp (.kept table)) policy g ids rs fault? g') (htable : g.lockups = table) :
    Round (r.lookingUp .stored) policy g ids rs fault? g' ∧ g'.lockups = table := by
  induction h with
  | done g => exact ⟨.done g, htable⟩
  | @raised g id rest fault htold =>
    subst htable
    rw [← Posting.result_congr (Posting.run_process_stored r policy g id)] at htold
    exact ⟨.raised htold, rfl⟩
  | @visited g g' id rest outcome rs fault? htold hrest ih =>
    subst htable
    obtain ⟨hrest', htable'⟩ := ih (Posting.lockups_process _ _ _ _)
    have hvisit := Posting.run_process_stored r policy g id
    rw [← Posting.result_congr hvisit] at htold
    rw [← Posting.after_congr hvisit] at hrest'
    exact ⟨.visited htold hrest', htable'⟩

/-! ## Two sessions on one ledger -/

namespace Session

open Work Service

/-- Does a step leave lockups to the openings, which give theirs to the registrar as well? A step
that looks a lockup up does so for an index that a row can have. -/
def Step.RegistersOpenings : Step → Prop
  | .openPosition _ _ _ registered => registered = true
  | .findLockup _ index => Cell.fits index = true
  | .registerLockup _ _ _ | .storeLockup _ _ _ => False
  | .setClock _ | .advanceClock _ | .readClock | .createPool _ _ | .closePosition _ _
  | .poolStatus _ | .rollForward _ | .process _ | .sweep _ | .fail _ => True

instance : (s : Step) → Decidable s.RegistersOpenings
  | .openPosition _ _ _ registered => inferInstanceAs (Decidable (registered = true))
  | .findLockup _ index => inferInstanceAs (Decidable (Cell.fits index = true))
  | .registerLockup _ _ _ | .storeLockup _ _ _ => isFalse id
  | .setClock _ | .advanceClock _ | .readClock | .createPool _ _ | .closePosition _ _
  | .poolStatus _ | .rollForward _ | .process _ | .sweep _ | .fail _ => isTrue trivial

/-- Two books hold the store of one ledger. The registrar of the first keeps the ledger's table of
lockups, that of the second looks into the store, and the partners are otherwise the same. -/
structure Mirrored (g : Ledger) (o : Partners) (books books' : Books Partners) : Prop where
  store_eq : books.store = g.store
  store_eq' : books'.store = g.store
  outside_eq : books.outside = o.lookingUp (.kept g.lockups)
  outside_eq' : books'.outside = o.lookingUp .stored
  keeps : o.scheduler.Keeps

/-- The two sessions share a step: it has one answer, and leaves them on one ledger. -/
structure Shared (books books' : Books Partners) (s : Step) : Prop where
  answer_eq : (step books s).answer = (step books' s).answer
  mirrored : ∃ g' o', Mirrored g' o' (step books s).books (step books' s).books

variable {g : Ledger} {o : Partners} {books books' : Books Partners} {s : Step}

theorem Mirrored.clock_eq (h : Mirrored g o books books') :
    books.outside.registrar.clock = books'.outside.registrar.clock := by
  rw [h.outside_eq, h.outside_eq', Partners.clock_lookingUp, Partners.clock_lookingUp]

/-- A step whose service comes to the same in both sessions. -/
theorem shared_of_runOn {α : Type} {service : Service α} {tell : α → Answer}
    {result : Except Fault α} {after after' : Books Partners} {g' : Ledger} {o' : Partners}
    (hrun : s.run = service >>= fun a => pure (tell a))
    (h : service.runOn (fresh books) = (result, after))
    (h' : service.runOn (fresh books') = (result, after'))
    (hmirrored : Mirrored g' o' after after') : Shared books books' s := by
  have hstep : step books s = ⟨result.map tell, after⟩ := by rw [step_eq hrun, h]
  have hstep' : step books' s = ⟨result.map tell, after'⟩ := by rw [step_eq hrun, h']
  refine ⟨by rw [hstep, hstep'], g', o', ?_⟩
  rw [hstep, hstep']
  exact hmirrored

/-- A step whose postings come to the same and leave the lockups alone. -/
theorem shared_of_performs {α : Type} {service : Service α} {t t' : Posting α}
    {tell : α → Answer} (hmirrored : Mirrored g o books books')
    (h : Performs books.outside service t) (h' : Performs books'.outside service t')
    (ht : t'.run g = t.run g) (hlockups : (t.after g).lockups = g.lockups)
    (hrun : s.run = service >>= fun a => pure (tell a)) : Shared books books' s := by
  obtain ⟨hanswer, hstore, hsame⟩ := step_of_performs hmirrored.store_eq h hrun
  obtain ⟨hanswer', hstore', hsame'⟩ := step_of_performs hmirrored.store_eq' h' hrun
  rw [Posting.result_congr ht] at hanswer'
  rw [Posting.after_congr ht] at hstore'
  refine ⟨hanswer.trans hanswer'.symm, t.after g, o, hstore, hstore', ?_, ?_, hmirrored.keeps⟩
  · rw [hsame, hmirrored.outside_eq, hlockups]
  · rw [hsame', hmirrored.outside_eq']

/-- An opening puts its lockup into both tables, or into neither. -/
theorem shared_openPosition (hmirrored : Mirrored g o books books') (p : Position)
    (amount : Int) (l : Lockup) : Shared books books' (.openPosition p amount l true) := by
  obtain ⟨hanswer, hstore, hpartners⟩ := step_open_registered hmirrored.store_eq p amount l
  obtain ⟨hanswer', hstore', hpartners'⟩ := step_open_registered hmirrored.store_eq' p amount l
  rw [hmirrored.outside_eq, Partners.clock_lookingUp] at hanswer hstore hpartners
  rw [hmirrored.outside_eq', Partners.clock_lookingUp] at hanswer' hstore' hpartners'
  refine ⟨hanswer.trans hanswer'.symm,
    (Posting.openPosition o.registrar.clock.now p amount l).after g, o, hstore, hstore', ?_, ?_,
    hmirrored.keeps⟩
  · rw [hpartners]
    cases hresult : (Posting.openPosition o.registrar.clock.now p amount l).result g with
    | error fault => rw [Posting.after_of_error hresult]
    | ok pool =>
      obtain ⟨-, -, hlockups⟩ := Posting.exchange_of_open (Posting.run_of_result hresult)
      rw [hlockups]
      rfl
  · rw [hpartners']
    split <;> rfl

theorem shared_process (hmirrored : Mirrored g o books books') (id : String) :
    Shared books books' (.process id) := by
  have hbooks : (fresh books).outside = o.lookingUp (.kept g.lockups) := hmirrored.outside_eq
  have hbooks' : (fresh books').outside = o.lookingUp .stored := hmirrored.outside_eq'
  have hstore : (fresh books).store = g.store := hmirrored.store_eq
  have hstore' : (fresh books').store = g.store := hmirrored.store_eq'
  have hprocess := runOn_process_of_kept hstore (by rw [hbooks]; exact hmirrored.keeps) id
  have hprocess' := runOn_process_of_kept hstore' (by rw [hbooks']; exact hmirrored.keeps) id
  have hvisit : (Posting.process (o.lookingUp .stored).registrar o.policy id).run g =
      (Posting.process (o.lookingUp (.kept g.lockups)).registrar o.policy id).run g :=
    Posting.run_process_stored o.registrar o.policy g id
  have hlockups := Posting.lockups_process (o.lookingUp (.kept g.lockups)).registrar o.policy id g
  rw [hbooks, Partners.policy_lookingUp] at hprocess
  rw [hbooks', Partners.policy_lookingUp, Posting.result_congr hvisit,
    Posting.after_congr hvisit] at hprocess'
  cases hresult :
    (Posting.process (o.lookingUp (.kept g.lockups)).registrar o.policy id).result g with
  | error fault =>
    rw [hresult] at hprocess hprocess'
    obtain ⟨after, hrun, hafter, houtside⟩ := hprocess
    obtain ⟨after', hrun', hafter', houtside'⟩ := hprocess'
    have hmirrored' : Mirrored g o after after' :=
      ⟨hafter, hafter', houtside, houtside', hmirrored.keeps⟩
    exact shared_of_runOn rfl hrun hrun' hmirrored'
  | ok r =>
    rw [hresult] at hprocess hprocess'
    obtain ⟨after, hrun, hafter, houtside⟩ := hprocess
    obtain ⟨after', hrun', hafter', houtside'⟩ := hprocess'
    have hmirrored' : Mirrored _
        { o with scheduler := o.scheduler.moved r.2.outcome.updates } after after' :=
      ⟨hafter, hafter', by rw [hlockups]; exact houtside, houtside', hmirrored.keeps.moved _⟩
    exact shared_of_runOn rfl hrun hrun' hmirrored'

/-- A sweep is the same round on both sides. -/
theorem shared_sweep (hmirrored : Mirrored g o books books') (pool : String) :
    Shared books books' (.sweep pool) := by
  by_cases hpool : g.pools.get? pool = none
  · obtain ⟨hanswer, hstore, hpartners⟩ := step_sweep_of_none hmirrored.store_eq hpool
    obtain ⟨hanswer', hstore', hpartners'⟩ := step_sweep_of_none hmirrored.store_eq' hpool
    exact ⟨hanswer.trans hanswer'.symm, g, o, hstore, hstore',
      hpartners.trans hmirrored.outside_eq, hpartners'.trans hmirrored.outside_eq',
      hmirrored.keeps⟩
  · have hkept : books.outside.scheduler.Keeps := by
      rw [hmirrored.outside_eq]
      exact hmirrored.keeps
    have hkept' : books'.outside.scheduler.Keeps := by
      rw [hmirrored.outside_eq']
      exact hmirrored.keeps
    obtain ⟨rs, fault?, after, hround⟩ := Purge.exists_round
      (o.registrar.lookingUp (.kept g.lockups)) o.policy g ((g.openPositions pool).map (·.id))
    obtain ⟨hround', hlockups⟩ := hround.stored rfl
    obtain ⟨hanswer, hstore, hpartners⟩ := step_sweep hmirrored.store_eq hkept hpool
      (by rw [hmirrored.outside_eq]; exact hround)
    obtain ⟨hanswer', hstore', hpartners'⟩ := step_sweep hmirrored.store_eq' hkept' hpool
      (by rw [hmirrored.outside_eq']; exact hround')
    rw [hmirrored.outside_eq] at hpartners
    rw [hmirrored.outside_eq'] at hpartners'
    refine ⟨hanswer.trans hanswer'.symm, after,
      { o with scheduler := o.scheduler.moved (Purge.updates rs) }, hstore, hstore', ?_,
      hpartners', hmirrored.keeps.moved _⟩
    rw [hlockups]
    exact hpartners

/-- The clocks of both sides are set to one time. -/
theorem mirrored_setClock (hmirrored : Mirrored g o books books') (time : Int) :
    Mirrored g
      { o with registrar := { o.registrar with clock := o.registrar.clock.setTo time } }
      (step books (.setClock time)).books (step books' (.setClock time)).books := by
  refine ⟨hmirrored.store_eq, hmirrored.store_eq', ?_, ?_, hmirrored.keeps⟩
  · show ({ books.outside with registrar := { books.outside.registrar with
      clock := books.outside.registrar.clock.setTo time } } : Partners) = _
    rw [hmirrored.outside_eq]
    rfl
  · show ({ books'.outside with registrar := { books'.outside.registrar with
      clock := books'.outside.registrar.clock.setTo time } } : Partners) = _
    rw [hmirrored.outside_eq']
    rfl

theorem shared_setClock (hmirrored : Mirrored g o books books') (time : Int) :
    Shared books books' (.setClock time) := ⟨rfl, _, _, mirrored_setClock hmirrored time⟩

theorem shared_advanceClock (hmirrored : Mirrored g o books books') (seconds : Int) :
    Shared books books' (.advanceClock seconds) := by
  have htime : books.outside.registrar.clock.now + seconds =
      books'.outside.registrar.clock.now + seconds := by rw [hmirrored.clock_eq]
  have hset := mirrored_setClock hmirrored (books.outside.registrar.clock.now + seconds)
  refine ⟨congrArg (fun time => Except.ok (Answer.time time)) htime, _, _, hset.store_eq,
    hset.store_eq', hset.outside_eq, ?_, hset.keeps⟩
  rw [← hset.outside_eq', htime]
  rfl

/-- A step that leaves the books as they are. -/
theorem shared_of_same (hmirrored : Mirrored g o books books')
    (hanswer : (step books s).answer = (step books' s).answer)
    (hsame : (step books s).books = fresh books) (hsame' : (step books' s).books = fresh books') :
    Shared books books' s := by
  refine ⟨hanswer, g, o, ?_⟩
  rw [hsame, hsame']
  exact ⟨hmirrored.store_eq, hmirrored.store_eq', hmirrored.outside_eq, hmirrored.outside_eq',
    hmirrored.keeps⟩

theorem shared_findLockup (hmirrored : Mirrored g o books books') (position : String)
    {index : Int} (hindex : Cell.fits index = true) :
    Shared books books' (.findLockup position index) := by
  have hlook := Posting.looks_findLockup books.outside.registrar position index
  refine shared_of_performs hmirrored (performs_lockup position index)
    (performs_lockup position index) ?_ (hlook.lockups_after g) rfl
  rw [hmirrored.outside_eq, hmirrored.outside_eq']
  exact Posting.run_findLockup_stored o.registrar g position hindex

theorem shared_createPool (hmirrored : Mirrored g o books books') (id : String)
    (time : Option Int) : Shared books books' (.createPool id time) := by
  refine shared_of_performs hmirrored (performs_createPool id time) (performs_createPool id time)
    ?_ (Posting.lockups_createPool id _ g) rfl
  rw [hmirrored.clock_eq]

theorem shared_closePosition (hmirrored : Mirrored g o books books') (id : String)
    (amount : Int) : Shared books books' (.closePosition id amount) := by
  refine shared_of_performs hmirrored (performs_closePosition id amount)
    (performs_closePosition id amount) ?_ (Posting.lockups_closePosition _ id amount g) rfl
  rw [hmirrored.outside_eq, hmirrored.outside_eq']
  exact Posting.run_closePosition_stored o.registrar g id amount

theorem shared_poolStatus (hmirrored : Mirrored g o books books') (id : String) :
    Shared books books' (.poolStatus id) := by
  have hlook := Posting.looks_status id books.outside.registrar.clock.now
  refine shared_of_performs hmirrored (performs_status id) (performs_status id) ?_
    (hlook.lockups_after g) rfl
  rw [hmirrored.clock_eq]

theorem shared_rollForward (hmirrored : Mirrored g o books books') (id : String) :
    Shared books books' (.rollForward id) := by
  refine shared_of_performs hmirrored (performs_rollForward id) (performs_rollForward id) ?_
    (Posting.lockups_rollForward id _ g) rfl
  rw [hmirrored.clock_eq]

/-- The two sessions share every step that leaves lockups to the openings. -/
theorem shared_step (hmirrored : Mirrored g o books books') (hs : s.RegistersOpenings) :
    Shared books books' s := by
  cases s with
  | registerLockup | storeLockup => exact hs.elim
  | setClock time => exact shared_setClock hmirrored time
  | advanceClock seconds => exact shared_advanceClock hmirrored seconds
  | readClock =>
    exact shared_of_same hmirrored (congrArg (fun clock : Clock =>
      Except.ok (Answer.time clock.now)) hmirrored.clock_eq) rfl rfl
  | fail fault => exact shared_of_same hmirrored rfl rfl rfl
  | findLockup position index => exact shared_findLockup hmirrored position hs
  | createPool id time => exact shared_createPool hmirrored id time
  | openPosition p amount l registered =>
    obtain rfl : registered = true := hs
    exact shared_openPosition hmirrored p amount l
  | closePosition id amount => exact shared_closePosition hmirrored id amount
  | poolStatus id => exact shared_poolStatus hmirrored id
  | rollForward id => exact shared_rollForward hmirrored id
  | process id => exact shared_process hmirrored id
  | sweep pool => exact shared_sweep hmirrored pool

/-! ## Whole sessions -/

/-- What is seen of a step: its answer, and the store and the scheduler after it. -/
def Entry.seen (entry : Entry) : Except Fault Answer × Store × Scheduler :=
  (entry.answer, entry.books.store, entry.books.outside.scheduler)

/-- The two sessions show the same from step to step. -/
theorem mirrored_course {steps : List Step} (hmirrored : Mirrored g o books books')
    (hsteps : ∀ s ∈ steps, s.RegistersOpenings) :
    (course books steps).map Entry.seen = (course books' steps).map Entry.seen := by
  induction steps generalizing g o books books' with
  | nil => rfl
  | cons s rest ih =>
    obtain ⟨hs, hrest⟩ := List.forall_mem_cons.mp hsteps
    obtain ⟨hanswer, g', o', hafter⟩ := shared_step hmirrored hs
    have hseen : (step books s).seen = (step books' s).seen := by
      unfold Entry.seen
      rw [hanswer, hafter.store_eq, hafter.store_eq', hafter.outside_eq, hafter.outside_eq']
      rfl
    rw [course, course, List.map_cons, List.map_cons, hseen, ih hafter hrest]

/-- Sessions on an empty store in which lockups come from openings only, and every opening gives
its lockup to the registrar, show the same with a registrar of its own table and with one that
looks into the store: the same answers and faults, the same rows and the same triggers after every
step. -/
theorem registrars_interchangeable (o : Partners) (steps : List Step) (hkept : o.scheduler.Keeps)
    (hsteps : ∀ s ∈ steps, s.RegistersOpenings) :
    (course (start {} (o.lookingUp (.kept {}))) steps).map Entry.seen =
      (course (start {} (o.lookingUp .stored)) steps).map Entry.seen := by
  obtain ⟨hstore, houtside⟩ := start_eq {} (o.lookingUp (.kept {}))
  obtain ⟨hstore', houtside'⟩ := start_eq {} (o.lookingUp .stored)
  have hstart : Mirrored {} o (start {} (o.lookingUp (.kept {})))
      (start {} (o.lookingUp .stored)) := ⟨hstore, hstore', houtside, houtside', hkept⟩
  exact mirrored_course hstart hsteps

/-- Two positions are opened. Opening one of them again with another lockup fails, and so does
opening a third whose lockup ends too late for a row. One is purged by a sweep and the other
rescheduled; then one is processed again, the other closed, and all three are looked up. -/
def openedAndRefused : List Step :=
  [.createPool "pool" (some 0),
    .openPosition (.running "brief" "pool" 0 10) 900 (.lasting .cliff 0 20) true,
    .openPosition (.running "brief" "pool" 0 10) 900 (.lasting .constant 0 500) true,
    .openPosition (.running "endless" "pool" 1 10) 900 (.lasting .cliff 0 (2 ^ 63)) true,
    .openPosition (.running "steady" "pool" 2 5) 1000 (.lasting .cliff 0 100) true,
    .setClock 30, .sweep "pool", .process "brief", .process "endless",
    .closePosition "steady" 800, .findLockup "brief" 0, .findLockup "endless" 1,
    .findLockup "steady" 2, .poolStatus "pool"]

/-- Both registrars show the same of it, and both know the lockups of the two positions that have
been opened, each with the terms of its opening. -/
theorem registrars_interchangeable_openedAndRefused :
    partnersOnStore.scheduler.Keeps ∧ (∀ s ∈ openedAndRefused, s.RegistersOpenings) ∧
      (course (start {} (partnersOnStore.lookingUp .stored)) openedAndRefused).map
          (·.answer.toOption.isSome) =
        [true, true, false, false, true, true, true, false, false, true, true, false, true,
          true] ∧
      (step (booksAfter (start {} (partnersOnStore.lookingUp .stored)) openedAndRefused)
          (.findLockup "brief" 0)).answer = .ok (.lockup (.lasting .cliff 0 20)) ∧
      (course (start {} (partnersOnStore.lookingUp (.kept {}))) openedAndRefused).map Entry.seen =
        (course (start {} (partnersOnStore.lookingUp .stored)) openedAndRefused).map
          Entry.seen := by
  have hkept : partnersOnStore.scheduler.Keeps := ⟨{}, [], rfl⟩
  exact ⟨hkept, by decide, by decide +kernel, by decide +kernel,
    registrars_interchangeable partnersOnStore openedAndRefused hkept (by decide)⟩

end Session

end StakeLedger
