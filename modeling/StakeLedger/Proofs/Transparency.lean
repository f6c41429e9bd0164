import StakeLedger.Proofs.Rates
import StakeLedger.Proofs.Rolling
import StakeLedger.Proofs.WriteSets

/-
  Rolling pools forward in between changes nothing.
  A session is run twice, the second time with statuses and roll-forwards put in. The books of
  the second run are a `Twin` of those of the first: the same but for pools that have been rolled
  forward. Work that ends well in the first run ends well in the second, with the same result and
  with twins again (`Work.Mirrors`); what is put in leaves twins (`Session.twin_status`,
  `Session.twin_rollForward`). No converse holds, so the session as it stands must end well
  throughout, sweeps included.
-/

namespace StakeLedger

/-- The time that the registrar's clock shows in some books. -/
def Books.time (books : Books Partners) : Int := books.outside.registrar.clock.now

/-- Books of two runs: the same, but for pools that the second run has rolled forward. -/
structure Twin (books books' : Books Partners) : Prop where
  outside_eq : books'.outside = books.outside
  stores : ∃ g g' : Ledger, books.store = g.store ∧ books'.store = g'.store ∧
    g.Rolled books.time g'

namespace Twin

variable {books books' after after' : Books Partners} {g : Ledger}

theorem refl (h : books.store = g.store) : Twin books books := ⟨rfl, g, g, h, h, .refl g⟩

/-- The stores stay, and the clock does not go back. -/
theorem later (h : Twin books books') (hstore : after.store = books.store)
    (hstore' : after'.store = books'.store) (houtside : after'.outside = after.outside)
    (htime : books.time ≤ after.time) : Twin after after' := by
  obtain ⟨g, g', hg, hg', hrolled⟩ := h.stores
  exact ⟨houtside, g, g', hstore.trans hg, hstore'.trans hg', hrolled.mono htime⟩

theorem fresh (h : Twin books books') : Twin (Session.fresh books) (Session.fresh books') :=
  h.later rfl rfl h.outside_eq le_rfl

end Twin

/-! ## Work on twins -/

namespace Work

variable {α β : Type} {work : Service α} {next : α → Service β} {books books' : Books Partners}

/-- Where the work ends well, it ends well on every twin, with the same result, and leaves
twins. -/
def Mirrors (work : Service α) : Prop :=
  ∀ books books' a after, Twin books books' → work.runOn books = (.ok a, after) →
    ∃ after', work.runOn books' = (.ok a, after') ∧ Twin after after'

theorem mirrors_pure (a : α) : Mirrors (pure a) := by
  intro books books' b after htwin hrun
  obtain ⟨rfl, rfl⟩ := runOn_pure_ok_iff.mp hrun
  exact ⟨books', rfl, htwin⟩

theorem mirrors_check (r : Except Fault α) : Mirrors (check r) := by
  intro books books' a after htwin hrun
  obtain ⟨hok, rfl⟩ := runOn_check_ok_iff.mp hrun
  exact ⟨books', runOn_check_ok_iff.mpr ⟨hok, rfl⟩, htwin⟩

theorem mirrors_emit (level : Int) (logger message : String) (extra : List (String × Json))
    (trouble : Option Log.Trouble) : Mirrors (emit level logger message extra trouble) := by
  intro books books' u after htwin hrun
  obtain rfl := runOn_emit_ok_iff.mp hrun
  exact ⟨_, rfl, htwin.later rfl rfl htwin.outside_eq le_rfl⟩

theorem Mirrors.bind (h : Mirrors work) (hnext : ∀ a, Mirrors (next a)) :
    Mirrors (work >>= next) := by
  intro books books' b after htwin hrun
  obtain ⟨a, mid, hwork, hrest⟩ := runOn_bind_ok_iff.mp hrun
  obtain ⟨mid', hwork', htwin'⟩ := h books books' a mid htwin hwork
  obtain ⟨after', hrest', htwin''⟩ := hnext a mid mid' b after htwin' hrest
  exact ⟨after', runOn_bind_ok_iff.mpr ⟨a, mid', hwork', hrest'⟩, htwin''⟩

theorem Mirrors.within (frame : Log.Context) (h : Mirrors work) : Mirrors (within frame work) := by
  intro books books' a after htwin hrun
  obtain ⟨inner, hinner, rfl⟩ := runOn_within_ok_iff.mp hrun
  have hframed : Twin { books with context := books.context.bind frame }
      { books' with context := books'.context.bind frame } :=
    htwin.later rfl rfl htwin.outside_eq le_rfl
  obtain ⟨inner', hinner', htwin'⟩ := h _ _ a inner hframed hinner
  exact ⟨_, runOn_within_ok_iff.mpr ⟨inner', hinner', rfl⟩,
    htwin'.later rfl rfl htwin'.outside_eq le_rfl⟩

theorem mirrors_partners : Mirrors Service.partners := by
  intro books books' present after htwin hrun
  obtain ⟨rfl, rfl⟩ := Service.runOn_partners_ok_iff.mp hrun
  exact ⟨books', Service.runOn_partners_ok_iff.mpr ⟨htwin.outside_eq.symm, rfl⟩, htwin⟩

theorem mirrors_setScheduler (scheduler : Scheduler) :
    Mirrors (Service.setScheduler scheduler) := by
  intro books books' u after htwin hrun
  obtain ⟨-, rfl⟩ := Prod.mk.inj hrun
  refine ⟨_, rfl, htwin.later rfl rfl ?_ le_rfl⟩
  show { books'.outside with scheduler := scheduler } =
    { books.outside with scheduler := scheduler }
  rw [htwin.outside_eq]

/-- Work that performs postings which mirror each other. -/
theorem mirrors_of_performs {t : Partners → Posting α}
    (h : ∀ outside, Performs outside work (t outside))
    (ht : ∀ outside : Partners,
      Posting.Simulates outside.registrar.clock.now (t outside) (t outside)) : Mirrors work := by
  intro books books' a after htwin hrun
  obtain ⟨g, g', hg, hg', hrolled⟩ := htwin.stores
  obtain ⟨log, hperforms⟩ := h books.outside books g rfl hg
  obtain ⟨log', hperforms'⟩ := h books.outside books' g' htwin.outside_eq hg'
  obtain ⟨hresult, rfl⟩ := Prod.mk.inj (hrun.symm.trans hperforms)
  obtain ⟨after', hrun', hrolled'⟩ :=
    ht books.outside g g' a _ hrolled (Posting.run_of_result hresult.symm)
  rw [Posting.result_of_run hrun', Posting.after_of_run hrun'] at hperforms'
  exact ⟨_, hperforms', htwin.outside_eq, _, after', rfl, rfl, hrolled'⟩

end Work

namespace Service

open Work

variable {books books' : Books Partners} {id key expression : String}

theorem mirrors_send (client : TriggerClient) (key expression : String) :
    Mirrors (Scheduling.send client key expression) := by
  have hretries : ∀ notices : List (Retry.Notice UpdateFailure),
      Mirrors (notices.forM (Scheduling.logRetry key)) := by
    intro notices
    induction notices with
    | nil => exact mirrors_pure ()
    | cons notice rest ih => exact (mirrors_emit _ _ _ _ _).bind fun _ => ih
  refine (mirrors_check _).bind fun address => ?_
  refine (mirrors_setScheduler _).bind fun _ => ?_
  refine (hretries _).bind fun _ => ?_
  exact (mirrors_check _).bind fun _ => mirrors_emit _ _ _ _ _

theorem mirrors_move (p : Position) (r : Purge.Reschedule) : Mirrors (Purges.move p r) := by
  refine Mirrors.within _ (Mirrors.bind ?_ fun _ => mirrors_emit _ _ _ _ _)
  refine mirrors_partners.bind fun present => ?_
  cases present.scheduler with
  | kept triggers updates => exact mirrors_setScheduler _
  | remote client => exact mirrors_send client _ _

theorem mirrors_process (id : String) : Mirrors (process id) := by
  rw [process_eq]
  refine (mirrors_of_performs (fun _ => performs_judge id)
    fun outside => Posting.simulates_process rfl outside.policy id).bind fun ⟨p, d⟩ => ?_
  cases d with
  | finalize f => exact mirrors_pure _
  | reschedule r => exact (mirrors_move p r).bind fun _ => mirrors_pure _

/-- A sweep without a failed result finds the same on twins. -/
theorem mirrors_processAll {ids : List String} {rs : List Purge.Result} {after : Books Partners}
    (htwin : Twin books books') (hrun : (ids.mapM processSafely).runOn books = (.ok rs, after))
    (hrs : ∀ r ∈ rs, r.outcome.isFailed = false) :
    ∃ after', (ids.mapM processSafely).runOn books' = (.ok rs, after') ∧ Twin after after' := by
  induction ids generalizing books books' rs with
  | nil => exact mirrors_pure [] books books' rs after htwin hrun
  | cons id rest ih =>
    rw [List.mapM_cons] at hrun ⊢
    obtain ⟨r, mid, hfirst, hrest⟩ := runOn_bind_ok_iff.mp hrun
    obtain ⟨rs', last, hothers, hpure⟩ := runOn_bind_ok_iff.mp hrest
    obtain ⟨rfl, rfl⟩ := runOn_pure_ok_iff.mp hpure
    obtain ⟨hr, hrs'⟩ := List.forall_mem_cons.mp hrs
    have hprocess : (process id).runOn books = (.ok r, mid) := by
      rcases (runOn_processSafely_ok hfirst).2 with ⟨hok, -⟩ | ⟨-, hfailed⟩
      · exact hok
      · rw [hr] at hfailed
        cases hfailed
    obtain ⟨mid', hprocess', htwin'⟩ := mirrors_process id books books' r mid htwin hprocess
    obtain ⟨after', hothers', htwin''⟩ := ih htwin' hothers hrs'
    exact ⟨after', runOn_bind_ok_iff.mpr ⟨r, mid', runOn_processSafely_of_ok hprocess',
      runOn_bind_ok_iff.mpr ⟨rs', after', hothers', rfl⟩⟩, htwin''⟩

theorem mirrors_sweep {pool : String} {rs : List Purge.Result} {after : Books Partners}
    (htwin : Twin books books') (hrun : (sweep pool).runOn books = (.ok rs, after))
    (hrs : ∀ r ∈ rs, r.outcome.isFailed = false) :
    ∃ after', (sweep pool).runOn books' = (.ok rs, after') ∧ Twin after after' := by
  rw [sweep_eq] at hrun ⊢
  obtain ⟨ids, mid, hlisted, hall⟩ := runOn_bind_ok_iff.mp hrun
  obtain ⟨mid', hlisted', htwin'⟩ := mirrors_of_performs (fun _ => performs_listed pool)
    (fun _ => Posting.simulates_listed pool) books books' ids mid htwin hlisted
  obtain ⟨after', hall', htwin''⟩ := mirrors_processAll htwin' hall hrs
  exact ⟨after', runOn_bind_ok_iff.mpr ⟨ids, mid', hlisted', hall'⟩, htwin''⟩

end Service

/-! ## Steps of twins -/

namespace Session

open Work Service

variable {books books' : Books Partners} {s : Step}

/-- Has a step ended well, and if it was a sweep, with no failed result? -/
def Entry.endsWell (entry : Entry) : Bool :=
  match entry.answer with
  | .ok (.results rs) => rs.all fun r => !r.outcome.isFailed
  | .ok _ => true
  | .error _ => false

theorem exists_answer_of_endsWell {entry : Entry} (h : entry.endsWell = true) :
    ∃ answer, entry.answer = .ok answer := by
  unfold Entry.endsWell at h
  split at h
  · next hanswer => exact ⟨_, hanswer⟩
  · next hanswer => exact ⟨_, hanswer⟩
  · cases h

/-- Steps answer the same in both runs, and leave twins. -/
def Agree (books books' : Books Partners) (s : Step) : Prop :=
  (step books' s).answer = (step books s).answer ∧
    Twin (step books s).books (step books' s).books

theorem agree_of_mirrors (h : Mirrors s.run) (htwin : Twin books books')
    (hwell : (step books s).endsWell = true) : Agree books books' s := by
  obtain ⟨answer, hanswer⟩ := exists_answer_of_endsWell hwell
  have hrun : s.run.runOn (fresh books) = (.ok answer, (step books s).books) :=
    Prod.ext hanswer rfl
  obtain ⟨after', hrun', htwin'⟩ := h _ _ answer _ htwin.fresh hrun
  have hstep' : step books' s = ⟨.ok answer, after'⟩ := by
    unfold step
    rw [hrun']
  exact ⟨by rw [hstep', hanswer], by rw [hstep']; exact htwin'⟩

theorem agree_of_performs {α : Type} {service : Service α} {t : Partners → Posting α}
    {tell : α → Answer} (hrun : s.run = service >>= fun a => pure (tell a))
    (h : ∀ outside, Performs outside service (t outside))
    (ht : ∀ outside : Partners,
      Posting.Simulates outside.registrar.clock.now (t outside) (t outside))
    (htwin : Twin books books') (hwell : (step books s).endsWell = true) :
    Agree books books' s := by
  refine agree_of_mirrors ?_ htwin hwell
  rw [hrun]
  exact (mirrors_of_performs h ht).bind fun _ => mirrors_pure _

theorem mirrors_register (position : String) (index : Int) (l : Lockup) :
    Mirrors (register position index l) := by
  intro books books' u after htwin hrun
  obtain ⟨-, rfl⟩ := Prod.mk.inj hrun
  refine ⟨_, rfl, htwin.later rfl rfl ?_ ?_⟩
  · show { books'.outside with registrar := books'.outside.registrar.put position index l } =
      { books.outside with registrar := books.outside.registrar.put position index l }
    rw [htwin.outside_eq]
  · show books.outside.registrar.clock.now ≤
      (books.outside.registrar.put position index l).clock.now
    unfold Registrar.put
    split <;> exact le_rfl

/-- The clock is set in both runs, not back in the first. -/
theorem agree_setClock (htwin : Twin books books') {time : Int}
    (htime : books.time ≤ (step books (.setClock time)).books.time) :
    Agree books books' (.setClock time) := by
  refine ⟨rfl, htwin.later rfl rfl ?_ htime⟩
  show { books'.outside with registrar := { books'.outside.registrar with
      clock := books'.outside.registrar.clock.setTo time } } = _
  rw [htwin.outside_eq]
  rfl

theorem agree_advanceClock (htwin : Twin books books') {seconds : Int}
    (htime : books.time ≤ (step books (.advanceClock seconds)).books.time) :
    Agree books books' (.advanceClock seconds) := by
  have hnow : books'.outside.registrar.clock.now + seconds =
      books.outside.registrar.clock.now + seconds := by rw [htwin.outside_eq]
  refine ⟨congrArg (fun time => Except.ok (Answer.time time)) hnow, htwin.later rfl rfl ?_ htime⟩
  show { books'.outside with registrar := { books'.outside.registrar with
      clock := books'.outside.registrar.clock.setTo
        (books'.outside.registrar.clock.now + seconds) } } = _
  rw [htwin.outside_eq]
  rfl

theorem mirrors_readClock : Mirrors Step.readClock.run :=
  Mirrors.bind (mirrors_partners.bind fun _ => mirrors_pure _) fun _ => mirrors_pure _

/-- The lockup of an opening may be registered as well. -/
theorem mirrors_openPosition (p : Position) (amount : Int) (l : Lockup) (registered : Bool) :
    Mirrors (Step.openPosition p amount l registered).run := by
  have hopen : Mirrors (Service.openPosition p amount l) :=
    mirrors_of_performs (fun _ => performs_openPosition p amount l)
      fun _ => Posting.simulates_openPosition p amount l
  refine hopen.bind fun pool => ?_
  cases registered with
  | false => exact mirrors_pure _
  | true => exact (mirrors_register _ _ _).bind fun _ => mirrors_pure _

/-- A sweep is repeated only if it has no failed result. -/
theorem agree_sweep (htwin : Twin books books') {pool : String}
    (hwell : (step books (.sweep pool)).endsWell = true) : Agree books books' (.sweep pool) := by
  obtain ⟨answer, hanswer⟩ := exists_answer_of_endsWell hwell
  obtain ⟨rs, hrun, rfl⟩ := (step_answer_eq_ok_iff rfl).mp hanswer
  have hrs : ∀ r ∈ rs, r.outcome.isFailed = false := by
    rw [Entry.endsWell, hanswer] at hwell
    simpa using hwell
  obtain ⟨after', hrun', htwin'⟩ := mirrors_sweep htwin.fresh hrun hrs
  have hstep' := step_of_runOn (s := .sweep pool) rfl hrun'
  exact ⟨by rw [hstep', hanswer], by rw [hstep']; exact htwin'⟩

/-- Every step that ends well without setting the clock back is repeated on twins. -/
theorem agree_of_endsWell (htwin : Twin books books') (hwell : (step books s).endsWell = true)
    (htime : books.time ≤ (step books s).books.time) : Agree books books' s := by
  cases s with
  | setClock time => exact agree_setClock htwin htime
  | advanceClock seconds => exact agree_advanceClock htwin htime
  | sweep pool => exact agree_sweep htwin hwell
  | fail fault => cases hwell
  | readClock => exact agree_of_mirrors mirrors_readClock htwin hwell
  | registerLockup position index l =>
    exact agree_of_mirrors ((mirrors_register _ _ _).bind fun _ => mirrors_pure _) htwin hwell
  | storeLockup position index l =>
    exact agree_of_performs rfl (fun _ => (carries_saveLockup position index l).unit)
      (fun _ => Posting.simulates_saveLockup position index l) htwin hwell
  | findLockup position index =>
    exact agree_of_performs rfl (fun _ => performs_lockup position index)
      (fun outside => Posting.simulates_findLockup outside.registrar position index) htwin hwell
  | createPool id time =>
    exact agree_of_performs rfl (fun _ => performs_createPool id time)
      (fun _ => Posting.simulates_createPool id _) htwin hwell
  | openPosition p amount l registered =>
    exact agree_of_mirrors (mirrors_openPosition p amount l registered) htwin hwell
  | closePosition id amount =>
    exact agree_of_performs rfl (fun _ => performs_closePosition id amount)
      (fun _ => Posting.simulates_closePosition rfl id amount) htwin hwell
  | poolStatus id =>
    exact agree_of_performs rfl (fun _ => performs_status id)
      (fun _ => Posting.simulates_status id) htwin hwell
  | rollForward id =>
    exact agree_of_performs rfl (fun _ => performs_rollForward id)
      (fun _ => Posting.simulates_rollForward id) htwin hwell
  | process id =>
    exact agree_of_mirrors ((mirrors_process id).bind fun _ => mirrors_pure _) htwin hwell

/-! ## Runs of twins -/

/-- A step of the second run: one of the session itself, or one put in, which asks what a pool
has come to or rolls it forward. -/
inductive Woven where
  | own (s : Step)
  | status (pool : String)
  | rollForward (pool : String)

/-- The step itself. -/
def Woven.step : Woven → Step
  | .own s => s
  | .status pool => .poolStatus pool
  | .rollForward pool => .rollForward pool

/-- The step of the session, if it is one. -/
def Woven.own? : Woven → Option Step
  | .own s => some s
  | _ => none

/-- The answers to the steps of the session itself, among the entries of the second run. -/
def ownAnswers (plan : List Woven) (entries : List Entry) : List (Except Fault Answer) :=
  (plan.zip entries).filterMap fun pair => pair.1.own?.map fun _ => pair.2.answer

/-- All steps end well, without a failed result, and the clock never goes back. -/
structure Steady (books : Books Partners) (steps : List Step) : Prop where
  endsWell : ∀ entry ∈ course books steps, entry.endsWell = true
  rises : (books.time :: (course books steps).map (·.books.time)).IsChain (· ≤ ·)

theorem steady_cons {rest : List Step} :
    Steady books (s :: rest) ↔ (step books s).endsWell = true ∧
      books.time ≤ (step books s).books.time ∧ Steady (step books s).books rest := by
  constructor
  · rintro ⟨hwell, hrises⟩
    rw [course, List.forall_mem_cons] at hwell
    rw [course, List.map_cons, List.isChain_cons_cons] at hrises
    exact ⟨hwell.1, hrises.1, hwell.2, hrises.2⟩
  · rintro ⟨hfirst, htime, hwell, hrises⟩
    refine ⟨?_, ?_⟩
    · rw [course, List.forall_mem_cons]
      exact ⟨hfirst, hwell⟩
    · rw [course, List.map_cons, List.isChain_cons_cons]
      exact ⟨htime, hrises⟩

/-- What is put in leaves twins, whether it ends well or not. -/
theorem twin_status (htwin : Twin books books') (pool : String) :
    Twin books (step books' (.poolStatus pool)).books := by
  obtain ⟨hstore, houtside⟩ := readsOnly_status pool (fresh books')
  rw [step_eq rfl]
  exact htwin.later rfl hstore (houtside.trans htwin.outside_eq) le_rfl

theorem twin_rollForward (htwin : Twin books books') (pool : String) :
    Twin books (step books' (.rollForward pool)).books := by
  obtain ⟨g, g', hg, hg', hrolled⟩ := htwin.stores
  have hrolls : g.Rolled books.time ((Posting.rollForward pool books.time).after g') := by
    refine Posting.keeps hrolled fun after g'' hrun => ?_
    obtain ⟨before, hbefore, hroll, rfl⟩ := Posting.run_rollForward_ok hrun
    exact hrolled.roll hbefore hroll
  obtain ⟨log, hrun⟩ := performs_rollForward pool (fresh books') g' htwin.outside_eq hg'
  rw [step_eq rfl, hrun]
  exact ⟨htwin.outside_eq, g, _, hg, rfl, hrolls⟩

theorem twin_course (htwin : Twin books books') (plan : List Woven)
    (hsteady : Steady books (plan.filterMap Woven.own?)) :
    ownAnswers plan (course books' (plan.map Woven.step)) =
        (course books (plan.filterMap Woven.own?)).map (·.answer) ∧
      Twin (booksAfter books (plan.filterMap Woven.own?))
        (booksAfter books' (plan.map Woven.step)) := by
  -- a step of the session moves both runs, one that is put in moves the second alone
  induction plan generalizing books books' with
  | nil => exact ⟨rfl, htwin⟩
  | cons woven rest ih =>
    cases woven with
    | own s =>
      obtain ⟨hwell, htime, hrest⟩ := steady_cons.mp hsteady
      obtain ⟨hanswer, htwin'⟩ := agree_of_endsWell htwin hwell htime
      obtain ⟨hanswers, htwin''⟩ := ih htwin' hrest
      exact ⟨congrArg₂ List.cons hanswer hanswers, htwin''⟩
    | status pool => exact ih (twin_status htwin pool) hsteady
    | rollForward pool => exact ih (twin_rollForward htwin pool) hsteady

/-- Whatever statuses and roll-forwards are put into a steady session on an empty store, and
whether they end well or not, every step of the session itself answers as it does without them.
At the end, whatever a pool can be rolled forward to at the final time or later, it can be
rolled forward to as well after the session with what has been put in. -/
theorem rolling_transparent (partners : Partners) (plan : List Woven)
    (hsteady : Steady (start {} partners) (plan.filterMap Woven.own?)) :
    ownAnswers plan (course (start {} partners) (plan.map Woven.step)) =
        (course (start {} partners) (plan.filterMap Woven.own?)).map (·.answer) ∧
      ∀ id pool rolled time,
        (booksAfter (start {} partners) (plan.filterMap Woven.own?)).time ≤ time →
        (booksAfter (start {} partners) (plan.filterMap Woven.own?)).store.pool? id =
          .ok (some pool) →
        pool.rollForward time = .ok rolled →
        ∃ pool', (booksAfter (start {} partners) (plan.map Woven.step)).store.pool? id =
            .ok (some pool') ∧ pool'.rollForward time = .ok rolled := by
  have hempty : (start {} partners).store = Ledger.store {} := (start_eq {} partners).1
  obtain ⟨hanswers, htwin⟩ := twin_course (.refl hempty) plan hsteady
  refine ⟨hanswers, fun id pool rolled time htime hpool hroll => ?_⟩
  obtain ⟨g, g', hg, hg', hrolled⟩ := htwin.stores
  rw [hg, Ledger.pool?_store] at hpool
  obtain ⟨pool', hpool', hrel⟩ := hrolled.pool_of_get? (Except.ok.inj hpool)
  exact ⟨pool', by rw [hg', Ledger.pool?_store, hpool'], hrel.rollForward htime hroll⟩

/-- A position expires, is purged late and closed, and the pool is swept; statuses and
roll-forwards are put in, before and after the expiry, and one of a pool that does not exist. -/
def wovenPurge : List Woven :=
  [.own (.createPool "pool" (some 0)), .status "pool",
    .own (.openPosition (.running "steady" "pool" 0 5) 1000 (.lasting .cliff 0 100) true),
    .own (.openPosition (.running "brief" "pool" 1 10) 900 (.lasting .cliff 0 20) true),
    .own (.setClock 15), .rollForward "pool", .rollForward "absent", .own (.setClock 30),
    .rollForward "pool", .own (.process "brief"), .own (.advanceClock 10),
    .own (.closePosition "brief" 700), .own (.sweep "pool"), .own (.setClock 50),
    .rollForward "pool"]

/-- What is left of the pool is stored as of another time, and comes to the same. -/
theorem rolling_transparent_wovenPurge :
    Steady (start {} partnersAtZero) (wovenPurge.filterMap Woven.own?) ∧
      ownAnswers wovenPurge (course (start {} partnersAtZero) (wovenPurge.map Woven.step)) =
        (course (start {} partnersAtZero) (wovenPurge.filterMap Woven.own?)).map (·.answer) ∧
      (booksAfter (start {} partnersAtZero) (wovenPurge.filterMap Woven.own?)).store.pool? "pool" =
        .ok (some ⟨.capped 800, .capped 5, 40⟩) ∧
      (booksAfter (start {} partnersAtZero) (wovenPurge.map Woven.step)).store.pool? "pool" =
        .ok (some ⟨.capped 750, .capped 5, 50⟩) ∧
      ∃ pool', (booksAfter (start {} partnersAtZero) (wovenPurge.map Woven.step)).store.pool?
          "pool" = .ok (some pool') ∧
        pool'.rollForward 60 = .ok ⟨.capped 700, .capped 5, 60⟩ := by
  have hsteady : Steady (start {} partnersAtZero) (wovenPurge.filterMap Woven.own?) :=
    ⟨by decide +kernel, by decide +kernel⟩
  have hpool : (booksAfter (start {} partnersAtZero)
      (wovenPurge.filterMap Woven.own?)).store.pool? "pool" =
        .ok (some ⟨.capped 800, .capped 5, 40⟩) := by decide +kernel
  obtain ⟨hanswers, hpools⟩ := rolling_transparent partnersAtZero wovenPurge hsteady
  exact ⟨hsteady, hanswers, hpool, by decide +kernel,
    hpools "pool" _ _ 60 (by decide +kernel) hpool (by decide +kernel)⟩

end Session

end StakeLedger
