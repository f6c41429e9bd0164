import StakeLedger.Proofs.Listings
import StakeLedger.Proofs.WriteSets

/-
  Sweeps as rounds of visits.
  Where the scheduler keeps the triggers itself, what a sweep does follows from the ledger: it
  goes through the open positions as they were listed at its start and visits one after another.
  A visit is the posting of a processing, and the sweep tells of its decision or of its fault if
  that is one of the staking domain; any other fault ends the round there and then, and leaves
  what the visits before it have done (`Round`). `step_sweep` says that a sweep is such a round,
  and what it leaves with the scheduler.
-/

namespace StakeLedger

/-! ## What is told of a visit -/

namespace Purge

/-- The outcome that tells of a decision. -/
def Decision.outcome : Decision → Outcome
  | .finalize f => .finalized f.pool
  | .reschedule r => .rescheduled r

/-- Is the position finalized by now? -/
def Outcome.isFinalized : Outcome → Bool
  | .finalized _ => true
  | _ => false

/-- The triggers that an outcome has moved. -/
def Outcome.updates : Outcome → List (String × String)
  | .rescheduled r => [(r.key, r.expression.text)]
  | _ => []

/-- The triggers that results have moved, in their order. -/
def updates (rs : List Result) : List (String × String) := rs.flatMap (·.outcome.updates)

/-- What a sweep tells of a visit: its decision, or its fault if that is one of the staking
domain. -/
def told : Except Fault (Position × Decision) → Except Fault Outcome
  | .ok (_, d) => .ok d.outcome
  | .error fault =>
    match fault.code? with
    | some code => .ok (.failed code)
    | none => .error fault

theorem told_error_of_code {fault : Fault} {code : FaultCode} (h : fault.code? = some code) :
    told (.error fault) = .ok (.failed code) := by
  unfold told
  dsimp only
  rw [h]

theorem told_error_of_none {fault : Fault} (h : fault.code? = none) :
    told (.error fault) = .error fault := by
  unfold told
  dsimp only
  rw [h]

/-- The answer of a round with its results, unless a fault has ended it early. -/
def answered (rs : List Result) : Option Fault → Except Fault (List Result)
  | none => .ok rs
  | some fault => .error fault

/-- A round of visits to the positions of some ids: what it tells, the fault that has ended it
early, if any, and the ledger after it. -/
inductive Round (registrar : Registrar) (policy : Policy) :
    Ledger → List String → List Result → Option Fault → Ledger → Prop
  | done (g : Ledger) : Round registrar policy g [] [] none g
  | raised {g : Ledger} {id : String} {rest : List String} {fault : Fault}
    (h : told ((Posting.process registrar policy id).result g) = .error fault) :
    Round registrar policy g (id :: rest) [] (some fault) g
  | visited {g g' : Ledger} {id : String} {rest : List String} {outcome : Outcome}
    {rs : List Result} {fault? : Option Fault}
    (h : told ((Posting.process registrar policy id).result g) = .ok outcome)
    (hrest : Round registrar policy ((Posting.process registrar policy id).after g) rest rs
      fault? g') :
    Round registrar policy g (id :: rest) (⟨id, outcome⟩ :: rs) fault? g'

theorem exists_round (registrar : Registrar) (policy : Policy) (g : Ledger) (ids : List String) :
    ∃ rs fault? g', Round registrar policy g ids rs fault? g' := by
  induction ids generalizing g with
  | nil => exact ⟨[], none, g, .done g⟩
  | cons id rest ih =>
    cases htold : told ((Posting.process registrar policy id).result g) with
    | error fault => exact ⟨[], some fault, g, .raised htold⟩
    | ok outcome =>
      obtain ⟨rs, fault?, g', hrest⟩ := ih ((Posting.process registrar policy id).after g)
      exact ⟨_, fault?, g', .visited htold hrest⟩

end Purge

/-! ## Schedulers that keep their triggers -/

namespace Scheduler

/-- The scheduler keeps the triggers itself. -/
def Keeps (scheduler : Scheduler) : Prop := ∃ triggers updates, scheduler = .kept triggers updates

/-- A scheduler that keeps the triggers, with some of them moved. -/
def moved (scheduler : Scheduler) (us : List (String × String)) : Scheduler :=
  match scheduler with
  | .kept triggers updates =>
    .kept (us.foldl (fun t u => t.put u.1 u.2) triggers) (updates ++ us)
  | .remote client => .remote client

theorem Keeps.moved {scheduler : Scheduler} (h : scheduler.Keeps) (us : List (String × String)) :
    (scheduler.moved us).Keeps := by
  obtain ⟨triggers, updates, rfl⟩ := h
  exact ⟨_, _, rfl⟩

@[simp] theorem moved_nil (scheduler : Scheduler) : scheduler.moved [] = scheduler := by
  cases scheduler with
  | kept triggers updates =>
    show kept (List.foldl _ triggers []) (updates ++ []) = kept triggers updates
    rw [List.foldl_nil, List.append_nil]
  | remote client => rfl

theorem moved_moved (scheduler : Scheduler) (us vs : List (String × String)) :
    (scheduler.moved us).moved vs = scheduler.moved (us ++ vs) := by
  cases scheduler with
  | kept triggers updates =>
    show kept _ (updates ++ us ++ vs) = kept _ (updates ++ (us ++ vs))
    rw [List.foldl_append, List.append_assoc]
  | remote client => rfl

end Scheduler

/-! ## Visits on ledgers -/

namespace Posting

variable {registrar : Registrar} {policy : Purge.Policy} {id : String} {g g' : Ledger}
  {p : Position}

/-- What a processing that ends well has found and done. -/
theorem run_process_ok {d : Purge.Decision}
    (h : (process registrar policy id).run g = .ok ((p, d), g')) :
    g.positions.get? id = some p ∧ ∃ l pool, Finds registrar g (id, p.index) l ∧
      g.pools.get? p.pool = some pool ∧
      Purge.decision policy p pool l.view registrar.clock.now = .ok d ∧
      match d with
      | .reschedule _ => g' = g
      | .finalize f => Cell.fits f.pool.asOf = true ∧
          g' = (g.putPool p.pool f.pool).putPosition f.position := by
  simp only [process, decideAt, run_bind_ok_iff, run_loadPosition_ok_iff, run_check_ok_iff,
    run_loadPool_ok_iff] at h
  obtain ⟨q, _, ⟨hq, rfl⟩, l, _, hl, q', _, ⟨hq', rfl⟩, pool, _, ⟨hpool, rfl⟩, d', _,
    ⟨hdecision, rfl⟩, h⟩ := h
  obtain ⟨hfinds, rfl⟩ := finds_of_findLockup hl
  cases Option.some.inj (hq.symm.trans hq')
  cases d' with
  | reschedule r =>
    obtain ⟨heq, rfl⟩ := run_pure_ok_iff.mp h
    cases heq
    exact ⟨hq, l, pool, hfinds, hpool, hdecision, rfl⟩
  | finalize f =>
    simp only [store, run_bind_ok_iff, run_savePool_ok_iff, run_savePosition_ok_iff,
      run_pure_ok_iff] at h
    obtain ⟨_, _, ⟨_, _, ⟨hfits, rfl⟩, -, rfl⟩, heq, rfl⟩ := h
    cases heq
    exact ⟨hq, l, pool, hfinds, hpool, hdecision, hfits, rfl⟩

end Posting

/-! ## Visits of the services -/

namespace Service

open Work Posting Purge

variable {books : Books Partners} {g g' : Ledger} {id : String}

/-- A scheduler that keeps the triggers moves one without a fault. -/
theorem runOn_move_of_kept (hkept : books.outside.scheduler.Keeps) (p : Position)
    (r : Reschedule) :
    ∃ after, (Purges.move p r).runOn books = (.ok (), after) ∧ after.store = books.store ∧
      after.outside = { books.outside with
        scheduler := books.outside.scheduler.moved [(r.key, r.expression.text)] } := by
  obtain ⟨triggers, updates, hscheduler⟩ := hkept
  obtain ⟨after, hrun⟩ := exists_runOn_move_of_kept hscheduler p r
  obtain ⟨scheduler, hupdates, houtside⟩ := runOn_move_ok hrun
  refine ⟨after, hrun, (offStore_move p r).of_runOn hrun, ?_⟩
  rw [hscheduler] at hupdates ⊢
  cases hupdates
  exact houtside

/-- A processing ends as its posting does. -/
theorem runOn_process_of_kept (hstore : books.store = g.store)
    (hkept : books.outside.scheduler.Keeps) (id : String) :
    match (Posting.process books.outside.registrar books.outside.policy id).result g with
    | .ok (_, d) => ∃ after, (process id).runOn books = (.ok ⟨id, d.outcome⟩, after) ∧
        after.store =
          ((Posting.process books.outside.registrar books.outside.policy id).after g).store ∧
        after.outside = { books.outside with
          scheduler := books.outside.scheduler.moved d.outcome.updates }
    | .error fault => ∃ after, (process id).runOn books = (.error fault, after) ∧
        after.store = g.store ∧ after.outside = books.outside := by
  obtain ⟨log, hjudge⟩ := performs_judge id books g rfl hstore
  rw [process_eq, runOn_bind, hjudge]
  cases hresult : (Posting.process books.outside.registrar books.outside.policy id).result g with
  | error fault => exact ⟨_, rfl, by rw [Posting.after_of_error hresult], rfl⟩
  | ok r =>
    obtain ⟨p, d⟩ := r
    cases d with
    | finalize f =>
      refine ⟨_, rfl, rfl, ?_⟩
      show books.outside = { books.outside with scheduler := books.outside.scheduler.moved [] }
      rw [Scheduler.moved_nil]
    | reschedule r =>
      obtain ⟨hp, -⟩ := Posting.run_process_ok (Posting.run_of_result hresult)
      have hkept' : ({ books with
          store :=
            ((Posting.process books.outside.registrar books.outside.policy id).after g).store,
          log := books.log ++ log } : Books Partners).outside.scheduler.Keeps := hkept
      obtain ⟨after, hmove, hsame, houtside⟩ := runOn_move_of_kept hkept' p r
      refine ⟨after, ?_, hsame, houtside⟩
      dsimp only [conclude]
      rw [runOn_bind, hmove, Ledger.id_of_get? hp]
      rfl

/-- A visit of a sweep tells what is told of its posting. -/
theorem runOn_processSafely_of_kept (hstore : books.store = g.store)
    (hkept : books.outside.scheduler.Keeps) (id : String) :
    match told ((Posting.process books.outside.registrar books.outside.policy id).result g) with
    | .ok outcome => ∃ after, (processSafely id).runOn books = (.ok ⟨id, outcome⟩, after) ∧
        after.store =
          ((Posting.process books.outside.registrar books.outside.policy id).after g).store ∧
        after.outside = { books.outside with
          scheduler := books.outside.scheduler.moved outcome.updates }
    | .error fault => ∃ after, (processSafely id).runOn books = (.error fault, after) ∧
        after.store = g.store ∧ after.outside = books.outside := by
  have hprocess := runOn_process_of_kept hstore hkept id
  unfold processSafely
  cases hresult : (Posting.process books.outside.registrar books.outside.policy id).result g with
  | ok r =>
    rw [hresult] at hprocess
    obtain ⟨after, hrun, hafter⟩ := hprocess
    refine ⟨after, ?_, hafter⟩
    rw [runOn_tryCatch, hrun]
  | error fault =>
    rw [hresult] at hprocess
    obtain ⟨after, hrun, hsame, houtside⟩ := hprocess
    rw [runOn_tryCatch, hrun]
    unfold told
    dsimp only
    cases fault.code? with
    | none => exact ⟨after, rfl, hsame, houtside⟩
    | some code =>
      refine ⟨_, rfl, ?_, ?_⟩
      · rw [Posting.after_of_error hresult]
        exact hsame
      · show after.outside =
          { books.outside with scheduler := books.outside.scheduler.moved [] }
        rw [Scheduler.moved_nil, houtside]

/-- Visits one after another are a round. -/
theorem runOn_visits {registrar : Registrar} {policy : Policy} {ids : List String}
    {rs : List Result} {fault? : Option Fault} (hround : Round registrar policy g ids rs fault? g')
    (hstore : books.store = g.store) (hregistrar : books.outside.registrar = registrar)
    (hpolicy : books.outside.policy = policy) (hkept : books.outside.scheduler.Keeps) :
    ∃ after, (ids.mapM processSafely).runOn books = (answered rs fault?, after) ∧
      after.store = g'.store ∧ after.outside = { books.outside with
        scheduler := books.outside.scheduler.moved (updates rs) } := by
  induction hround generalizing books with
  | done g =>
    refine ⟨books, rfl, hstore, ?_⟩
    show books.outside = { books.outside with scheduler := books.outside.scheduler.moved [] }
    rw [Scheduler.moved_nil]
  | @raised g id rest fault htold =>
    have hvisit := runOn_processSafely_of_kept hstore hkept id
    rw [hregistrar, hpolicy, htold] at hvisit
    obtain ⟨after, hrun, hsame, houtside⟩ := hvisit
    refine ⟨after, ?_, hsame, ?_⟩
    · rw [List.mapM_cons, runOn_bind, hrun]
      rfl
    · show after.outside = { books.outside with scheduler := books.outside.scheduler.moved [] }
      rw [Scheduler.moved_nil, houtside]
  | @visited g g' id rest outcome rs fault? htold hrest ih =>
    have hvisit := runOn_processSafely_of_kept hstore hkept id
    rw [hregistrar, hpolicy, htold] at hvisit
    obtain ⟨mid, hrun, hmid, houtside⟩ := hvisit
    obtain ⟨after, hrest', hafter, houtside'⟩ := ih hmid (by rw [houtside]; exact hregistrar)
      (by rw [houtside]; exact hpolicy) (by rw [houtside]; exact hkept.moved _)
    refine ⟨after, ?_, hafter, ?_⟩
    · rw [List.mapM_cons, runOn_bind, hrun]
      dsimp only
      rw [runOn_bind_pure, hrest']
      cases fault? <;> rfl
    · rw [houtside', houtside]
      dsimp only
      rw [Scheduler.moved_moved]
      rfl

end Service

/-! ## Sweeps -/

/-- A listing finds the open positions of a pool, which must exist. -/
theorem Posting.result_listed (g : Ledger) (pool : String) :
    (listed pool).result g =
      match g.pools.get? pool with
      | none => .error (.unknownPool pool)
      | some _ => .ok ((g.openPositions pool).map (·.id)) := by
  cases hpool : g.pools.get? pool with
  | none =>
    refine result_bind_of_error ?_
    show (require (g.pools.get? pool) (.unknownPool pool)).result g = _
    rw [hpool]
    rfl
  | some found =>
    have hload : (loadPool pool).run g = .ok (found, g) := run_loadPool_ok_iff.mpr ⟨hpool, rfl⟩
    have hread : (read (·.store.openPositions pool)).run g = .ok (g.openPositions pool, g) :=
      run_read_ok_iff.mpr ⟨g.openPositions_store pool, rfl⟩
    have hlisted : (listed pool).run g = .ok ((g.openPositions pool).map (·.id), g) :=
      run_bind_ok_iff.mpr ⟨found, g, hload, run_bind_ok_iff.mpr ⟨_, g, hread, rfl⟩⟩
    exact result_of_run hlisted

namespace Session

open Work Service Purge

variable {books : Books Partners} {g g' : Ledger} {pool : String}

/-- A sweep of a pool that does not exist does nothing. -/
theorem step_sweep_of_none (hstore : books.store = g.store) (hpool : g.pools.get? pool = none) :
    (step books (.sweep pool)).answer = .error (.unknownPool pool) ∧
      (step books (.sweep pool)).books.store = g.store ∧
      (step books (.sweep pool)).books.outside = books.outside := by
  obtain ⟨log, hlisted⟩ := performs_listed pool (fresh books) g rfl hstore
  have hresult := Posting.result_listed g pool
  rw [hpool] at hresult
  rw [hresult, Posting.looks_listed pool g] at hlisted
  rw [step_eq (s := .sweep pool) rfl, sweep_eq, runOn_bind, hlisted]
  exact ⟨rfl, rfl, rfl⟩

/-- A sweep of a pool is a round through its open positions. -/
theorem step_sweep {rs : List Result} {fault? : Option Fault} (hstore : books.store = g.store)
    (hkept : books.outside.scheduler.Keeps) (hpool : g.pools.get? pool ≠ none)
    (hround : Round books.outside.registrar books.outside.policy g
      ((g.openPositions pool).map (·.id)) rs fault? g') :
    (step books (.sweep pool)).answer = (answered rs fault?).map .results ∧
      (step books (.sweep pool)).books.store = g'.store ∧
      (step books (.sweep pool)).books.outside = { books.outside with
        scheduler := books.outside.scheduler.moved (updates rs) } := by
  obtain ⟨log, hlisted⟩ := performs_listed pool (fresh books) g rfl hstore
  have hresult := Posting.result_listed g pool
  obtain ⟨found, hfound⟩ := Option.ne_none_iff_exists'.mp hpool
  rw [hfound] at hresult
  rw [hresult, Posting.looks_listed pool g] at hlisted
  have hmid : ({ fresh books with store := g.store, log := (fresh books).log ++ log } :
      Books Partners).store = g.store := rfl
  obtain ⟨after, hrun, hafter, houtside⟩ := runOn_visits hround hmid rfl rfl hkept
  rw [step_eq (s := .sweep pool) rfl, sweep_eq, runOn_bind, hlisted]
  dsimp only
  rw [hrun]
  exact ⟨rfl, hafter, houtside⟩

end Session

end StakeLedger
