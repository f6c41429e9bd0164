import StakeLedger.Proofs.Calls

/-
  Runs as changes of the store, whatever rows it holds.
  One call of a service changes the store in one of five ways or not at all (`Store.Change`). A
  sweep is a sequence of such changes, and so is every run of a session (`Session.changes_run`).
  What is proved of one change by its five cases holds of runs by induction; the first such law is
  that a position which is found before is found after, in the same or a later state
  (`Store.Changes.keeps`).
-/

namespace StakeLedger

namespace Store

variable {s s' s'' : Store} {id : String}

/-! ## Changes -/

/-- How one call of a service may change a store: a lockup is put, a pool is created or rolled
forward, a position of an unused id is opened in its pool, or a position goes on to another phase
and its pool loses what the position contributed to its rate. -/
inductive Change : Store → Store → Prop
  | lockup (s : Store) (position : String) (index : Int) (l : Lockup) :
    Change s (s.putLockup position index l)
  | created {s : Store} {id : String} (asOf : Int) (hnone : s.pools.get? id = none) :
    Change s (s.putPool id (.empty asOf))
  | rolled {s : Store} {id : String} {time : Int} {old pool : Pool}
    (hold : s.pool? id = .ok (some old)) (hroll : old.rollForward time = .ok pool) :
    Change s (s.putPool id pool)
  | opened {s : Store} {p : Position} {l : Lockup} {time amount : Int} {old pool : Pool}
    (hnone : s.positions.get? p.id = none) (hold : s.pool? p.pool = .ok (some old))
    (hpool : old.applyDelta time (Delta.stake p.rate.val amount) = .ok pool) :
    Change s (((s.putPool p.pool pool).putPosition p).putLockup p.id p.index l)
  | ended {s : Store} {p : Position} {phase : Phase} {time : Int} {delta : Delta} {old pool : Pool}
    (hp : s.position? p.id = .ok (some p)) (hprecedes : p.Precedes { p with phase := phase })
    (hphase : phase ≠ p.phase) (hold : s.pool? p.pool = .ok (some old))
    (hpool : old.applyDelta time delta = .ok pool) (hdelta : delta.rate = -p.runningRate) :
    Change s ((s.putPool p.pool pool).putPosition { p with phase := phase })

/-- From one store to another by changes. -/
def Changes : Store → Store → Prop := Relation.ReflTransGen Change

/-- A position that is found in a store is found in a later one, in the same or a later state. -/
def Keeps (s s' : Store) : Prop :=
  ∀ id q, s.position? id = .ok (some q) → ∃ q', s'.position? id = .ok (some q') ∧ q.Precedes q'

/-- A position that is found has another id than one that is not there. -/
theorem ne_of_unused {other : String} {q : Position} (hq : s.position? id = .ok (some q))
    (hnone : s.positions.get? other = none) : id ≠ other := by
  rintro rfl
  rw [position?_eq_none_iff.mpr hnone] at hq
  cases hq

theorem Change.keeps (h : Change s s') : s.Keeps s' := by
  intro id q hq
  cases h with
  | lockup | created | rolled => exact ⟨q, hq, .refl q⟩
  | @opened p l time amount old pool hnone hold hpool =>
    exact ⟨q, (position?_putPosition_of_ne (ne_of_unused hq hnone) _).trans hq, .refl q⟩
  | @ended p phase time delta old pool hp hprecedes =>
    by_cases hid : id = p.id
    · subst hid
      cases found_unique hp hq
      exact ⟨_, position?_putPosition _ _, hprecedes⟩
    · exact ⟨q, (position?_putPosition_of_ne (p := { p with phase := phase }) hid _).trans hq,
        .refl q⟩

theorem Changes.keeps (h : Changes s s') : s.Keeps s' := by
  induction h with
  | refl => exact fun _ q hq => ⟨q, hq, .refl q⟩
  | tail _ hlast ih =>
    intro id q hq
    obtain ⟨q₁, hq₁, hprecedes₁⟩ := ih id q hq
    obtain ⟨q₂, hq₂, hprecedes₂⟩ := hlast.keeps id q₁ hq₁
    exact ⟨q₂, hq₂, hprecedes₁.trans hprecedes₂⟩

/-- A position that is the same before and after some changes is the same between them. -/
theorem Keeps.between {q : Position} (h : s.Keeps s') (h' : s'.Keeps s'')
    (hq : s.position? id = .ok (some q)) (hq'' : s''.position? id = .ok (some q)) :
    s'.position? id = .ok (some q) := by
  obtain ⟨q₁, hq₁, hprecedes⟩ := h id q hq
  obtain ⟨q₂, hq₂, hprecedes'⟩ := h' id q₁ hq₁
  cases found_unique hq'' hq₂
  have hid : q.id = q₁.id := (id_of_position? hq).trans (id_of_position? hq₁).symm
  rw [hprecedes.antisymm hprecedes' hid]
  exact hq₁

end Store

/-! ## Services -/

namespace Session

open Work Service

variable {books : Books Partners} {id : String}

/-- Work that leaves the store alone if it fails. -/
theorem changes_of_restores {α : Type} {work : Service α} (h : Restores work)
    (hok : ∀ a after, work.runOn books = (.ok a, after) → Store.Changes books.store after.store) :
    Store.Changes books.store (work.runOn books).2.store := by
  rcases hrun : work.runOn books with ⟨result, after⟩
  cases result with
  | ok a => exact hok a after hrun
  | error fault =>
    rw [(h books fault after hrun).1]
    exact .refl

theorem changes_saveLockup (books : Books Partners) (position : String) (index : Int)
    (l : Lockup) :
    Store.Changes books.store ((Work.unit (Work.saveLockup .readWrite position index l) :
      Service Unit).runOn books).2.store := by
  refine changes_of_restores (OnStore.unit (onStore_saveLockup position index l))
    fun _ after hrun => ?_
  obtain ⟨-, rfl⟩ := runOn_saveLockup_ok_iff.mp (runOn_unit_ok_iff.mp hrun)
  exact .single (.lockup _ position index l)

theorem changes_createPool (books : Books Partners) (id : String) (time : Option Int) :
    Store.Changes books.store ((createPool id time).runOn books).2.store := by
  refine changes_of_restores (restores_createPool id time) fun pool after hrun => ?_
  obtain ⟨hnone, rfl, hstore, -⟩ := runOn_createPool_ok hrun
  rw [hstore]
  exact .single (.created _ hnone)

theorem changes_rollForward (books : Books Partners) (id : String) :
    Store.Changes books.store ((rollForward id).runOn books).2.store := by
  refine changes_of_restores (restores_rollForward id) fun pool after hrun => ?_
  obtain ⟨old, hold, hroll, hstore, -⟩ := runOn_rollForward_ok hrun
  rw [hstore]
  exact .single (.rolled hold hroll)

theorem changes_openPosition (books : Books Partners) (p : Position) (amount : Int) (l : Lockup) :
    Store.Changes books.store ((openPosition p amount l).runOn books).2.store := by
  refine changes_of_restores (restores_openPosition p amount l) fun pool after hrun => ?_
  obtain ⟨old, hnone, hold, hpool, hstore, -⟩ := runOn_openPosition_ok hrun
  rw [hstore]
  exact .single (.opened hnone hold hpool)

theorem changes_closePosition (books : Books Partners) (id : String) (amount : Int) :
    Store.Changes books.store ((closePosition id amount).runOn books).2.store := by
  refine changes_of_restores (restores_closePosition id amount) fun pool after hrun => ?_
  obtain ⟨p, l, delta, old, hp, hopen, -, hdelta, hold, hpool, -, hstore, -⟩ :=
    exists_runOn_closePosition_iff.mp ⟨after, hrun, rfl, rfl⟩
  obtain rfl := Store.id_of_position? hp
  rw [hstore]
  exact .single (.ended hp (.of_closed p) hopen.symm hold hpool
    (Pools.rate_of_closingDelta hdelta))

theorem changes_process (books : Books Partners) (id : String) :
    Store.Changes books.store ((process id).runOn books).2.store := by
  have hjudge : Store.Changes books.store ((judge id).runOn books).2.store := by
    refine changes_of_restores (restores_judge id) fun r after hrun => ?_
    obtain ⟨p, d⟩ := r
    obtain ⟨l, old, hp, -, hold, hd, hstore, -⟩ := runOn_judge_ok hrun
    obtain rfl := Store.id_of_position? hp
    rw [hstore]
    cases d with
    | reschedule r => exact .refl
    | finalize f =>
      obtain ⟨hphase, -, hdelta, hpool, hposition, -⟩ := Purge.decision_eq_finalize_iff.mp hd
      have hrate : f.delta.rate = -p.runningRate := Purge.rate_of_expiredDelta hphase hdelta
      have hlater : Phase.finalized ≠ p.phase := by
        rw [hphase]
        decide
      rw [Store.decided, hposition]
      exact .single (.ended hp (.of_running hphase _) hlater hold hpool hrate)
  rw [process_eq, runOn_bind]
  rcases hrun : (judge id).runOn books with ⟨result, mid⟩
  rw [hrun] at hjudge
  cases result with
  | error fault => exact hjudge
  | ok r =>
    dsimp only
    rw [offStore_conclude id r mid]
    exact hjudge

theorem changes_sweep (books : Books Partners) (pool : String) :
    Store.Changes books.store ((sweep pool).runOn books).2.store := by
  have hvisits : ∀ (ids : List String) (books : Books Partners),
      Store.Changes books.store ((ids.mapM processSafely).runOn books).2.store := by
    intro ids
    induction ids with
    | nil => exact fun _ => .refl
    | cons id rest ih =>
      intro books
      have hfirst : Store.Changes books.store ((processSafely id).runOn books).2.store := by
        rw [store_processSafely]
        exact changes_process books id
      rw [List.mapM_cons, runOn_bind]
      rcases hrun : (processSafely id).runOn books with ⟨result, mid⟩
      rw [hrun] at hfirst
      cases result with
      | error fault => exact hfirst
      | ok r =>
        dsimp only
        rw [runOn_bind_pure]
        exact hfirst.trans (ih mid)
  rw [sweep_eq, runOn_bind]
  rcases hrun : (listed pool).runOn books with ⟨result, mid⟩
  have hmid : mid.store = books.store := ((readsOnly_listed pool).of_runOn hrun).1
  cases result with
  | error fault =>
    dsimp only
    rw [hmid]
    exact .refl
  | ok ids =>
    rw [← hmid]
    exact hvisits ids mid

/-! ## Steps -/

/-- What a step does after its service is nothing to the store. -/
theorem store_step_of_offStore {α : Type} {service : Service α} {next : α → Service Answer}
    {s : Step} (hrun : s.run = service >>= next) (hnext : ∀ a, OffStore (next a)) :
    (step books s).books.store = (service.runOn (fresh books)).2.store := by
  show (s.run.runOn (fresh books)).2.store = _
  rw [hrun, runOn_bind]
  rcases service.runOn (fresh books) with ⟨result, mid⟩
  cases result with
  | error fault => rfl
  | ok a => exact hnext a mid

/-- What an opening that succeeds has found and written. -/
theorem step_openPosition_ok {p : Position} {amount : Int} {l : Lockup} {registered : Bool}
    {answer : Answer}
    (h : (step books (.openPosition p amount l registered)).answer = .ok answer) :
    ∃ before opened, books.store.positions.get? p.id = none ∧
      books.store.pool? p.pool = .ok (some before) ∧
      before.applyDelta books.outside.registrar.clock.now (Delta.stake p.rate.val amount) =
        .ok opened ∧
      (step books (.openPosition p amount l registered)).books.store =
        ((books.store.putPool p.pool opened).putPosition p).putLockup p.id p.index l ∧
      (step books (.openPosition p amount l registered)).books.outside.policy =
        books.outside.policy := by
  have hrun : (Step.openPosition p amount l registered).run.runOn (fresh books) =
      (.ok answer, (step books (.openPosition p amount l registered)).books) := Prod.ext h rfl
  obtain ⟨opened, mid, hopen, hrest⟩ := runOn_bind_ok_iff.mp hrun
  obtain ⟨before, hnone, hbefore, hopened, hstore, houtside⟩ := Service.runOn_openPosition_ok hopen
  -- the lockup is registered after the unit of work, and outside the store
  have hafter : (step books (.openPosition p amount l registered)).books.store = mid.store ∧
      (step books (.openPosition p amount l registered)).books.outside.policy =
        mid.outside.policy := by
    cases registered with
    | false =>
      obtain ⟨-, hsame⟩ := runOn_pure_ok_iff.mp hrest
      rw [hsame]
      exact ⟨rfl, rfl⟩
    | true =>
      obtain ⟨_, _, hregister, hpure⟩ := runOn_bind_ok_iff.mp hrest
      obtain ⟨-, hsame⟩ := runOn_pure_ok_iff.mp hpure
      rw [hsame, ← (Prod.mk.inj hregister).2]
      exact ⟨rfl, rfl⟩
  refine ⟨before, opened, hnone, hbefore, hopened, hafter.1.trans hstore, ?_⟩
  rw [hafter.2, houtside]
  rfl

/-- Every step is a sequence of changes. -/
theorem changes_step (books : Books Partners) (s : Step) :
    Store.Changes books.store (step books s).books.store := by
  have hpure : ∀ {α : Type} (tell : α → Answer) (a : α),
      OffStore (pure (tell a) : Service Answer) := fun _ _ => (readsOnly_pure _).offStore
  cases s with
  | setClock | advanceClock | readClock | registerLockup | fail => exact .refl
  | storeLockup position index l =>
    rw [store_step_of_offStore (s := .storeLockup position index l) rfl (hpure fun _ => .done)]
    exact changes_saveLockup (fresh books) position index l
  | findLockup position index =>
    rw [store_step_of_offStore (s := .findLockup position index) rfl (hpure .lockup),
      (readsOnly_lockup position index (fresh books)).1]
    exact .refl
  | createPool id time =>
    rw [store_step_of_offStore (s := .createPool id time) rfl (hpure .pool)]
    exact changes_createPool (fresh books) id time
  | openPosition p amount l registered =>
    have hnext : ∀ pool, OffStore (do
        if registered then register p.id p.index l
        pure (.pool pool) : Service Answer) := by
      intro pool
      cases registered <;> exact fun _ => rfl
    rw [store_step_of_offStore (s := .openPosition p amount l registered) rfl hnext]
    exact changes_openPosition (fresh books) p amount l
  | closePosition id amount =>
    rw [store_step_of_offStore (s := .closePosition id amount) rfl (hpure .pool)]
    exact changes_closePosition (fresh books) id amount
  | poolStatus id =>
    rw [store_step_of_offStore (s := .poolStatus id) rfl (hpure .pool),
      (readsOnly_status id (fresh books)).1]
    exact .refl
  | rollForward id =>
    rw [store_step_of_offStore (s := .rollForward id) rfl (hpure .pool)]
    exact changes_rollForward (fresh books) id
  | process id =>
    rw [store_step_of_offStore (s := .process id) rfl (hpure .result)]
    exact changes_process (fresh books) id
  | sweep pool =>
    rw [store_step_of_offStore (s := .sweep pool) rfl (hpure .results)]
    exact changes_sweep (fresh books) pool

/-- Every run is a sequence of changes. -/
theorem changes_run (books : Books Partners) (steps : List Step) :
    Store.Changes books.store (booksAfter books steps).store := by
  induction steps generalizing books with
  | nil => exact .refl
  | cons s rest ih => exact (changes_step books s).trans (ih (step books s).books)

end Session

end StakeLedger
