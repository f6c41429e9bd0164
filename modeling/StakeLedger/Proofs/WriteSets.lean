import StakeLedger.Proofs.Steps

/-
  What the services write, whatever the store holds.
  A call that fails leaves every row as it was. One that ends well has put the rows of one pool,
  one position and one lockup at most: `runOn_createPool_ok` to `runOn_judge_ok` say which, and
  under which checks. Processing calls the scheduler at most once, after its unit of work is
  over, so a refusal there finds nothing written.
-/

namespace StakeLedger

/-- The lockup of a deposit entry, if the registrar knows it; one without a table of its own
looks into the store. -/
def Registrar.find? (r : Registrar) (s : Store) (position : String) (index : Int) :
    Except Fault (Option Lockup) :=
  match r.lockups with
  | .kept table => .ok (table.get? (position, index))
  | .stored => s.lockup? position index

/-- The store after a decision on a position has been carried out. -/
def Store.decided (s : Store) (p : Position) : Purge.Decision → Store
  | .finalize f => (s.putPool p.pool f.pool).putPosition f.position
  | .reschedule _ => s

/-- One call of a scheduler: it keeps the expression under the key, or goes once through the
course of an update at the trigger's address. -/
inductive Scheduler.Updates (key expression : String) : Scheduler → Scheduler → Prop
  | kept (triggers : Table String String) (updates : List (String × String)) :
    Updates key expression (.kept triggers updates)
      (.kept (triggers.put key expression) (updates ++ [(key, expression)]))
  | remote (client : TriggerClient) (address : Address) (h : client.address key = .ok address) :
    Updates key expression (.remote client)
      (.remote (client.after address expression (client.update address key)))

namespace Service

open Work

variable {books after : Books Partners} {id key expression : String} {pool : Pool}
  {time amount : Int}

/-! ## Services that end well -/

theorem runOn_partners_ok_iff {present : Partners} :
    partners.runOn books = (.ok present, after) ↔ present = books.outside ∧ after = books := by
  show (Except.ok books.outside, books) = (.ok present, after) ↔ _
  simp [eq_comm]

theorem runOn_now_ok_iff :
    now.runOn books = (.ok time, after) ↔
      time = books.outside.registrar.clock.now ∧ after = books := by
  show (Except.ok books.outside.registrar.clock.now, books) = (.ok time, after) ↔ _
  simp [eq_comm]

theorem runOn_lockup?_ok_iff {index : Int} {found : Option Lockup} :
    (lockup? id index).runOn books = (.ok found, after) ↔
      books.outside.registrar.find? books.store id index = .ok found ∧ after = books := by
  rw [lockup?, runOn_bind, show (partners : Service Partners).runOn books =
    (.ok books.outside, books) from rfl]
  dsimp only
  unfold Registrar.find?
  cases books.outside.registrar.lockups with
  | kept table =>
    rw [runOn_pure_ok_iff, Except.ok.injEq, eq_comm]
  | stored =>
    dsimp only
    rw [runOn_unit_ok_iff, runOn_readStore_ok_iff]

theorem runOn_lockup_ok_iff {index : Int} {l : Lockup} :
    (lockup id index).runOn books = (.ok l, after) ↔
      books.outside.registrar.find? books.store id index = .ok (some l) ∧ after = books := by
  simp only [lockup, runOn_bind_ok_iff, runOn_lockup?_ok_iff]
  constructor
  · rintro ⟨found, _, ⟨hfound, rfl⟩, h⟩
    cases found with
    | none => exact absurd h (by simp)
    | some l' =>
      obtain ⟨rfl, rfl⟩ := runOn_pure_ok_iff.mp h
      exact ⟨hfound, rfl⟩
  · rintro ⟨hfound, rfl⟩
    exact ⟨_, _, ⟨hfound, rfl⟩, rfl⟩

theorem runOn_createPool_ok {time : Option Int}
    (h : (createPool id time).runOn books = (.ok pool, after)) :
    books.store.pools.get? id = none ∧
      pool = .empty (time.getD books.outside.registrar.clock.now) ∧
      after.store = books.store.putPool id pool ∧ after.outside = books.outside := by
  have hadd : ∀ asOf, (do
      Work.unit do
        if (← readStore (·.pool? id)).isSome then throw (.poolExists id)
        Work.savePool .readWrite id (.empty asOf)
      Pools.log "pool_created" [("pool_id", .text id)]
      pure (.empty asOf) : Service Pool).runOn books = (.ok pool, after) →
      books.store.pools.get? id = none ∧ pool = .empty asOf ∧
        after.store = books.store.putPool id pool ∧ after.outside = books.outside := by
    intro asOf hrun
    simp only [runOn_bind_ok_iff, runOn_unit_ok_iff, runOn_readStore_ok_iff, Pools.log,
      runOn_emit_ok_iff, runOn_pure_ok_iff] at hrun
    obtain ⟨_, _, ⟨found, _, ⟨hfound, rfl⟩, hsave⟩, _, _, rfl, rfl, rfl⟩ := hrun
    split at hsave
    · exact absurd hsave not_runOn_throw_bind
    · next hnone =>
      obtain rfl : found = none := by simpa using hnone
      obtain ⟨-, rfl⟩ := runOn_savePool_ok_iff.mp hsave
      exact ⟨Store.pool?_eq_none_iff.mp hfound, rfl, rfl, rfl⟩
  cases time with
  | none =>
    obtain ⟨_, _, htime, hrest⟩ := runOn_bind_ok_iff.mp h
    obtain ⟨rfl, rfl⟩ := runOn_now_ok_iff.mp htime
    exact hadd _ hrest
  | some asOf => exact hadd asOf h

theorem runOn_rollForward_ok (h : (rollForward id).runOn books = (.ok pool, after)) :
    ∃ before, books.store.pool? id = .ok (some before) ∧
      before.rollForward books.outside.registrar.clock.now = .ok pool ∧
      after.store = books.store.putPool id pool ∧ after.outside = books.outside := by
  simp only [rollForward, runOn_bind_ok_iff, runOn_now_ok_iff, runOn_unit_ok_iff,
    runOn_within_ok_iff, runOn_loadPool_ok_iff, runOn_check_ok_iff, runOn_savePool_ok_iff,
    Pools.log, runOn_emit_ok_iff, runOn_pure_ok_iff] at h
  obtain ⟨_, _, ⟨rfl, rfl⟩, _, ⟨before, _, ⟨hbefore, rfl⟩, _, _, ⟨hroll, rfl⟩, _, _, ⟨-, rfl⟩, _, _,
    rfl, rfl, rfl⟩, rfl⟩ := h
  exact ⟨before, hbefore, hroll, rfl, rfl⟩

theorem runOn_openPosition_ok {p : Position} {l : Lockup}
    (h : (openPosition p amount l).runOn books = (.ok pool, after)) :
    ∃ before, books.store.positions.get? p.id = none ∧
      books.store.pool? p.pool = .ok (some before) ∧
      before.applyDelta books.outside.registrar.clock.now (Delta.stake p.rate.val amount) =
        .ok pool ∧
      after.store = ((books.store.putPool p.pool pool).putPosition p).putLockup p.id p.index l ∧
      after.outside = books.outside := by
  obtain ⟨_, _, htime, hunit⟩ := runOn_bind_ok_iff.mp h
  obtain ⟨rfl, rfl⟩ := runOn_now_ok_iff.mp htime
  obtain ⟨inner, hinner, rfl⟩ := runOn_within_ok_iff.mp (runOn_unit_ok_iff.mp hunit)
  obtain ⟨found, _, hread, hopen⟩ := runOn_bind_ok_iff.mp hinner
  obtain ⟨hfound, rfl⟩ := runOn_readStore_ok_iff.mp hread
  dsimp only at hopen
  split at hopen
  · exact absurd hopen not_runOn_throw_bind
  · next hnone =>
    obtain rfl : found = none := by simpa using hnone
    simp only [runOn_bind_ok_iff, runOn_loadPool_ok_iff, runOn_check_ok_iff,
      runOn_savePool_ok_iff, runOn_savePosition_ok_iff, runOn_saveLockup_ok_iff, Pools.log,
      runOn_emit_ok_iff, runOn_pure_ok_iff] at hopen
    obtain ⟨before, _, ⟨hbefore, rfl⟩, _, _, ⟨hchanged, rfl⟩, _, _, ⟨-, rfl⟩, _, _, ⟨-, rfl⟩, _, _,
      ⟨-, rfl⟩, _, _, rfl, rfl, rfl⟩ := hopen
    exact ⟨before, Store.position?_eq_none_iff.mp hfound, hbefore, hchanged, rfl, rfl⟩

/-- When a position is closed, with which result, and what is written. -/
theorem exists_runOn_closePosition_iff {s : Store} {outside : Partners} :
    (∃ after, (closePosition id amount).runOn books = (.ok pool, after) ∧ after.store = s ∧
        after.outside = outside) ↔
      ∃ p l delta before, books.store.position? id = .ok (some p) ∧ p.phase ≠ .closed ∧
        books.outside.registrar.find? books.store id p.index = .ok (some l) ∧
        Pools.closingDelta p l.view books.outside.registrar.clock.now amount = .ok delta ∧
        books.store.pool? p.pool = .ok (some before) ∧
        before.applyDelta books.outside.registrar.clock.now delta = .ok pool ∧
        Cell.fits pool.asOf = true ∧
        s = (books.store.putPool p.pool pool).putPosition { p with phase := .closed } ∧
        outside = books.outside := by
  simp only [closePosition, closeAt, runOn_bind_ok_iff, runOn_unit_ok_iff,
    runOn_loadPosition_ok_iff, runOn_check_ok_iff, runOn_lockup_ok_iff, runOn_now_ok_iff,
    runOn_within_ok_iff, runOn_loadPool_ok_iff, runOn_savePool_ok_iff,
    runOn_savePosition_ok_iff, Pools.log, runOn_emit_ok_iff, runOn_pure_ok_iff]
  constructor
  · rintro ⟨_, ⟨p, _, ⟨hp, rfl⟩, closed, _, ⟨hclosed, rfl⟩, l, _, ⟨hl, rfl⟩, _, _, ⟨rfl, rfl⟩,
      p', _, ⟨hp', rfl⟩, _, ⟨closed', _, ⟨hclosed', rfl⟩, delta, _, ⟨hdelta, rfl⟩, before, _,
      ⟨hbefore, rfl⟩, changed, _, ⟨hchanged, rfl⟩, _, _, ⟨hfits, rfl⟩, _, _, ⟨-, rfl⟩, _, _, rfl,
      rfl, rfl⟩, rfl⟩, rfl, rfl⟩
    -- the position is looked up again in the unit of work, and nothing has come between
    cases found_unique hp hp'
    obtain ⟨hopen, rfl⟩ := Position.close_eq_ok_iff.mp hclosed'
    exact ⟨p, l, delta, before, hp, hopen, hl, hdelta, hbefore, hchanged, hfits, rfl, rfl⟩
  · rintro ⟨p, l, delta, before, hp, hopen, hl, hdelta, hbefore, hchanged, hfits, rfl, rfl⟩
    have hclosed := Position.close_eq_ok_iff.mpr ⟨hopen, rfl⟩
    have hearlier : books.store.position? p.id = .ok (some p) := by
      rw [Store.id_of_position? hp, hp]
    have hphase : Store.checkPhase (some p) { p with phase := .closed } = .ok () := by
      simp [Store.checkPhase, Phase.isFinalized, Phase.isClosed]
    exact ⟨_, ⟨p, _, ⟨hp, rfl⟩, _, _, ⟨hclosed, rfl⟩, l, _, ⟨hl, rfl⟩, _, _, ⟨rfl, rfl⟩, p, _,
      ⟨hp, rfl⟩, _, ⟨_, _, ⟨hclosed, rfl⟩, delta, _, ⟨hdelta, rfl⟩, before, _, ⟨hbefore, rfl⟩,
      pool, _, ⟨hchanged, rfl⟩, (), _, ⟨hfits, rfl⟩, (), _, ⟨⟨some p, hearlier, hphase⟩, rfl⟩,
      (), _, rfl, rfl, rfl⟩, rfl⟩, rfl, rfl⟩

/-- What is decided on a position, and what is written then. -/
theorem runOn_judge_ok {p : Position} {d : Purge.Decision}
    (h : (judge id).runOn books = (.ok (p, d), after)) :
    ∃ l before, books.store.position? id = .ok (some p) ∧
      books.outside.registrar.find? books.store id p.index = .ok (some l) ∧
      books.store.pool? p.pool = .ok (some before) ∧
      Purge.decision books.outside.policy p before l.view books.outside.registrar.clock.now =
        .ok d ∧
      after.store = books.store.decided p d ∧ after.outside = books.outside := by
  simp only [judge, Purges.decideAt, runOn_bind_ok_iff, runOn_unit_ok_iff,
    runOn_loadPosition_ok_iff, runOn_lockup_ok_iff, runOn_now_ok_iff, runOn_within_ok_iff,
    runOn_loadPool_ok_iff, runOn_partners_ok_iff, runOn_check_ok_iff] at h
  obtain ⟨q, _, ⟨hq, rfl⟩, l, _, ⟨hl, rfl⟩, _, _, ⟨rfl, rfl⟩, p', _, ⟨hp', rfl⟩, _, ⟨before, _,
    ⟨hbefore, rfl⟩, _, _, ⟨rfl, rfl⟩, d', _, ⟨hd, rfl⟩, hstore⟩, rfl⟩ := h
  cases found_unique hq hp'
  cases d' with
  | reschedule r =>
    obtain ⟨hpair, rfl⟩ := runOn_pure_ok_iff.mp hstore
    cases hpair
    exact ⟨l, before, hq, hl, hbefore, hd, rfl, rfl⟩
  | finalize f =>
    simp only [Purges.store, runOn_bind_ok_iff, runOn_savePool_ok_iff,
      runOn_savePosition_ok_iff, Purges.log, runOn_emit_ok_iff, runOn_pure_ok_iff] at hstore
    obtain ⟨_, _, ⟨_, _, ⟨-, rfl⟩, _, _, ⟨-, rfl⟩, rfl⟩, hpair, rfl⟩ := hstore
    cases hpair
    exact ⟨l, before, hq, hl, hbefore, hd, rfl, rfl⟩

/-! ## The scheduler -/

theorem runOn_upsert_of_kept {triggers : Table String String} {updates : List (String × String)}
    (h : books.outside.scheduler = .kept triggers updates) :
    (upsert key expression).runOn books = (.ok (), { books with outside :=
      { books.outside with
        scheduler := .kept (triggers.put key expression) (updates ++ [(key, expression)]) } }) := by
  rw [upsert, runOn_bind, show (partners : Service Partners).runOn books =
    (.ok books.outside, books) from rfl]
  dsimp only
  rw [h]
  rfl

theorem readsOnly_logRetries (notices : List (Retry.Notice UpdateFailure)) :
    ReadsOnly (notices.forM (Scheduling.logRetry key)) := by
  induction notices with
  | nil => exact readsOnly_pure ()
  | cons notice rest ih => exact (readsOnly_emit _ _ _ _ _).bind fun _ => ih

theorem offStore_send (client : TriggerClient) :
    OffStore (Scheduling.send client key expression) := by
  refine (readsOnly_check _).offStore.bind fun address => ?_
  refine OffStore.bind (fun _ => rfl) fun _ => ?_
  refine (readsOnly_logRetries _).offStore.bind fun _ => ?_
  exact ((readsOnly_check _).bind fun _ => readsOnly_emit _ _ _ _ _).offStore

theorem offStore_upsert : OffStore (upsert key expression) := by
  refine OffStore.bind (fun _ => rfl) fun present => ?_
  cases present.scheduler with
  | kept triggers updates => exact fun _ => rfl
  | remote client => exact offStore_send client

/-- A request that is sent is one course of an update. -/
theorem runOn_send_ok {client : TriggerClient} {u : Unit}
    (h : (Scheduling.send client key expression).runOn books = (.ok u, after)) :
    ∃ address, client.address key = .ok address ∧ after.outside =
      { books.outside with
        scheduler := .remote (client.after address expression (client.update address key)) } := by
  obtain ⟨address, _, haddress, h₁⟩ := runOn_bind_ok_iff.mp h
  obtain ⟨hok, rfl⟩ := runOn_check_ok_iff.mp haddress
  obtain ⟨_, mid, hset, h₂⟩ := runOn_bind_ok_iff.mp h₁
  obtain ⟨-, rfl⟩ := Prod.mk.inj hset
  refine ⟨address, hok, ?_⟩
  exact (((readsOnly_logRetries _).bind fun _ => (readsOnly_check _).bind fun _ =>
    readsOnly_emit _ _ _ _ _).of_runOn h₂).2

/-- Calling the scheduler is one call. -/
theorem runOn_upsert_ok {u : Unit} (h : (upsert key expression).runOn books = (.ok u, after)) :
    ∃ scheduler, Scheduler.Updates key expression books.outside.scheduler scheduler ∧
      after.outside = { books.outside with scheduler := scheduler } := by
  cases hscheduler : books.outside.scheduler with
  | kept triggers updates =>
    rw [runOn_upsert_of_kept hscheduler] at h
    obtain ⟨-, rfl⟩ := Prod.mk.inj h
    exact ⟨_, .kept triggers updates, rfl⟩
  | remote client =>
    obtain ⟨_, _, hpartners, hsend⟩ := runOn_bind_ok_iff.mp h
    obtain ⟨rfl, rfl⟩ := runOn_partners_ok_iff.mp hpartners
    rw [hscheduler] at hsend
    obtain ⟨address, haddress, houtside⟩ := runOn_send_ok hsend
    exact ⟨_, .remote client address haddress, houtside⟩

theorem offStore_move (p : Position) (r : Purge.Reschedule) : OffStore (Purges.move p r) :=
  (offStore_upsert.bind fun _ => (readsOnly_emit _ _ _ _ _).offStore).within _

theorem runOn_move_ok {p : Position} {r : Purge.Reschedule} {u : Unit}
    (h : (Purges.move p r).runOn books = (.ok u, after)) :
    ∃ scheduler, Scheduler.Updates r.key r.expression.text books.outside.scheduler scheduler ∧
      after.outside = { books.outside with scheduler := scheduler } := by
  simp only [Purges.move, runOn_within_ok_iff, runOn_bind_ok_iff, Purges.log,
    runOn_emit_ok_iff] at h
  obtain ⟨_, ⟨_, _, hupsert, rfl⟩, rfl⟩ := h
  obtain ⟨scheduler, hcall, houtside⟩ := runOn_upsert_ok hupsert
  exact ⟨scheduler, hcall, houtside⟩

/-- A scheduler of the registrar's own machine refuses nothing. -/
theorem exists_runOn_move_of_kept {triggers : Table String String}
    {updates : List (String × String)} (h : books.outside.scheduler = .kept triggers updates)
    (p : Position) (r : Purge.Reschedule) :
    ∃ after, (Purges.move p r).runOn books = (.ok (), after) := by
  simp only [Purges.move, runOn_within_ok_iff, runOn_bind_ok_iff, Purges.log, runOn_emit_ok_iff]
  exact ⟨_, _, ⟨_, _, runOn_upsert_of_kept h, rfl⟩, rfl⟩

/-! ## Services that fail -/

theorem readsOnly_lockup (position : String) (index : Int) :
    ReadsOnly (lockup position index) := by
  have hlookUp : ReadsOnly (lockup? position index) := by
    refine ReadsOnly.bind (fun _ => ⟨rfl, rfl⟩) fun present => ?_
    cases present.registrar.lockups with
    | kept table => exact readsOnly_pure _
    | stored => exact (readsOnly_readStore _).unit
  refine hlookUp.bind fun found => ?_
  cases found with
  | none => exact readsOnly_throw _
  | some l => exact readsOnly_pure l

theorem readsOnly_now : ReadsOnly now := fun _ => ⟨rfl, rfl⟩

theorem readsOnly_status (id : String) : ReadsOnly (status id) :=
  (readsOnly_loadPool id).unit.bind fun _ => readsOnly_now.bind fun _ => readsOnly_check _

theorem restores_rollForward (id : String) : Restores (rollForward id) := by
  refine Restores.bind_of_readsOnly readsOnly_now fun time => OnStore.unit (OnStore.within _ ?_)
  refine (readsOnly_loadPool id).onStore.bind fun pool => ?_
  refine (readsOnly_check _).onStore.bind fun rolled => ?_
  refine (onStore_savePool id rolled).bind fun _ => ?_
  exact ((readsOnly_emit _ _ _ _ _).bind fun _ => readsOnly_pure _).onStore

theorem restores_createPool (id : String) (time : Option Int) : Restores (createPool id time) := by
  have hadd : ∀ asOf, Restores (do
      Work.unit do
        if (← readStore (·.pool? id)).isSome then throw (.poolExists id)
        Work.savePool .readWrite id (.empty asOf)
      Pools.log "pool_created" [("pool_id", .text id)]
      pure (.empty asOf) : Service Pool) := by
    intro asOf
    refine Restores.bind_of_total (OnStore.unit ?_) fun _ _ _ _ h => by cases h
    refine (readsOnly_readStore _).onStore.bind fun found => ?_
    dsimp only
    split
    · exact (readsOnly_throw _).onStore.bind fun _ => onStore_savePool id _
    · exact onStore_savePool id _
  cases time with
  | none => exact .bind_of_readsOnly readsOnly_now fun asOf => hadd asOf
  | some asOf => exact hadd asOf

theorem restores_openPosition (p : Position) (amount : Int) (l : Lockup) :
    Restores (openPosition p amount l) := by
  have hopen : ∀ time, OnStore (do
      let pool ← Work.loadPool p.pool
      let pool ← Work.check (pool.applyDelta time (Delta.stake p.rate.val amount))
      Work.savePool .readWrite p.pool pool
      Work.savePosition .readWrite p
      Work.saveLockup .readWrite p.id p.index l
      Pools.log "position_opened" [("fall_rate", .int p.rate.val), ("vehnt_amount", .int amount)]
      pure pool : Service Pool) := by
    intro time
    refine (readsOnly_loadPool p.pool).onStore.bind fun pool => ?_
    refine (readsOnly_check _).onStore.bind fun changed => ?_
    refine (onStore_savePool p.pool changed).bind fun _ => ?_
    refine (onStore_savePosition p).bind fun _ => ?_
    refine (onStore_saveLockup p.id p.index l).bind fun _ => ?_
    exact ((readsOnly_emit _ _ _ _ _).bind fun _ => readsOnly_pure _).onStore
  refine .bind_of_readsOnly readsOnly_now fun time => OnStore.unit (OnStore.within _ ?_)
  refine (readsOnly_readStore _).onStore.bind fun found => ?_
  dsimp only
  split
  · exact (readsOnly_throw _).onStore.bind fun _ => hopen time
  · exact hopen time

theorem restores_closePosition (id : String) (amount : Int) :
    Restores (closePosition id amount) := by
  have hclose : ∀ l time, Restores (closeAt id l time amount) := by
    intro l time
    refine OnStore.unit ((readsOnly_loadPosition id).onStore.bind fun p => OnStore.within _ ?_)
    refine (readsOnly_check _).onStore.bind fun closed => ?_
    refine (readsOnly_check _).onStore.bind fun delta => ?_
    refine (readsOnly_loadPool p.pool).onStore.bind fun pool => ?_
    refine (readsOnly_check _).onStore.bind fun changed => ?_
    refine (onStore_savePool p.pool changed).bind fun _ => ?_
    refine (onStore_savePosition closed).bind fun _ => ?_
    exact ((readsOnly_emit _ _ _ _ _).bind fun _ => readsOnly_pure _).onStore
  refine .bind_of_readsOnly (readsOnly_loadPosition id).unit fun p => ?_
  refine .bind_of_readsOnly (readsOnly_check _) fun closed => ?_
  refine .bind_of_readsOnly (readsOnly_lockup id p.index) fun l => ?_
  exact .bind_of_readsOnly readsOnly_now fun time => hclose l.view time

theorem restores_judge (id : String) : Restores (judge id) := by
  have hstore : ∀ p time f, OnStore (Purges.store p time f) := by
    intro p time f
    refine (onStore_savePool p.pool f.pool).bind fun _ => ?_
    exact (onStore_savePosition f.position).bind fun _ => (readsOnly_emit _ _ _ _ _).onStore
  have hdecide : ∀ l time, Restores (Purges.decideAt id l time) := by
    intro l time
    refine OnStore.unit ((readsOnly_loadPosition id).onStore.bind fun p => OnStore.within _ ?_)
    refine (readsOnly_loadPool p.pool).onStore.bind fun pool => ?_
    refine OnStore.bind (fun _ => rfl) fun present => ?_
    refine (readsOnly_check _).onStore.bind fun decision => ?_
    cases decision with
    | finalize f => exact (hstore p time f).bind fun _ => (readsOnly_pure _).onStore
    | reschedule r => exact (readsOnly_pure _).onStore
  refine .bind_of_readsOnly (readsOnly_loadPosition id).unit fun p => ?_
  refine .bind_of_readsOnly (readsOnly_lockup id p.index) fun l => ?_
  exact .bind_of_readsOnly readsOnly_now fun time => hdecide l.view time

/-! ## All or nothing -/

/-- Work that leaves every row as it was if it fails, and the scheduler as well unless that is a
client of a service, and otherwise has written what is said. -/
def AllOrNothing {α : Type} (work : Service α)
    (written : Books Partners → α → Books Partners → Prop) : Prop :=
  ∀ books, match work.runOn books with
    | (.ok a, after) => written books a after
    | (.error _, after) => after.store = books.store ∧
      ∀ triggers updates, books.outside.scheduler = .kept triggers updates →
        after.outside = books.outside

theorem allOrNothing_of_restores {α : Type} {work : Service α}
    {written : Books Partners → α → Books Partners → Prop} (h : Restores work)
    (hwritten : ∀ {books a after}, work.runOn books = (.ok a, after) → written books a after) :
    AllOrNothing work written := by
  intro books
  rcases hrun : work.runOn books with ⟨result, after⟩
  cases result with
  | ok a => exact hwritten hrun
  | error fault =>
    obtain ⟨hstore, houtside⟩ := h books fault after hrun
    exact ⟨hstore, fun _ _ _ => houtside⟩

/-- What processing a position has done: a finalization has put its pool and its position and
called no scheduler, a rescheduling has put nothing and called the scheduler once. -/
def Processing (id : String) (before : Books Partners) (r : Purge.Result)
    (after : Books Partners) : Prop :=
  r.position = id ∧
    match r.outcome with
    | .finalized pool => ∃ p, before.store.position? id = .ok (some p) ∧
        after.store =
          (before.store.putPool p.pool pool).putPosition { p with phase := .finalized } ∧
        after.store.pool? p.pool = .ok (some pool) ∧
        after.store.position? id = .ok (some { p with phase := .finalized }) ∧
        after.outside = before.outside
    | .rescheduled r => after.store = before.store ∧ ∃ scheduler,
        Scheduler.Updates r.key r.expression.text before.outside.scheduler scheduler ∧
          after.outside = { before.outside with scheduler := scheduler }
    | .failed _ => False

theorem allOrNothing_process (id : String) : AllOrNothing (process id) (Processing id) := by
  intro books
  rw [process_eq, runOn_bind]
  rcases hjudge : (judge id).runOn books with ⟨result, mid⟩
  cases result with
  | error fault =>
    obtain ⟨hstore, houtside⟩ := restores_judge id books fault mid hjudge
    exact ⟨hstore, fun _ _ _ => houtside⟩
  | ok r =>
    obtain ⟨p, d⟩ := r
    obtain ⟨l, before, hp, -, -, hd, hstore, houtside⟩ := runOn_judge_ok hjudge
    cases d with
    | finalize f =>
      obtain ⟨-, -, -, -, hposition, -⟩ := Purge.decision_eq_finalize_iff.mp hd
      have hput : mid.store =
          (books.store.putPool p.pool f.pool).putPosition { p with phase := .finalized } := by
        rw [hstore, ← hposition]
        rfl
      exact ⟨rfl, p, hp, hput, hput ▸ Store.pool?_putPool _ _ _,
        hput ▸ Store.position?_putPosition_phase hp, houtside⟩
    | reschedule r =>
      dsimp only [conclude]
      rw [runOn_bind]
      rcases hmove : (Purges.move p r).runOn mid with ⟨result, after⟩
      have hsame : after.store = books.store := by
        have hoff := offStore_move p r mid
        rw [hmove] at hoff
        exact hoff.trans hstore
      cases result with
      | ok u =>
        obtain ⟨scheduler, hcall, houtside'⟩ := runOn_move_ok hmove
        rw [houtside] at hcall houtside'
        exact ⟨Store.id_of_position? hp, hsame, scheduler, hcall, houtside'⟩
      | error fault =>
        refine ⟨hsame, fun triggers updates hkept => ?_⟩
        rw [← houtside] at hkept
        obtain ⟨_, hmove'⟩ := exists_runOn_move_of_kept hkept p r
        rw [hmove] at hmove'
        cases hmove'

/-- A result of a sweep is that of a processing, or tells of one that failed. -/
theorem runOn_processSafely_ok {r : Purge.Result}
    (h : (processSafely id).runOn books = (.ok r, after)) :
    r.position = id ∧
      ((process id).runOn books = (.ok r, after) ∧ r.outcome.isFailed = false ∨
        (∃ fault mid, (process id).runOn books = (.error fault, mid)) ∧
          r.outcome.isFailed = true) := by
  have hwhole := allOrNothing_process id books
  unfold processSafely at h
  rw [runOn_tryCatch] at h
  rcases hrun : (process id).runOn books with ⟨result, mid⟩
  rw [hrun] at h hwhole
  cases result with
  | ok a =>
    cases h
    obtain ⟨hposition, houtcome⟩ := hwhole
    refine ⟨hposition, Or.inl ⟨rfl, ?_⟩⟩
    cases hr : r.outcome with
    | failed code => rw [hr] at houtcome; exact houtcome.elim
    | rescheduled | finalized => rfl
  | error fault =>
    dsimp only at h
    cases hcode : fault.code? with
    | none => rw [hcode] at h; cases h
    | some code =>
      rw [hcode] at h
      obtain ⟨_, _, -, hfailed⟩ := runOn_bind_ok_iff.mp h
      obtain ⟨rfl, -⟩ := runOn_pure_ok_iff.mp hfailed
      exact ⟨rfl, Or.inr ⟨⟨fault, mid, rfl⟩, rfl⟩⟩

theorem runOn_processSafely_of_ok {r : Purge.Result}
    (h : (process id).runOn books = (.ok r, after)) :
    (processSafely id).runOn books = (.ok r, after) := by
  unfold processSafely
  rw [runOn_tryCatch, h]

/-- Every call of a service is carried out as a whole or not at all, on any store and with any
registrar, scheduler and rules for purges. A creation adds the row of a pool; an opening puts
the row of its pool, adds that of its position and puts that of its lockup; a closing and a
finalization put the row of the pool and that of the position, of which the phase alone has
changed; rolling forward puts the row of the pool; a status and a rescheduling put nothing.
A pool that a writing call answers with is the one that is found in the store from then on. -/
theorem services_allOrNothing :
    (∀ id time, AllOrNothing (createPool id time) fun before pool after =>
      before.store.pools.get? id = none ∧ after.store = before.store.putPool id pool ∧
        after.store.pool? id = .ok (some pool) ∧ after.outside = before.outside) ∧
    (∀ p amount l, AllOrNothing (openPosition p amount l) fun before pool after =>
      (∃ old, before.store.pool? p.pool = .ok (some old)) ∧
        before.store.positions.get? p.id = none ∧
        after.store = ((before.store.putPool p.pool pool).putPosition p).putLockup p.id p.index l ∧
        after.store.pool? p.pool = .ok (some pool) ∧ after.outside = before.outside) ∧
    (∀ id amount, AllOrNothing (closePosition id amount) fun before pool after =>
      ∃ p, before.store.position? id = .ok (some p) ∧
        (∃ old, before.store.pool? p.pool = .ok (some old)) ∧
        after.store = (before.store.putPool p.pool pool).putPosition { p with phase := .closed } ∧
        after.store.pool? p.pool = .ok (some pool) ∧
        after.store.position? id = .ok (some { p with phase := .closed }) ∧
        after.outside = before.outside) ∧
    (∀ id, AllOrNothing (rollForward id) fun before pool after =>
      (∃ old, before.store.pool? id = .ok (some old)) ∧
        after.store = before.store.putPool id pool ∧
        after.store.pool? id = .ok (some pool) ∧ after.outside = before.outside) ∧
    (∀ id, AllOrNothing (status id) fun before _ after =>
      after.store = before.store ∧ after.outside = before.outside) ∧
    ∀ id, AllOrNothing (process id) (Processing id) := by
  refine ⟨fun id time => ?_, fun p amount l => ?_, fun id amount => ?_, fun id => ?_, fun id => ?_,
    allOrNothing_process⟩
  · refine allOrNothing_of_restores (restores_createPool id time) fun h => ?_
    obtain ⟨hnone, -, hstore, houtside⟩ := runOn_createPool_ok h
    exact ⟨hnone, hstore, hstore ▸ Store.pool?_putPool _ _ _, houtside⟩
  · refine allOrNothing_of_restores (restores_openPosition p amount l) fun h => ?_
    obtain ⟨old, hnone, hold, -, hstore, houtside⟩ := runOn_openPosition_ok h
    exact ⟨⟨old, hold⟩, hnone, hstore, hstore ▸ Store.pool?_putPool _ _ _, houtside⟩
  · refine allOrNothing_of_restores (restores_closePosition id amount) fun {_ _ after} h => ?_
    obtain ⟨p, -, -, old, hp, -, -, -, hold, -, -, hstore, houtside⟩ :=
      exists_runOn_closePosition_iff.mp ⟨after, h, rfl, rfl⟩
    exact ⟨p, hp, ⟨old, hold⟩, hstore, hstore ▸ Store.pool?_putPool _ _ _,
      hstore ▸ Store.position?_putPosition_phase hp, houtside⟩
  · refine allOrNothing_of_restores (restores_rollForward id) fun h => ?_
    obtain ⟨old, hold, -, hstore, houtside⟩ := runOn_rollForward_ok h
    exact ⟨⟨old, hold⟩, hstore, hstore ▸ Store.pool?_putPool _ _ _, houtside⟩
  · refine allOrNothing_of_restores (readsOnly_status id).restores fun h => ?_
    exact (readsOnly_status id).of_runOn h

end Service

end StakeLedger
