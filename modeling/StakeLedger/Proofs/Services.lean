import StakeLedger.Proofs.Endings
import StakeLedger.Proofs.Finalization
import StakeLedger.Proofs.Posting
import StakeLedger.Service.Pools
import StakeLedger.Service.Purges

/-
  The services as postings.
  Each service that writes to the store performs one posting, named after it. What a posting
  that opens, closes or finalizes a position does is always one and the same thing: a pool
  takes a delta and one of its positions a new state (`Exchange`). The lemmas
  `exchange_of_open`, `exchange_of_close` and `exchange_of_process` say with which delta and
  which state, and under which checks.
-/

namespace StakeLedger

/-- The delta of a closing: what is left of the amount goes, and for a running position what an
expiry would take and give back. -/
theorem Service.Pools.closingDelta_eq_ok_iff {p : Position} {view : Lockup.View}
    {now amount : Int} {delta : Delta} :
    closingDelta p view now amount = .ok delta ↔
      (p.phase ≠ .running ∧ delta = ⟨0, -amount⟩) ∨
        p.phase = .running ∧ ∃ expired, Purge.expiredDelta p view now = .ok expired ∧
          delta = ⟨expired.rate, expired.staked - amount⟩ := by
  unfold closingDelta
  dsimp only
  by_cases hphase : p.phase = .running
  · have hfinal : ¬ p.phase.isFinalized = true := by
      rw [hphase]
      decide
    rw [if_neg hfinal]
    cases Purge.expiredDelta p view now with
    | error fault => simp [hphase, Except.map]
    | ok expired =>
      simp [hphase, Except.map, Delta.combine, Delta.unstake, Int.sub_eq_add_neg, eq_comm]
  · have hfinal : p.phase.isFinalized = true := by
      rw [← Bool.not_eq_false, Phase.isFinalized_eq_false_iff]
      exact hphase
    rw [if_pos hfinal]
    simp [hphase, Delta.unstake, eq_comm]

namespace Posting

/-- The pool of an id, which must exist. -/
def loadPool (id : String) : Posting Pool := do
  require (← read fun g => .ok (g.pools.get? id)) (.unknownPool id)

/-- The position of an id, which must exist. -/
def loadPosition (id : String) : Posting Position := do
  require (← read fun g => .ok (g.positions.get? id)) (.unknownPosition id)

/-- Saves a pool. -/
def savePool (id : String) (pool : Pool) : Posting Unit := write (·.savePool id pool)

/-- Saves a position. -/
def savePosition (p : Position) : Posting Unit := write (·.savePosition p)

/-- Saves the lockup of a deposit entry. -/
def saveLockup (position : String) (index : Int) (l : Lockup) : Posting Unit :=
  write (·.saveLockup position index l)

/-- The lockup of a deposit entry where the registrar looks it up. -/
def lookUp (registrar : Registrar) (position : String) (index : Int) : Posting (Option Lockup) :=
  match registrar.lockups with
  | .kept table => pure (table.get? (position, index))
  | .stored => read (·.lockup? position index)

/-- The lockup of a deposit entry, which must be known. -/
def findLockup (registrar : Registrar) (position : String) (index : Int) : Posting Lockup := do
  require (← lookUp registrar position index) (.unknownLockup position index)

theorem looks_loadPool (id : String) : (loadPool id).Looks :=
  (looks_read _).bind fun found => looks_require found _

theorem looks_loadPosition (id : String) : (loadPosition id).Looks :=
  (looks_read _).bind fun found => looks_require found _

theorem looks_lookUp (registrar : Registrar) (position : String) (index : Int) :
    (lookUp registrar position index).Looks := by
  unfold lookUp
  cases registrar.lockups with
  | kept table => exact looks_pure _
  | stored => exact looks_read _

theorem looks_findLockup (registrar : Registrar) (position : String) (index : Int) :
    (findLockup registrar position index).Looks :=
  (looks_lookUp registrar position index).bind fun found => looks_require found _

/-- Adds an empty pool of an unused id. -/
def addPool (id : String) (asOf : Int) : Posting Unit := do
  if (← read fun g => .ok (g.pools.get? id)).isSome then throw (.poolExists id)
  savePool id (.empty asOf)

/-- Creates an empty pool. -/
def createPool (id : String) (asOf : Int) : Posting Pool := do
  addPool id asOf
  pure (.empty asOf)

/-- The pool as it stands at a time. -/
def status (id : String) (time : Int) : Posting Pool := do
  check ((← loadPool id).rollForward time)

theorem looks_status (id : String) (time : Int) : (status id time).Looks :=
  (looks_loadPool id).bind fun _ => looks_check _

/-- Rolls a pool forward. -/
def rollForward (id : String) (time : Int) : Posting Pool := do
  let rolled ← check ((← loadPool id).rollForward time)
  savePool id rolled
  pure rolled

/-- Opens a position. -/
def openPosition (time : Int) (p : Position) (amount : Int) (l : Lockup) : Posting Pool := do
  if (← read fun g => .ok (g.positions.get? p.id)).isSome then throw (.positionExists p.id)
  let pool ← loadPool p.pool
  let pool ← check (pool.applyDelta time (Delta.stake p.rate.val amount))
  savePool p.pool pool
  savePosition p
  saveLockup p.id p.index l
  pure pool

/-- Closes a position with a known lockup. -/
def closeAt (id : String) (lockup : Lockup.View) (time amount : Int) : Posting Pool := do
  let p ← loadPosition id
  let closed ← check p.close
  let delta ← check (Service.Pools.closingDelta p lockup time amount)
  let pool ← check ((← loadPool p.pool).applyDelta time delta)
  savePool p.pool pool
  savePosition closed
  pure pool

/-- Closes a position. -/
def closePosition (registrar : Registrar) (id : String) (amount : Int) : Posting Pool := do
  let stored ← loadPosition id
  let _ ← check stored.close
  let l ← findLockup registrar id stored.index
  closeAt id l.view registrar.clock.now amount

/-- Stores a finalized position and its pool. -/
def store (p : Position) (f : Purge.Finalization) : Posting Unit := do
  savePool p.pool f.pool
  savePosition f.position

/-- Decides on a position with a known lockup and stores a finalization. -/
def decideAt (policy : Purge.Policy) (id : String) (lockup : Lockup.View) (time : Int) :
    Posting (Position × Purge.Decision) := do
  let p ← loadPosition id
  let pool ← loadPool p.pool
  let decision ← check (Purge.decision policy p pool lockup time)
  match decision with
  | .finalize f => store p f
  | .reschedule _ => pure ()
  pure (p, decision)

/-- Decides on a position whose purge trigger has fired and stores a finalization. -/
def process (registrar : Registrar) (policy : Purge.Policy) (id : String) :
    Posting (Position × Purge.Decision) := do
  let p ← loadPosition id
  let l ← findLockup registrar id p.index
  decideAt policy id l.view registrar.clock.now

/-- The ids of the open positions of a pool, which must exist. -/
def listed (pool : String) : Posting (List String) := do
  let _ ← loadPool pool
  pure ((← read (·.store.openPositions pool)).map (·.id))

theorem looks_listed (pool : String) : (listed pool).Looks :=
  (looks_loadPool pool).bind fun _ => (looks_read _).bind fun _ => looks_pure _

/-! ## What a posting that ends well has done -/

variable {g g' : Ledger} {id : String} {time amount : Int}

theorem run_loadPool_ok_iff {pool : Pool} :
    (loadPool id).run g = .ok (pool, g') ↔ g.pools.get? id = some pool ∧ g' = g := by
  simp only [loadPool, run_bind_ok_iff, run_read_ok_iff, run_require_ok_iff, Except.ok.injEq]
  constructor
  · rintro ⟨found, _, ⟨rfl, rfl⟩, hfound, rfl⟩
    exact ⟨hfound, rfl⟩
  · rintro ⟨hfound, rfl⟩
    exact ⟨_, _, ⟨rfl, rfl⟩, hfound, rfl⟩

theorem run_loadPosition_ok_iff {p : Position} :
    (loadPosition id).run g = .ok (p, g') ↔ g.positions.get? id = some p ∧ g' = g := by
  simp only [loadPosition, run_bind_ok_iff, run_read_ok_iff, run_require_ok_iff, Except.ok.injEq]
  constructor
  · rintro ⟨found, _, ⟨rfl, rfl⟩, hfound, rfl⟩
    exact ⟨hfound, rfl⟩
  · rintro ⟨hfound, rfl⟩
    exact ⟨_, _, ⟨rfl, rfl⟩, hfound, rfl⟩

theorem run_savePool_ok_iff {pool : Pool} {x : Unit} :
    (savePool id pool).run g = .ok (x, g') ↔
      Cell.fits pool.asOf = true ∧ g' = g.putPool id pool := by
  rw [savePool, run_write_ok_iff, Ledger.savePool_eq_ok_iff]

theorem run_savePosition_ok_iff {p : Position} {x : Unit} :
    (savePosition p).run g = .ok (x, g') ↔
      Store.checkPhase (g.positions.get? p.id) p = .ok () ∧ g' = g.putPosition p := by
  rw [savePosition, run_write_ok_iff, Ledger.savePosition_eq_ok_iff]

theorem run_saveLockup_ok_iff {index : Int} {l : Lockup} {x : Unit} :
    (saveLockup id index l).run g = .ok (x, g') ↔
      (Cell.fits index = true ∧ Cell.fits l.start = true ∧ Cell.fits l.stop = true) ∧
        g' = g.putLockup id index l := by
  rw [saveLockup, run_write_ok_iff, Ledger.saveLockup_eq_ok_iff]

/-- A lockup stands where the registrar looks it up. -/
def Finds (registrar : Registrar) (g : Ledger) (key : String × Int) (l : Lockup) : Prop :=
  match registrar.lockups with
  | .kept table => table.get? key = some l
  | .stored => g.lockups.get? key = some l

theorem finds_of_findLockup {registrar : Registrar} {index : Int} {l : Lockup}
    (h : (findLockup registrar id index).run g = .ok (l, g')) :
    Finds registrar g (id, index) l ∧ g' = g := by
  obtain ⟨found, g₁, hlookUp, hfound⟩ := run_bind_ok_iff.mp h
  obtain ⟨rfl, rfl⟩ := run_require_ok_iff.mp hfound
  unfold lookUp at hlookUp
  unfold Finds
  split at hlookUp
  · obtain ⟨hkept, hsame⟩ := run_pure_ok_iff.mp hlookUp
    exact ⟨hkept.symm, hsame⟩
  · obtain ⟨hstored, hsame⟩ := run_read_ok_iff.mp hlookUp
    unfold Ledger.lockup? at hstored
    cases hindex : Cell.ofInt index with
    | error fault => rw [hindex] at hstored; cases hstored
    | ok cell =>
      rw [hindex] at hstored
      exact ⟨Except.ok.inj hstored, hsame⟩

/-- A pool takes a delta, and a position of it a new state. -/
structure Exchange (g : Ledger) (time : Int) (delta : Delta) (p : Position) (g' : Ledger) :
    Prop where
  pools : ∃ pool changed, g.pools.get? p.pool = some pool ∧
    pool.applyDelta time delta = .ok changed ∧ g'.pools = g.pools.put p.pool changed
  positions : g'.positions = g.positions.put p.id p

theorem run_createPool_ok {asOf : Int} {pool : Pool}
    (h : (createPool id asOf).run g = .ok (pool, g')) :
    g.pools.get? id = none ∧ g' = g.putPool id (.empty asOf) := by
  obtain ⟨_, g₁, h, hpure⟩ := run_bind_ok_iff.mp h
  obtain ⟨-, rfl⟩ := run_pure_ok_iff.mp hpure
  obtain ⟨found, g₂, hread, h⟩ := run_bind_ok_iff.mp h
  obtain ⟨hfound, rfl⟩ := run_read_ok_iff.mp hread
  cases Except.ok.inj hfound
  dsimp only at h
  split at h
  · exact absurd h not_run_throw_bind
  · next hnone => exact ⟨by simpa using hnone, (run_savePool_ok_iff.mp h).2⟩

theorem run_rollForward_ok {pool : Pool} (h : (rollForward id time).run g = .ok (pool, g')) :
    ∃ before, g.pools.get? id = some before ∧ before.rollForward time = .ok pool ∧
      g' = g.putPool id pool := by
  simp only [rollForward, run_bind_ok_iff, run_loadPool_ok_iff, run_check_ok_iff,
    run_savePool_ok_iff, run_pure_ok_iff] at h
  obtain ⟨before, _, ⟨hbefore, rfl⟩, rolled, _, ⟨hroll, rfl⟩, _, _, ⟨-, rfl⟩, rfl, rfl⟩ := h
  exact ⟨before, hbefore, hroll, rfl⟩

/-- An opening adds a position of an unused id, with its rate and amount, and its lockup. -/
theorem exchange_of_open {p : Position} {l : Lockup} {pool : Pool}
    (h : (openPosition time p amount l).run g = .ok (pool, g')) :
    g.positions.get? p.id = none ∧ Exchange g time (Delta.stake p.rate.val amount) p g' ∧
      g'.lockups = g.lockups.put (p.id, p.index) l := by
  obtain ⟨found, g₁, hread, h⟩ := run_bind_ok_iff.mp h
  obtain ⟨hfound, rfl⟩ := run_read_ok_iff.mp hread
  cases Except.ok.inj hfound
  dsimp only at h
  split at h
  · exact absurd h not_run_throw_bind
  · next hnone =>
    simp only [run_bind_ok_iff, run_loadPool_ok_iff, run_check_ok_iff, run_savePool_ok_iff,
      run_savePosition_ok_iff, run_saveLockup_ok_iff, run_pure_ok_iff] at h
    obtain ⟨before, _, ⟨hbefore, rfl⟩, changed, _, ⟨hchanged, rfl⟩, _, _, ⟨-, rfl⟩, _, _,
      ⟨-, rfl⟩, _, _, ⟨-, rfl⟩, -, rfl⟩ := h
    exact ⟨by simpa using hnone, ⟨⟨before, changed, hbefore, hchanged, rfl⟩, rfl⟩, rfl⟩

/-- A closing takes the closing delta and closes a position that was not closed. -/
theorem exchange_of_close {registrar : Registrar} {pool : Pool}
    (h : (closePosition registrar id amount).run g = .ok (pool, g')) :
    ∃ p l delta, g.positions.get? id = some p ∧ p.phase ≠ .closed ∧
      Finds registrar g (id, p.index) l ∧
      Service.Pools.closingDelta p l.view registrar.clock.now amount = .ok delta ∧
      Exchange g registrar.clock.now delta { p with phase := .closed } g' ∧
      g'.lockups = g.lockups := by
  simp only [closePosition, closeAt, run_bind_ok_iff, run_loadPosition_ok_iff, run_check_ok_iff,
    run_loadPool_ok_iff, run_savePool_ok_iff, run_savePosition_ok_iff, run_pure_ok_iff] at h
  obtain ⟨p, _, ⟨hp, rfl⟩, closed, _, ⟨hclosed, rfl⟩, l, _, hl, p', _, ⟨hp', rfl⟩, closed', _,
    ⟨hclosed', rfl⟩, delta, _, ⟨hdelta, rfl⟩, before, _, ⟨hbefore, rfl⟩, changed, _,
    ⟨hchanged, rfl⟩, _, _, ⟨-, rfl⟩, _, _, ⟨-, rfl⟩, -, rfl⟩ := h
  -- the position is looked up again in the unit of work, and nothing has come between
  obtain ⟨hfinds, rfl⟩ := finds_of_findLockup hl
  cases Option.some.inj (hp.symm.trans hp')
  obtain ⟨hopen, rfl⟩ := Position.close_eq_ok_iff.mp hclosed'
  exact ⟨p, l, delta, hp, hopen, hfinds, hdelta,
    ⟨⟨before, changed, hbefore, hchanged, rfl⟩, rfl⟩, rfl⟩

/-- Processing takes the delta of a finalization and finalizes a running position, or nothing
happens. -/
theorem exchange_of_process {registrar : Registrar} {policy : Purge.Policy}
    {r : Position × Purge.Decision} (h : (process registrar policy id).run g = .ok (r, g')) :
    g' = g ∨ ∃ p l delta, g.positions.get? id = some p ∧ p.phase = .running ∧
      Finds registrar g (id, p.index) l ∧
      (policy.bypassExpiry = true ∨ l.isExpired registrar.clock.now = true) ∧
      Purge.expiredDelta p l.view registrar.clock.now = .ok delta ∧
      Exchange g registrar.clock.now delta { p with phase := .finalized } g' ∧
      g'.lockups = g.lockups := by
  simp only [process, decideAt, run_bind_ok_iff, run_loadPosition_ok_iff, run_check_ok_iff,
    run_loadPool_ok_iff] at h
  obtain ⟨p, _, ⟨hp, rfl⟩, l, _, hl, p', _, ⟨hp', rfl⟩, before, _, ⟨hbefore, rfl⟩, decision, _,
    ⟨hdecision, rfl⟩, h⟩ := h
  obtain ⟨hfinds, rfl⟩ := finds_of_findLockup hl
  cases Option.some.inj (hp.symm.trans hp')
  cases decision with
  | reschedule _ =>
    left
    exact (run_pure_ok_iff.mp h).2
  | finalize f =>
    right
    obtain ⟨hphase, hopen, hdelta, hchanged, hposition, -⟩ :=
      Purge.decision_eq_finalize_iff.mp hdecision
    simp only [store, run_bind_ok_iff, run_savePool_ok_iff, run_savePosition_ok_iff,
      run_pure_ok_iff] at h
    obtain ⟨_, _, ⟨_, _, ⟨-, rfl⟩, -, rfl⟩, -, rfl⟩ := h
    refine ⟨p, l, f.delta, hp, hphase, hfinds, hopen, hdelta, ⟨?_, ?_⟩, rfl⟩
    · exact ⟨before, f.pool, hbefore, hchanged, rfl⟩
    · rw [← hposition]
      rfl

end Posting

/-! ## Services perform postings -/

namespace Work

variable {ω α β : Type} {outside : ω} {work : Work ω α} {next : Unit → Work ω β} {t : Posting β}

variable {level : Int} {logger message : String} {extra : List (String × Json)}
  {trouble : Option Log.Trouble}

theorem Performs.logged (h : Performs outside (next ()) t) :
    Performs outside (emit level logger message extra trouble >>= next) t := by
  rw [← pure_bind () fun _ => t]
  exact (performs_emit level logger message extra trouble).bind_of_look
    (Posting.looks_pure ()) fun _ => h

theorem Carries.logged (h : Carries outside (next ()) t) :
    Carries outside (emit level logger message extra trouble >>= next) t := by
  rw [← pure_bind () fun _ => t]
  exact (performs_emit level logger message extra trouble).carries.bind fun _ => h

theorem performs_loadPool (id : String) :
    Performs outside (loadPool id) (Posting.loadPool id) := by
  refine (performs_readStore fun g => g.pool?_store id).bind_of_look (Posting.looks_read _)
    fun found => ?_
  exact performs_require (by rintro rfl; rfl) (by rintro _ rfl; rfl)

theorem performs_loadPosition (id : String) :
    Performs outside (loadPosition id) (Posting.loadPosition id) := by
  refine (performs_readStore fun g => g.position?_store id).bind_of_look (Posting.looks_read _)
    fun found => ?_
  exact performs_require (by rintro rfl; rfl) (by rintro _ rfl; rfl)

theorem carries_savePool (id : String) (pool : Pool) :
    Carries outside (savePool .readWrite id pool) (Posting.savePool id pool) := by
  rw [savePool, guard_readWrite, pure_bind]
  exact carries_writeStore fun g => g.savePool_store id pool

theorem carries_savePosition (p : Position) :
    Carries outside (savePosition .readWrite p) (Posting.savePosition p) := by
  rw [savePosition, guard_readWrite, pure_bind]
  exact carries_writeStore fun g => g.savePosition_store p

theorem carries_saveLockup (position : String) (index : Int) (l : Lockup) :
    Carries outside (saveLockup .readWrite position index l)
      (Posting.saveLockup position index l) := by
  rw [saveLockup, guard_readWrite, pure_bind]
  exact carries_writeStore fun g => g.saveLockup_store position index l

end Work

namespace Service

open Posting Work

variable {outside : Partners} {α : Type} {next : Int → Service α} {t : Posting α}

/-- The clock shows one time throughout. -/
theorem performs_now (h : Performs outside (next outside.registrar.clock.now) t) :
    Performs outside (now >>= next) t := by
  intro books g hbooks hstore
  obtain ⟨log, hrun⟩ := h books g hbooks hstore
  subst hbooks
  exact ⟨log, hrun⟩

theorem performs_createPool (id : String) (time : Option Int) :
    Performs outside (createPool id time)
      (Posting.createPool id (time.getD outside.registrar.clock.now)) := by
  have hunit : ∀ asOf, Performs outside (Work.unit do
      if (← readStore (·.pool? id)).isSome then throw (.poolExists id)
      Work.savePool .readWrite id (.empty asOf)) (addPool id asOf) := by
    intro asOf
    refine Carries.unit ?_
    refine (performs_readStore fun g => g.pool?_store id).carries.bind fun found => ?_
    dsimp only
    split
    · exact (performs_throw _).carries.bind fun _ => carries_savePool id _
    · exact carries_savePool id _
  cases time with
  | none => exact performs_now ((hunit _).bind_of_pure fun _ => Performs.logged (performs_pure _))
  | some asOf => exact (hunit asOf).bind_of_pure fun _ => Performs.logged (performs_pure _)

theorem performs_rollForward (id : String) :
    Performs outside (rollForward id)
      (Posting.rollForward id outside.registrar.clock.now) := by
  refine performs_now (Carries.unit (Carries.within _ ?_))
  refine (performs_loadPool id).carries.bind fun pool => ?_
  refine (performs_check _).carries.bind fun rolled => ?_
  refine (carries_savePool id rolled).bind fun _ => ?_
  exact (performs_pure rolled).carries.logged

theorem performs_openPosition (p : Position) (amount : Int) (l : Lockup) :
    Performs outside (openPosition p amount l)
      (Posting.openPosition outside.registrar.clock.now p amount l) := by
  have hopen : Carries outside (do
      let pool ← Work.loadPool p.pool
      let pool ← Work.check (pool.applyDelta outside.registrar.clock.now
        (Delta.stake p.rate.val amount))
      Work.savePool .readWrite p.pool pool
      Work.savePosition .readWrite p
      Work.saveLockup .readWrite p.id p.index l
      Pools.log "position_opened" [("fall_rate", .int p.rate.val), ("vehnt_amount", .int amount)]
      pure pool) (do
      let pool ← Posting.loadPool p.pool
      let pool ← Posting.check (pool.applyDelta outside.registrar.clock.now
        (Delta.stake p.rate.val amount))
      Posting.savePool p.pool pool
      Posting.savePosition p
      Posting.saveLockup p.id p.index l
      pure pool) := by
    refine (performs_loadPool p.pool).carries.bind fun pool => ?_
    refine (performs_check _).carries.bind fun changed => ?_
    refine (carries_savePool p.pool changed).bind fun _ => ?_
    refine (carries_savePosition p).bind fun _ => ?_
    refine (carries_saveLockup p.id p.index l).bind fun _ => ?_
    exact (performs_pure changed).carries.logged
  refine performs_now (Carries.unit (Carries.within _ ?_))
  refine (performs_readStore fun g => g.position?_store p.id).carries.bind fun found => ?_
  dsimp only
  split
  · exact (performs_throw _).carries.bind fun _ => hopen
  · exact hopen

theorem performs_closeAt (id : String) (lockup : Lockup.View) (time amount : Int) :
    Performs outside (closeAt id lockup time amount)
      (Posting.closeAt id lockup time amount) := by
  refine Carries.unit ?_
  refine (performs_loadPosition id).carries.bind fun p => Carries.within _ ?_
  refine (performs_check _).carries.bind fun closed => ?_
  refine (performs_check _).carries.bind fun delta => ?_
  refine (performs_loadPool p.pool).carries.bind fun pool => ?_
  refine (performs_check _).carries.bind fun changed => ?_
  refine (carries_savePool p.pool changed).bind fun _ => ?_
  refine (carries_savePosition closed).bind fun _ => ?_
  exact (performs_pure changed).carries.logged

theorem performs_lockup (position : String) (index : Int) :
    Performs outside (lockup position index)
      (findLockup outside.registrar position index) := by
  have hlookUp : Performs outside (lockup? position index)
      (lookUp outside.registrar position index) := by
    intro books g hbooks hstore
    subst hbooks
    unfold lockup? lookUp
    rw [runOn_bind, show (partners : Service Partners).runOn books =
      (.ok books.outside, books) from rfl]
    dsimp only
    cases books.outside.registrar.lockups with
    | kept table => exact performs_pure _ books g rfl hstore
    | stored =>
      exact (performs_readStore fun g => g.lockup?_store position index).carries.unit books g rfl
        hstore
  refine hlookUp.bind_of_look (looks_lookUp _ _ _) fun found => ?_
  exact performs_require (by rintro rfl; rfl) (by rintro _ rfl; rfl)

theorem performs_closePosition (id : String) (amount : Int) :
    Performs outside (closePosition id amount)
      (Posting.closePosition outside.registrar id amount) := by
  refine (performs_loadPosition id).carries.unit.bind_of_look (looks_loadPosition id) fun p => ?_
  refine (performs_check _).bind_of_look (looks_check _) fun closed => ?_
  refine (performs_lockup id p.index).bind_of_look (looks_findLockup _ _ _) fun l => ?_
  exact performs_now (performs_closeAt id l.view _ amount)

end Service

end StakeLedger
