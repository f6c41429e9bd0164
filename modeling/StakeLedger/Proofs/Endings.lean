import StakeLedger.Proofs.Ledger
import StakeLedger.Work

/-
  How work ends, whatever rows the books hold.
  Work that ends well is taken apart into its parts: one equivalence a combinator says what the
  part has found and which books it leaves (`runOn_bind_ok_iff` to `runOn_saveLockup_ok_iff`).
  Work that fails is followed by what it leaves alone: work on the store only (`OnStore`) gives
  everything back at a fault once it is a unit (`OnStore.unit`), and what comes before the unit
  only reads (`ReadsOnly`).
-/

namespace StakeLedger

/-! ## Rows put into a store -/

namespace Store

variable {s s' : Store} {id : String}

/-- The store with the row of a pool put. -/
def putPool (s : Store) (id : String) (pool : Pool) : Store :=
  { s with pools := s.pools.put id (PoolRow.written pool) }

/-- The store with the row of a position put. -/
def putPosition (s : Store) (p : Position) : Store :=
  { s with positions := s.positions.put p.id (PositionRow.ofPosition p) }

/-- The store with the row of a lockup put. -/
def putLockup (s : Store) (position : String) (index : Int) (l : Lockup) : Store :=
  { s with lockups := s.lockups.put (position, .int index) (LockupRow.written l) }

theorem savePool_eq_ok_iff {pool : Pool} :
    s.savePool id pool = .ok s' ↔ Cell.fits pool.asOf = true ∧ s' = s.putPool id pool := by
  unfold savePool
  rw [PoolRow.ofPool_eq]
  unfold Cell.ofInt
  split
  · next h => simp [Except.map, bind, Except.bind, pure, Except.pure, putPool, h, eq_comm]
  · next h => simp [Except.map, bind, Except.bind, h]

theorem savePosition_eq_ok_iff {p : Position} :
    s.savePosition p = .ok s' ↔
      (∃ earlier, s.position? p.id = .ok earlier ∧ checkPhase earlier p = .ok ()) ∧
        s' = s.putPosition p := by
  unfold savePosition
  simp only [bind_eq_ok_iff, pure, Except.pure, Except.ok.injEq]
  constructor
  · rintro ⟨earlier, hearlier, _, hphase, rfl⟩
    exact ⟨⟨earlier, hearlier, hphase⟩, rfl⟩
  · rintro ⟨⟨earlier, hearlier, hphase⟩, rfl⟩
    exact ⟨earlier, hearlier, (), hphase, rfl⟩

theorem saveLockup_eq_ok_iff {index : Int} {l : Lockup} :
    s.saveLockup id index l = .ok s' ↔
      (Cell.fits index = true ∧ Cell.fits l.start = true ∧ Cell.fits l.stop = true) ∧
        s' = s.putLockup id index l := by
  unfold saveLockup LockupRow.ofLockup
  simp only [bind_eq_ok_iff, Cell.ofInt_eq_ok_iff, pure, Except.pure, Except.ok.injEq]
  constructor
  · rintro ⟨_, ⟨hindex, rfl⟩, _, ⟨_, ⟨hstart, rfl⟩, _, ⟨hstop, rfl⟩, rfl⟩, rfl⟩
    exact ⟨⟨hindex, hstart, hstop⟩, rfl⟩
  · rintro ⟨⟨hindex, hstart, hstop⟩, rfl⟩
    exact ⟨_, ⟨hindex, rfl⟩, _, ⟨_, ⟨hstart, rfl⟩, _, ⟨hstop, rfl⟩, rfl⟩, rfl⟩

/-- No pool is found where there is no row, and nowhere else. -/
theorem pool?_eq_none_iff : s.pool? id = .ok none ↔ s.pools.get? id = none := by
  unfold pool?
  cases s.pools.get? id with
  | none => exact iff_of_true rfl rfl
  | some row =>
    show (some <$> row.read) = .ok none ↔ _
    cases row.read <;> simp [Functor.map, Except.map]

/-- No position is found where there is no row, and nowhere else. -/
theorem position?_eq_none_iff : s.position? id = .ok none ↔ s.positions.get? id = none := by
  unfold position?
  cases s.positions.get? id with
  | none => exact iff_of_true rfl rfl
  | some row =>
    show (some <$> row.read id) = .ok none ↔ _
    cases row.read id <;> simp [Functor.map, Except.map]

/-- A position is found under its own id. -/
theorem id_of_position? {p : Position} (h : s.position? id = .ok (some p)) : p.id = id := by
  unfold position? at h
  cases hrow : s.positions.get? id with
  | none => rw [hrow] at h; cases h
  | some row =>
    rw [hrow] at h
    have hread : row.read id = .ok p := by
      change (some <$> row.read id) = .ok (some p) at h
      cases hr : row.read id with
      | error fault => rw [hr] at h; cases h
      | ok q => rw [hr] at h; cases h; rfl
    unfold PositionRow.read Position.make at hread
    obtain ⟨index, -, hread⟩ := bind_eq_ok_iff.mp hread
    obtain ⟨rate, -, hread⟩ := bind_eq_ok_iff.mp hread
    split at hread
    · obtain ⟨amount, -, hread⟩ := bind_eq_ok_iff.mp hread
      split at hread
      · cases hread
        rfl
      · cases hread
    · cases hread

/-- What is put is read back. -/
theorem pool?_putPool (s : Store) (id : String) (pool : Pool) :
    (s.putPool id pool).pool? id = .ok (some pool) := by
  have hrow : (s.putPool id pool).pools.get? id = some (PoolRow.written pool) := by
    rw [putPool, Table.get?_put, if_pos rfl]
  rw [pool?, hrow]
  show (some <$> (PoolRow.written pool).read) = _
  rw [PoolRow.read_written]
  rfl

theorem position?_putPosition (s : Store) (p : Position) :
    (s.putPosition p).position? p.id = .ok (some p) := by
  have hrow : (s.putPosition p).positions.get? p.id = some (PositionRow.ofPosition p) := by
    rw [putPosition, Table.get?_put, if_pos rfl]
  rw [position?, hrow]
  show (some <$> (PositionRow.ofPosition p).read p.id) = _
  rw [PositionRow.read_ofPosition]
  rfl

/-- Under other keys the same is read as before. -/
theorem pool?_putPool_of_ne {key : String} (h : id ≠ key) (s : Store) (pool : Pool) :
    (s.putPool key pool).pool? id = s.pool? id := by
  unfold pool? putPool
  rw [Table.get?_put, if_neg h]

theorem position?_putPosition_of_ne {p : Position} (h : id ≠ p.id) (s : Store) :
    (s.putPosition p).position? id = s.position? id := by
  unfold position? putPosition
  rw [Table.get?_put, if_neg h]

/-- A position that is put in another phase is read back in it. -/
theorem position?_putPosition_phase {s s' : Store} {p : Position} {phase : Phase}
    (h : s.position? id = .ok (some p)) :
    (s'.putPosition { p with phase := phase }).position? id =
      .ok (some { p with phase := phase }) := by
  obtain rfl := id_of_position? h
  exact position?_putPosition s' { p with phase := phase }

end Store

namespace Work

variable {ω α β : Type} {work : Work ω α} {next : α → Work ω β} {books after : Books ω} {a : α}
  {b : β} {fault : Fault} {id : String} {u : Unit}

/-! ## Work that ends well -/

theorem runOn_pure_ok_iff {x : α} :
    (pure a : Work ω α).runOn books = (.ok x, after) ↔ x = a ∧ after = books := by
  simp [eq_comm]

theorem runOn_throw_ok_iff :
    (throw fault : Work ω α).runOn books = (.ok a, after) ↔ False := by
  simp

theorem runOn_bind_ok_iff :
    (work >>= next).runOn books = (.ok b, after) ↔
      ∃ a mid, work.runOn books = (.ok a, mid) ∧ (next a).runOn mid = (.ok b, after) := by
  rw [runOn_bind]
  rcases hrun : work.runOn books with ⟨result, mid⟩
  cases result with
  | error fault => simp
  | ok x => simp

theorem runOn_bind_pure (work : Work ω α) (f : α → β) (books : Books ω) :
    (work >>= fun a => pure (f a)).runOn books =
      ((work.runOn books).1.map f, (work.runOn books).2) := by
  rw [runOn_bind]
  rcases work.runOn books with ⟨result, mid⟩
  cases result <;> rfl

theorem not_runOn_throw_bind {rest : β → Work ω α} :
    ¬ ((throw fault : Work ω β) >>= rest).runOn books = (.ok a, after) := by
  rw [runOn_bind_ok_iff]
  rintro ⟨_, _, h, -⟩
  exact runOn_throw_ok_iff.mp h

theorem runOn_check_ok_iff {r : Except Fault α} :
    (check r).runOn books = (.ok a, after) ↔ r = .ok a ∧ after = books := by
  simp [check, eq_comm]

theorem runOn_readStore_ok_iff {f : Store → Except Fault α} :
    (readStore f).runOn books = (.ok a, after) ↔ f books.store = .ok a ∧ after = books := by
  show (f books.store, books) = (.ok a, after) ↔ _
  rw [Prod.mk.injEq, eq_comm (a := books)]

theorem runOn_writeStore_ok_iff {f : Store → Except Fault Store} :
    (writeStore f).runOn books = (.ok u, after) ↔
      ∃ s, f books.store = .ok s ∧ after = { books with store := s } := by
  rw [writeStore, runOn_bind_ok_iff]
  constructor
  · rintro ⟨s, _, hread, hwrite⟩
    obtain ⟨hs, rfl⟩ := runOn_readStore_ok_iff.mp hread
    exact ⟨s, hs, (Prod.mk.inj hwrite).2.symm⟩
  · rintro ⟨s, hs, rfl⟩
    exact ⟨s, books, runOn_readStore_ok_iff.mpr ⟨hs, rfl⟩, rfl⟩

theorem runOn_emit_ok_iff {level : Int} {logger message : String} {extra : List (String × Json)}
    {trouble : Option Log.Trouble} :
    (emit level logger message extra trouble).runOn books = (.ok u, after) ↔
      after = { books with
        log := books.log ++ [⟨level, logger, message, extra, books.context, trouble⟩] } := by
  show (Except.ok (), _) = (.ok u, after) ↔ _
  rw [Prod.mk.injEq]
  exact ⟨fun h => h.2.symm, fun h => ⟨rfl, h.symm⟩⟩

theorem runOn_within_ok_iff {frame : Log.Context} :
    (within frame work).runOn books = (.ok a, after) ↔
      ∃ inner, work.runOn { books with context := books.context.bind frame } = (.ok a, inner) ∧
        after = { inner with context := books.context.leave frame inner.context } := by
  unfold within
  rw [runOn_ofRun]
  rcases work.runOn { books with context := books.context.bind frame } with ⟨result, inner⟩
  simp [eq_comm]

theorem runOn_unit_ok_iff :
    (unit work).runOn books = (.ok a, after) ↔ work.runOn books = (.ok a, after) := by
  unfold unit
  rw [runOn_ofRun]
  rcases work.runOn books with ⟨result, inner⟩
  cases result <;> simp

theorem runOn_loadPool_ok_iff {pool : Pool} :
    (loadPool id).runOn books = (.ok pool, after) ↔
      books.store.pool? id = .ok (some pool) ∧ after = books := by
  simp only [loadPool, runOn_bind_ok_iff, runOn_readStore_ok_iff]
  constructor
  · rintro ⟨found, _, ⟨hfound, rfl⟩, h⟩
    cases found with
    | none => exact absurd h (by simp)
    | some pool' =>
      obtain ⟨rfl, rfl⟩ := runOn_pure_ok_iff.mp h
      exact ⟨hfound, rfl⟩
  · rintro ⟨hfound, rfl⟩
    exact ⟨_, _, ⟨hfound, rfl⟩, rfl⟩

theorem runOn_loadPosition_ok_iff {p : Position} :
    (loadPosition id).runOn books = (.ok p, after) ↔
      books.store.position? id = .ok (some p) ∧ after = books := by
  simp only [loadPosition, runOn_bind_ok_iff, runOn_readStore_ok_iff]
  constructor
  · rintro ⟨found, _, ⟨hfound, rfl⟩, h⟩
    cases found with
    | none => exact absurd h (by simp)
    | some q =>
      obtain ⟨rfl, rfl⟩ := runOn_pure_ok_iff.mp h
      exact ⟨hfound, rfl⟩
  · rintro ⟨hfound, rfl⟩
    exact ⟨_, _, ⟨hfound, rfl⟩, rfl⟩

/-- A unit of work that may write is not stopped from it. -/
theorem guard_readWrite (table : TableName) :
    (Access.guard .readWrite table : Work ω Unit) = pure () := rfl

theorem runOn_savePool_ok_iff {pool : Pool} :
    (savePool .readWrite id pool).runOn books = (.ok u, after) ↔
      Cell.fits pool.asOf = true ∧ after = { books with store := books.store.putPool id pool } := by
  rw [savePool, guard_readWrite, pure_bind, runOn_writeStore_ok_iff]
  simp only [Store.savePool_eq_ok_iff]
  constructor
  · rintro ⟨_, ⟨hfits, rfl⟩, rfl⟩
    exact ⟨hfits, rfl⟩
  · rintro ⟨hfits, rfl⟩
    exact ⟨_, ⟨hfits, rfl⟩, rfl⟩

theorem runOn_savePosition_ok_iff {p : Position} :
    (savePosition .readWrite p).runOn books = (.ok u, after) ↔
      (∃ earlier, books.store.position? p.id = .ok earlier ∧
        Store.checkPhase earlier p = .ok ()) ∧
        after = { books with store := books.store.putPosition p } := by
  rw [savePosition, guard_readWrite, pure_bind, runOn_writeStore_ok_iff]
  simp only [Store.savePosition_eq_ok_iff]
  constructor
  · rintro ⟨_, ⟨hphase, rfl⟩, rfl⟩
    exact ⟨hphase, rfl⟩
  · rintro ⟨hphase, rfl⟩
    exact ⟨_, ⟨hphase, rfl⟩, rfl⟩

theorem runOn_saveLockup_ok_iff {index : Int} {l : Lockup} :
    (saveLockup .readWrite id index l).runOn books = (.ok u, after) ↔
      (Cell.fits index = true ∧ Cell.fits l.start = true ∧ Cell.fits l.stop = true) ∧
        after = { books with store := books.store.putLockup id index l } := by
  rw [saveLockup, guard_readWrite, pure_bind, runOn_writeStore_ok_iff]
  simp only [Store.saveLockup_eq_ok_iff]
  constructor
  · rintro ⟨_, ⟨hfits, rfl⟩, rfl⟩
    exact ⟨hfits, rfl⟩
  · rintro ⟨hfits, rfl⟩
    exact ⟨_, ⟨hfits, rfl⟩, rfl⟩

/-! ## What work leaves alone -/

/-- The work touches nothing but store, log and context, whether it fails or not. -/
def OnStore (work : Work ω α) : Prop := ∀ books, (work.runOn books).2.outside = books.outside

/-- The work leaves the store alone, whether it fails or not. -/
def OffStore (work : Work ω α) : Prop := ∀ books, (work.runOn books).2.store = books.store

/-- The work touches nothing but log and context, whether it fails or not. -/
def ReadsOnly (work : Work ω α) : Prop :=
  ∀ books, (work.runOn books).2.store = books.store ∧
    (work.runOn books).2.outside = books.outside

/-- The work touches nothing but log and context if it fails. -/
def Restores (work : Work ω α) : Prop :=
  ∀ books fault after, work.runOn books = (.error fault, after) →
    after.store = books.store ∧ after.outside = books.outside

theorem readsOnly_pure (a : α) : ReadsOnly (pure a : Work ω α) := fun _ => ⟨rfl, rfl⟩

theorem readsOnly_throw (fault : Fault) : ReadsOnly (throw fault : Work ω α) := fun _ => ⟨rfl, rfl⟩

theorem readsOnly_check (r : Except Fault α) : ReadsOnly (check r : Work ω α) := fun _ => ⟨rfl, rfl⟩

theorem readsOnly_readStore (f : Store → Except Fault α) : ReadsOnly (readStore f : Work ω α) :=
  fun _ => ⟨rfl, rfl⟩

theorem readsOnly_emit (level : Int) (logger message : String) (extra : List (String × Json))
    (trouble : Option Log.Trouble) :
    ReadsOnly (emit level logger message extra trouble : Work ω Unit) := fun _ => ⟨rfl, rfl⟩

theorem ReadsOnly.bind (h : ReadsOnly work) (hnext : ∀ a, ReadsOnly (next a)) :
    ReadsOnly (work >>= next) := by
  intro books
  obtain ⟨hstore, houtside⟩ := h books
  rw [runOn_bind]
  rcases hrun : work.runOn books with ⟨result, mid⟩
  rw [hrun] at hstore houtside
  cases result with
  | error fault => exact ⟨hstore, houtside⟩
  | ok a =>
    obtain ⟨hstore', houtside'⟩ := hnext a mid
    exact ⟨hstore'.trans hstore, houtside'.trans houtside⟩

theorem ReadsOnly.within (frame : Log.Context) (h : ReadsOnly work) :
    ReadsOnly (within frame work) :=
  fun books => h { books with context := books.context.bind frame }

theorem ReadsOnly.unit (h : ReadsOnly work) : ReadsOnly (unit work) := by
  intro books
  obtain ⟨hstore, houtside⟩ := h books
  unfold Work.unit
  rw [runOn_ofRun]
  rcases hrun : work.runOn books with ⟨result, mid⟩
  rw [hrun] at hstore houtside
  cases result with
  | error fault => exact ⟨rfl, houtside⟩
  | ok a => exact ⟨hstore, houtside⟩

theorem ReadsOnly.of_runOn (h : ReadsOnly work) {r : Except Fault α}
    (hrun : work.runOn books = (r, after)) :
    after.store = books.store ∧ after.outside = books.outside := by
  have hbooks := h books
  rw [hrun] at hbooks
  exact hbooks

theorem ReadsOnly.onStore (h : ReadsOnly work) : OnStore work := fun books => (h books).2

theorem ReadsOnly.restores (h : ReadsOnly work) : Restores work := by
  intro books fault after hrun
  exact h.of_runOn hrun

theorem readsOnly_loadPool (id : String) : ReadsOnly (loadPool id : Work ω Pool) := by
  refine (readsOnly_readStore _).bind fun found => ?_
  cases found with
  | none => exact readsOnly_throw _
  | some pool => exact readsOnly_pure pool

theorem readsOnly_loadPosition (id : String) : ReadsOnly (loadPosition id : Work ω Position) := by
  refine (readsOnly_readStore _).bind fun found => ?_
  cases found with
  | none => exact readsOnly_throw _
  | some p => exact readsOnly_pure p

theorem OnStore.bind (h : OnStore work) (hnext : ∀ a, OnStore (next a)) :
    OnStore (work >>= next) := by
  intro books
  have houtside := h books
  rw [runOn_bind]
  rcases hrun : work.runOn books with ⟨result, mid⟩
  rw [hrun] at houtside
  cases result with
  | error fault => exact houtside
  | ok a => exact (hnext a mid).trans houtside

theorem OnStore.within (frame : Log.Context) (h : OnStore work) : OnStore (within frame work) :=
  fun books => h { books with context := books.context.bind frame }

theorem onStore_writeStore (f : Store → Except Fault Store) :
    OnStore (writeStore f : Work ω Unit) :=
  (readsOnly_readStore f).onStore.bind fun _ _ => rfl

theorem onStore_savePool (id : String) (pool : Pool) :
    OnStore (savePool .readWrite id pool : Work ω Unit) := by
  rw [savePool, guard_readWrite, pure_bind]
  exact onStore_writeStore _

theorem onStore_savePosition (p : Position) :
    OnStore (savePosition .readWrite p : Work ω Unit) := by
  rw [savePosition, guard_readWrite, pure_bind]
  exact onStore_writeStore _

theorem onStore_saveLockup (position : String) (index : Int) (l : Lockup) :
    OnStore (saveLockup .readWrite position index l : Work ω Unit) := by
  rw [saveLockup, guard_readWrite, pure_bind]
  exact onStore_writeStore _

theorem OffStore.bind (h : OffStore work) (hnext : ∀ a, OffStore (next a)) :
    OffStore (work >>= next) := by
  intro books
  have hstore := h books
  rw [runOn_bind]
  rcases hrun : work.runOn books with ⟨result, mid⟩
  rw [hrun] at hstore
  cases result with
  | error fault => exact hstore
  | ok a => exact (hnext a mid).trans hstore

theorem OffStore.within (frame : Log.Context) (h : OffStore work) :
    OffStore (within frame work) :=
  fun books => h { books with context := books.context.bind frame }

theorem OffStore.of_runOn (h : OffStore work) {r : Except Fault α}
    (hrun : work.runOn books = (r, after)) : after.store = books.store := by
  have hstore := h books
  rw [hrun] at hstore
  exact hstore

theorem ReadsOnly.offStore (h : ReadsOnly work) : OffStore work := fun books => (h books).1

/-- A unit of work on the store restores what it fails on. -/
theorem OnStore.unit (h : OnStore work) : Restores (unit work) := by
  intro books fault after hrun
  have houtside := h books
  unfold Work.unit at hrun
  rw [runOn_ofRun] at hrun
  rcases hwork : work.runOn books with ⟨result, mid⟩
  rw [hwork] at hrun houtside
  cases result with
  | ok a => cases hrun
  | error fault' =>
    obtain ⟨-, rfl⟩ := Prod.mk.inj hrun
    exact ⟨rfl, houtside⟩

theorem Restores.bind_of_readsOnly (h : ReadsOnly work) (hnext : ∀ a, Restores (next a)) :
    Restores (work >>= next) := by
  intro books fault after hrun
  obtain ⟨hstore, houtside⟩ := h books
  rw [runOn_bind] at hrun
  rcases hwork : work.runOn books with ⟨result, mid⟩
  rw [hwork] at hrun hstore houtside
  cases result with
  | error fault' =>
    obtain ⟨-, rfl⟩ := Prod.mk.inj hrun
    exact ⟨hstore, houtside⟩
  | ok a =>
    obtain ⟨hstore', houtside'⟩ := hnext a mid fault after hrun
    exact ⟨hstore'.trans hstore, houtside'.trans houtside⟩

/-- What follows cannot fail. -/
theorem Restores.bind_of_total (h : Restores work)
    (hnext : ∀ a mid fault after, (next a).runOn mid ≠ (.error fault, after)) :
    Restores (work >>= next) := by
  intro books fault after hrun
  rw [runOn_bind] at hrun
  rcases hwork : work.runOn books with ⟨result, mid⟩
  rw [hwork] at hrun
  cases result with
  | error fault' =>
    obtain ⟨-, rfl⟩ := Prod.mk.inj hrun
    exact h books fault' mid hwork
  | ok a => exact absurd hrun (hnext a mid fault after)

end Work

end StakeLedger
