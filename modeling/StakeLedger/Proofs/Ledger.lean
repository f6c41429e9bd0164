import StakeLedger.Proofs.Decay
import StakeLedger.Proofs.Numeral
import StakeLedger.Proofs.Tables
import StakeLedger.Store.Basic

/-
  Ledgers: what a store holds, as domain values.
  A ledger has the three tables of a store with values in the places of rows; `store` writes
  the rows. Every row so written is read back as the value that it came from
  (`read_written`, `read_ofPosition`), so a store that has been written by the services only
  is the store of a ledger, and looking up and saving can be followed on the ledger
  (`pool?_store` to `saveLockup_store`).
-/

namespace StakeLedger

/-! ## Rows -/

theorem Cell.ofInt_eq_ok_iff {n : Int} {cell : Cell} :
    Cell.ofInt n = .ok cell ↔ Cell.fits n = true ∧ cell = .int n := by
  unfold ofInt
  split
  · next h => simp [h, eq_comm]
  · next h => simp [h]

theorem Cell.fits_iff {n : Int} : fits n = true ↔ signedMin ≤ n ∧ n ≤ signedMax := by
  rw [fits, Bool.and_eq_true, decide_eq_true_iff, decide_eq_true_iff]

theorem Cell.flag_ofFlag (b : Bool) : (Cell.ofFlag b).flag = b := by
  cases b <;> decide

/-- A written amount is read back. -/
theorem Cell.readText_writeInt (a : Amount) : Cell.readText (Text.writeInt a.val) = .ok a.val := by
  have hfits : Text.fitsNumeral a.val = true := by
    have hnonneg := a.nonneg
    have hle := a.le_max
    simp only [amountMax] at hle
    exact Text.fitsNumeral_of_lt (by omega)
  rw [readText, Text.readInt_writeInt hfits]

/-- The row of a pool, whatever its time. -/
def PoolRow.written (pool : Pool) : PoolRow :=
  ⟨Text.writeInt pool.staked.val, Text.writeInt pool.rate.val, .int pool.asOf⟩

theorem PoolRow.ofPool_eq (pool : Pool) :
    PoolRow.ofPool pool = (Cell.ofInt pool.asOf).map fun _ => PoolRow.written pool := by
  unfold ofPool Cell.ofInt
  split <;> rfl

theorem PoolRow.read_written (pool : Pool) : (PoolRow.written pool).read = .ok pool := by
  have hmake : Pool.make pool.staked.val pool.rate.val pool.asOf = .ok pool := by
    unfold Pool.make
    rw [Amount.check_eq_ok_iff.mpr rfl, Amount.check_eq_ok_iff.mpr rfl]
    rfl
  unfold read written
  rw [Cell.readText_writeInt, Cell.readText_writeInt]
  exact hmake

theorem PositionRow.read_ofPosition (p : Position) : (ofPosition p).read p.id = .ok p := by
  have hflags : Phase.ofFlags? p.phase.isFinalized p.phase.isClosed = some p.phase := by
    cases p.phase <;> rfl
  have hmake : Position.make p.id p.pool p.index p.rate.val p.phase.isFinalized p.phase.isClosed =
      .ok p := by
    unfold Position.make
    rw [dif_pos p.index_in_range, Amount.check_eq_ok_iff.mpr rfl, hflags]
    rfl
  unfold read ofPosition
  rw [Cell.readText_writeInt, Cell.flag_ofFlag, Cell.flag_ofFlag]
  exact hmake

/-- The index of a deposit entry fits its column. -/
theorem Position.fits_index (p : Position) : Cell.fits p.index = true := by
  obtain ⟨hlow, hhigh⟩ := p.index_in_range
  simp only [indexMax] at hhigh
  simp only [Cell.fits_iff, signedMin, signedMax]
  omega

/-- The row of a lockup, whatever its times. -/
def LockupRow.written (l : Lockup) : LockupRow := ⟨l.kind.text, .int l.start, .int l.stop⟩

theorem LockupRow.read_written (l : Lockup) : (LockupRow.written l).read = .ok l := by
  have hkind : Lockup.Kind.read l.kind.text = .ok l.kind := by
    cases l.kind <;> rfl
  have hbetween : Lockup.between l.kind l.start l.stop = .ok l := by
    rw [Lockup.between, dif_pos l.start_le_stop]
  unfold read written
  rw [hkind]
  exact hbetween

/-- All stored positions, in the order in which they came in. -/
def Store.allPositions (s : Store) : Except Fault (List Position) :=
  s.positions.entries.mapM fun entry => entry.2.read entry.1

/-! ## The ledger of a store -/

/-- What a store holds, as domain values. -/
structure Ledger where
  pools : Table String Pool := {}
  positions : Table String Position := {}
  lockups : Table (String × Int) Lockup := {}
  ids_nodup : positions.keys.Nodup := by exact List.nodup_nil
  keyed : ∀ entry ∈ positions.entries, entry.2.id = entry.1 := by
    exact fun _ h => absurd h List.not_mem_nil

namespace Ledger

/-- The key of a lockup's row. -/
def lockupKey (key : String × Int) : LockupKey := (key.1, .int key.2)

theorem lockupKey_injective : Function.Injective lockupKey := by
  rintro ⟨position, index⟩ ⟨position', index'⟩ h
  simp only [lockupKey, Prod.mk.injEq, Cell.int.injEq] at h
  rw [h.1, h.2]

/-- The store of a ledger. -/
def store (g : Ledger) : Store where
  pools := g.pools.image id PoolRow.written
  positions := g.positions.image id PositionRow.ofPosition
  lockups := g.lockups.image lockupKey LockupRow.written

/-- The ledger with a pool put under a key. -/
def putPool (g : Ledger) (key : String) (pool : Pool) : Ledger :=
  { g with pools := g.pools.put key pool }

/-- The ledger with a lockup put under its deposit entry. -/
def putLockup (g : Ledger) (position : String) (index : Int) (l : Lockup) : Ledger :=
  { g with lockups := g.lockups.put (position, index) l }

/-- The ledger with a position put under its id. -/
def putPosition (g : Ledger) (p : Position) : Ledger where
  pools := g.pools
  positions := g.positions.put p.id p
  lockups := g.lockups
  ids_nodup := Table.nodup_keys_put g.ids_nodup
  keyed := by
    intro entry h
    rcases Table.mem_put h with rfl | hmem
    · rfl
    · exact g.keyed entry hmem

@[simp] theorem get?_pools_putPool (g : Ledger) (key id : String) (pool : Pool) :
    (g.putPool key pool).pools.get? id = if id = key then some pool else g.pools.get? id :=
  Table.get?_put g.pools key id pool

/-- Saves a pool. -/
def savePool (g : Ledger) (id : String) (pool : Pool) : Except Fault Ledger :=
  (Cell.ofInt pool.asOf).map fun _ => g.putPool id pool

/-- Saves a position. -/
def savePosition (g : Ledger) (p : Position) : Except Fault Ledger :=
  (Store.checkPhase (g.positions.get? p.id) p).map fun _ => g.putPosition p

/-- Saves the lockup of a deposit entry. -/
def saveLockup (g : Ledger) (position : String) (index : Int) (l : Lockup) :
    Except Fault Ledger := do
  let _ ← Cell.ofInt index
  let _ ← Cell.ofInt l.start
  let _ ← Cell.ofInt l.stop
  pure (g.putLockup position index l)

/-- The lockup of a deposit entry, if there is one. -/
def lockup? (g : Ledger) (position : String) (index : Int) : Except Fault (Option Lockup) :=
  (Cell.ofInt index).map fun _ => g.lockups.get? (position, index)

theorem savePool_eq_ok_iff {g g' : Ledger} {key : String} {pool : Pool} :
    g.savePool key pool = .ok g' ↔
      Cell.fits pool.asOf = true ∧ g' = g.putPool key pool := by
  unfold savePool Cell.ofInt
  split
  · next h => simp [Except.map, h, eq_comm]
  · next h => simp [Except.map, h]

theorem savePosition_eq_ok_iff {g g' : Ledger} {p : Position} :
    g.savePosition p = .ok g' ↔
      Store.checkPhase (g.positions.get? p.id) p = .ok () ∧ g' = g.putPosition p := by
  unfold savePosition
  cases h : Store.checkPhase (g.positions.get? p.id) p with
  | error fault => simp [Except.map]
  | ok u => simp [Except.map, eq_comm]

theorem saveLockup_eq_ok_iff {g g' : Ledger} {position : String} {index : Int} {l : Lockup} :
    g.saveLockup position index l = .ok g' ↔
      (Cell.fits index = true ∧ Cell.fits l.start = true ∧ Cell.fits l.stop = true) ∧
        g' = g.putLockup position index l := by
  unfold saveLockup
  simp only [bind_eq_ok_iff, Cell.ofInt_eq_ok_iff, pure, Except.pure, Except.ok.injEq]
  constructor
  · rintro ⟨_, ⟨hindex, -⟩, _, ⟨hstart, -⟩, _, ⟨hstop, -⟩, rfl⟩
    exact ⟨⟨hindex, hstart, hstop⟩, rfl⟩
  · rintro ⟨⟨hindex, hstart, hstop⟩, rfl⟩
    exact ⟨_, ⟨hindex, rfl⟩, _, ⟨hstart, rfl⟩, _, ⟨hstop, rfl⟩, rfl⟩

theorem id_of_get? {g : Ledger} {id : String} {p : Position} (h : g.positions.get? id = some p) :
    p.id = id :=
  g.keyed _ (Table.mem_of_get? h)

/-! ### Looking up -/

theorem get?_pools_store (g : Ledger) (id : String) :
    g.store.pools.get? id = (g.pools.get? id).map PoolRow.written :=
  Table.get?_image Function.injective_id PoolRow.written g.pools id

theorem get?_positions_store (g : Ledger) (id : String) :
    g.store.positions.get? id = (g.positions.get? id).map PositionRow.ofPosition :=
  Table.get?_image Function.injective_id PositionRow.ofPosition g.positions id

theorem get?_lockups_store (g : Ledger) (key : String × Int) :
    g.store.lockups.get? (lockupKey key) = (g.lockups.get? key).map LockupRow.written :=
  Table.get?_image lockupKey_injective LockupRow.written g.lockups key

theorem pool?_store (g : Ledger) (key : String) :
    g.store.pool? key = .ok (g.pools.get? key) := by
  rw [Store.pool?, get?_pools_store]
  cases g.pools.get? key with
  | none => rfl
  | some pool =>
    show (some <$> (PoolRow.written pool).read) = _
    rw [PoolRow.read_written]
    rfl

theorem position?_store (g : Ledger) (key : String) :
    g.store.position? key = .ok (g.positions.get? key) := by
  rw [Store.position?, get?_positions_store]
  cases hp : g.positions.get? key with
  | none => rfl
  | some p =>
    have hread := PositionRow.read_ofPosition p
    rw [id_of_get? hp] at hread
    show (some <$> (PositionRow.ofPosition p).read key) = _
    rw [hread]
    rfl

theorem lockup?_store (g : Ledger) (position : String) (index : Int) :
    g.store.lockup? position index = g.lockup? position index := by
  have hrow := g.get?_lockups_store (position, index)
  unfold Store.lockup? lockup?
  cases hindex : Cell.ofInt index with
  | error fault => rfl
  | ok cell =>
    obtain ⟨-, rfl⟩ := Cell.ofInt_eq_ok_iff.mp hindex
    show (g.store.lockups.get? (lockupKey (position, index))).mapM LockupRow.read =
      .ok (g.lockups.get? (position, index))
    rw [hrow]
    cases g.lockups.get? (position, index) with
    | none => rfl
    | some l =>
      show (some <$> (LockupRow.written l).read) = _
      rw [LockupRow.read_written]
      rfl

/-- All positions of a store are read. -/
theorem allPositions_store (g : Ledger) :
    g.store.allPositions = .ok (g.positions.entries.map (·.2)) := by
  have hkeyed := g.keyed
  unfold Store.allPositions store Table.image
  dsimp only
  revert hkeyed
  induction g.positions.entries with
  | nil => exact fun _ => rfl
  | cons entry rest ih =>
    intro hkeyed
    have hread := PositionRow.read_ofPosition entry.2
    rw [hkeyed entry List.mem_cons_self] at hread
    have hrest := ih fun other hother => hkeyed other (List.mem_cons_of_mem entry hother)
    rw [List.map_cons, List.mapM_cons, hrest]
    show ((PositionRow.ofPosition entry.2).read entry.1 >>= _) = _
    rw [hread]
    rfl

/-! ### Saving -/

theorem savePool_store (g : Ledger) (key : String) (pool : Pool) :
    g.store.savePool key pool = (g.savePool key pool).map store := by
  unfold Store.savePool savePool
  rw [PoolRow.ofPool_eq]
  cases Cell.ofInt pool.asOf with
  | error fault => rfl
  | ok cell =>
    have hput : g.store.pools.put key (PoolRow.written pool) =
        (g.pools.put key pool).image id PoolRow.written :=
      Table.put_image Function.injective_id PoolRow.written g.pools key pool
    show Except.ok { g.store with pools := g.store.pools.put key (PoolRow.written pool) } = _
    rw [hput]
    rfl

theorem savePosition_store (g : Ledger) (p : Position) :
    g.store.savePosition p = (g.savePosition p).map store := by
  unfold Store.savePosition savePosition
  rw [position?_store]
  show (Store.checkPhase (g.positions.get? p.id) p >>= _) = _
  cases Store.checkPhase (g.positions.get? p.id) p with
  | error fault => rfl
  | ok u =>
    have hput : g.store.positions.put p.id (PositionRow.ofPosition p) =
        (g.positions.put p.id p).image id PositionRow.ofPosition :=
      Table.put_image Function.injective_id PositionRow.ofPosition g.positions p.id p
    show Except.ok { g.store with
      positions := g.store.positions.put p.id (PositionRow.ofPosition p) } = _
    rw [hput]
    rfl

theorem saveLockup_store (g : Ledger) (position : String) (index : Int) (l : Lockup) :
    g.store.saveLockup position index l = (g.saveLockup position index l).map store := by
  unfold Store.saveLockup saveLockup LockupRow.ofLockup
  cases hindex : Cell.ofInt index with
  | error fault => rfl
  | ok cell =>
    obtain ⟨-, rfl⟩ := Cell.ofInt_eq_ok_iff.mp hindex
    cases hstart : Cell.ofInt l.start with
    | error fault => rfl
    | ok start =>
      obtain ⟨-, rfl⟩ := Cell.ofInt_eq_ok_iff.mp hstart
      cases hstop : Cell.ofInt l.stop with
      | error fault => rfl
      | ok stop =>
        obtain ⟨-, rfl⟩ := Cell.ofInt_eq_ok_iff.mp hstop
        have hput : g.store.lockups.put (position, .int index) (LockupRow.written l) =
            (g.lockups.put (position, index) l).image lockupKey LockupRow.written :=
          Table.put_image lockupKey_injective LockupRow.written g.lockups (position, index) l
        show Except.ok { g.store with
          lockups := g.store.lockups.put (position, .int index) (LockupRow.written l) } = _
        rw [hput]
        rfl

end Ledger

end StakeLedger
