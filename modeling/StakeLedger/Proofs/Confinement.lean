import StakeLedger.Proofs.Sweeps

/-
  What belongs to one pool.
  Each id of a position is assigned to a pool, its home, and positions are opened there only
  (`Ledger.Housed`). Two ledgers are alike for a pool if they have the same row for it and the same
  rows of the positions and lockups assigned to it; the rest of them may differ. A posting on the
  pool or on its positions does the same on both (`Posting.Matches`), and one on other pools or
  positions may be left out on either (`Ledger.Alike.of_exchange`). Rounds of visits follow from
  the visits.
-/

namespace StakeLedger

variable {home : String → String} {own : String}

/-- Every position is in the pool that its id is assigned to. -/
def Ledger.Housed (home : String → String) (g : Ledger) : Prop :=
  ∀ id p, g.positions.get? id = some p → p.pool = home id

/-- Two ledgers have the same pool of an id, the same positions that are assigned to it and the
same lockups of these. -/
structure Ledger.Alike (home : String → String) (own : String) (g h : Ledger) : Prop where
  pool : g.pools.get? own = h.pools.get? own
  positions : ∀ id, home id = own → g.positions.get? id = h.positions.get? id
  lockups : ∀ key : String × Int, home key.1 = own → g.lockups.get? key = h.lockups.get? key
  housed : g.Housed home
  housed' : h.Housed home

/-- Two places where lockups are looked up are alike for the positions that are assigned to a
pool: both are the store, or both are tables with the same rows for them. -/
inductive LockupSource.Alike (home : String → String) (own : String) :
    LockupSource → LockupSource → Prop
  | kept {table table' : Table (String × Int) Lockup}
    (h : ∀ key : String × Int, home key.1 = own → table.get? key = table'.get? key) :
    Alike home own (.kept table) (.kept table')
  | stored : Alike home own .stored .stored

/-- Two registrars show one time and are alike in the lockups of the positions that are assigned
to a pool. -/
structure Registrar.Alike (home : String → String) (own : String) (r r' : Registrar) : Prop where
  clock_eq : r.clock = r'.clock
  lockups : r.lockups.Alike home own r'.lockups

/-! ## Rows put into ledgers that are alike -/

namespace Ledger

variable {g g' h : Ledger} {p : Position}

theorem Housed.putPosition (hg : g.Housed home) (hp : p.pool = home p.id) :
    (g.putPosition p).Housed home := by
  intro id q hq
  have hrow : (g.positions.put p.id p).get? id = some q := hq
  rw [Table.get?_put] at hrow
  split at hrow
  · next hid =>
    cases hrow
    rw [hid, hp]
  · exact hg id q hrow

namespace Alike

theorem refl (hg : g.Housed home) : Alike home own g g :=
  ⟨rfl, fun _ _ => rfl, fun _ _ => rfl, hg, hg⟩

theorem putPool (halike : Alike home own g h) (key : String) (pool : Pool) :
    Alike home own (g.putPool key pool) (h.putPool key pool) := by
  refine ⟨?_, halike.positions, halike.lockups, halike.housed, halike.housed'⟩
  rw [get?_pools_putPool, get?_pools_putPool, halike.pool]

theorem putPosition (halike : Alike home own g h) (hp : p.pool = home p.id) :
    Alike home own (g.putPosition p) (h.putPosition p) := by
  refine ⟨halike.pool, fun id hid => ?_, halike.lockups, halike.housed.putPosition hp,
    halike.housed'.putPosition hp⟩
  show (g.positions.put p.id p).get? id = (h.positions.put p.id p).get? id
  rw [Table.get?_put, Table.get?_put, halike.positions id hid]

theorem putLockup (halike : Alike home own g h) (position : String) (index : Int) (l : Lockup) :
    Alike home own (g.putLockup position index l) (h.putLockup position index l) := by
  refine ⟨halike.pool, halike.positions, fun key hkey => ?_, halike.housed, halike.housed'⟩
  show (g.lockups.put (position, index) l).get? key = (h.lockups.put (position, index) l).get? key
  rw [Table.get?_put, Table.get?_put, halike.lockups key hkey]

/-- Another pool is put into one of the ledgers. -/
theorem putPool_left (halike : Alike home own g h) {key : String} (hkey : key ≠ own)
    (pool : Pool) : Alike home own (g.putPool key pool) h := by
  refine ⟨?_, halike.positions, halike.lockups, halike.housed, halike.housed'⟩
  rw [get?_pools_putPool, if_neg hkey.symm]
  exact halike.pool

/-- In one of the ledgers another pool takes a delta, and a position of it a new state. -/
theorem of_exchange {time : Int} {delta : Delta} (halike : Alike home own g h)
    (hexchange : Posting.Exchange g time delta p g') (hp : p.pool = home p.id)
    (hother : home p.id ≠ own)
    (hlockups : ∀ key : String × Int, home key.1 = own →
      g'.lockups.get? key = g.lockups.get? key) : Alike home own g' h := by
  obtain ⟨pool, changed, -, -, hpools⟩ := hexchange.pools
  refine ⟨?_, fun id hid => ?_, fun key hkey => ?_, fun id q hq => ?_, halike.housed'⟩
  · rw [hpools, Table.get?_put, if_neg (by rw [hp]; exact hother.symm)]
    exact halike.pool
  · have hne : id ≠ p.id := by
      rintro rfl
      exact hother hid
    rw [positions_exchange hexchange, if_neg hne]
    exact halike.positions id hid
  · rw [hlockups key hkey]
    exact halike.lockups key hkey
  · refine halike.housed.putPosition hp id q ?_
    rw [← hq, hexchange.positions]
    rfl

/-- Ledgers that are alike list the same open positions of the pool. -/
theorem openPositions_eq (halike : Alike home own g h) :
    g.openPositions own = h.openPositions own := by
  refine eq_of_ascending (·.id) (pairwise_openPositions g own) (pairwise_openPositions h own)
    fun p => ?_
  rw [mem_openPositions, mem_openPositions]
  constructor
  · rintro ⟨hp, hpool, hphase⟩
    have hid : home p.id = own := (halike.housed p.id p hp).symm.trans hpool
    exact ⟨halike.positions p.id hid ▸ hp, hpool, hphase⟩
  · rintro ⟨hp, hpool, hphase⟩
    have hid : home p.id = own := (halike.housed' p.id p hp).symm.trans hpool
    exact ⟨halike.positions p.id hid ▸ hp, hpool, hphase⟩

/-- The stores of ledgers that are alike have the same rows of lockups of the positions. -/
theorem get?_lockups_store (halike : Alike home own g h) {key : LockupKey}
    (hkey : home key.1 = own) : g.store.lockups.get? key = h.store.lockups.get? key := by
  by_cases hindex : ∃ k, lockupKey k = key
  · obtain ⟨k, rfl⟩ := hindex
    rw [Ledger.get?_lockups_store, Ledger.get?_lockups_store, halike.lockups k hkey]
  · have hnone : ∀ t : Table (String × Int) Lockup,
        (t.image lockupKey LockupRow.written).get? key = none :=
      fun t => Table.get?_image_of_ne _ t fun k hk => hindex ⟨k, hk⟩
    unfold Ledger.store
    rw [hnone, hnone]

end Alike

/-- The open positions of a pool are assigned to it. -/
theorem Housed.home_of_mem (hg : g.Housed home) {pool id : String}
    (hid : id ∈ (g.openPositions pool).map (·.id)) : home id = pool := by
  obtain ⟨p, hp, rfl⟩ := List.mem_map.mp hid
  obtain ⟨hrow, hpool, -⟩ := mem_openPositions.mp hp
  rw [← hg p.id p hrow, hpool]

end Ledger

/-- Registrars that are alike still are when both are given a lockup. -/
theorem Registrar.Alike.put {r r' : Registrar} (h : r.Alike home own r') (position : String)
    (index : Int) (l : Lockup) :
    (r.put position index l).Alike home own (r'.put position index l) := by
  obtain ⟨clock, lockups⟩ := r
  obtain ⟨clock', lockups'⟩ := r'
  obtain ⟨hclock, hlockups⟩ := h
  cases hlockups with
  | kept htables =>
    refine ⟨hclock, .kept fun key hkey => ?_⟩
    rw [Table.get?_put, Table.get?_put, htables key hkey]
  | stored => exact ⟨hclock, .stored⟩

/-- One of the registrars is given a lockup of a position that is assigned elsewhere. -/
theorem Registrar.Alike.put_left {r r' : Registrar} (h : r.Alike home own r') {position : String}
    (hposition : home position ≠ own) (index : Int) (l : Lockup) :
    (r.put position index l).Alike home own r' := by
  obtain ⟨clock, lockups⟩ := r
  obtain ⟨clock', lockups'⟩ := r'
  obtain ⟨hclock, hlockups⟩ := h
  cases hlockups with
  | kept htables =>
    refine ⟨hclock, .kept fun key hkey => ?_⟩
    have hne : key ≠ (position, index) := by
      rintro rfl
      exact hposition hkey
    rw [Table.get?_put, if_neg hne, htables key hkey]
  | stored => exact ⟨hclock, .stored⟩

/-- Registrars that are alike still are when the clocks of both are set to one time. -/
theorem Registrar.Alike.setTo {r r' : Registrar} (h : r.Alike home own r') {time time' : Int}
    (htime : time = time') :
    ({ r with clock := r.clock.setTo time } : Registrar).Alike home own
      { r' with clock := r'.clock.setTo time' } :=
  ⟨by rw [h.clock_eq, htime], h.lockups⟩

/-! ## Postings on the pool and its positions -/

namespace Posting

variable {α β : Type} {id : String} {time amount : Int}

/-- Two postings do the same on ledgers that are alike: they have one result, and leave ledgers
that are alike. -/
def Matches (home : String → String) (own : String) (t t' : Posting α) : Prop :=
  ∀ g h, g.Alike home own h → t.result g = t'.result h ∧ (t.after g).Alike home own (t'.after h)

variable {t t' : Posting α} {u u' : α → Posting β}

theorem matches_pure (a : α) : Matches home own (pure a) (pure a) :=
  fun _ _ halike => ⟨rfl, halike⟩

theorem matches_throw (fault : Fault) :
    Matches home own (throw fault : Posting α) (throw fault) :=
  fun _ _ halike => ⟨rfl, halike⟩

theorem matches_throw_bind (fault : Fault) (u : β → Posting α) :
    Matches home own ((throw fault : Posting β) >>= u) (throw fault >>= u) :=
  fun _ _ halike => ⟨rfl, halike⟩

theorem matches_check (r : Except Fault α) : Matches home own (check r) (check r) := by
  cases r with
  | error fault => exact matches_throw fault
  | ok a => exact matches_pure a

theorem matches_require (found : Option α) (fault : Fault) :
    Matches home own (require found fault) (require found fault) := by
  cases found with
  | none => exact matches_throw fault
  | some a => exact matches_pure a

theorem matches_read {f : Ledger → Except Fault α}
    (h : ∀ g g', g.Alike home own g' → f g = f g') : Matches home own (read f) (read f) := by
  intro g g' halike
  refine ⟨?_, ?_⟩
  · show ((f g).map _).map _ = ((f g').map _).map _
    rw [h g g' halike]
    cases f g' <;> rfl
  · rw [looks_read f g, looks_read f g']
    exact halike

/-- A row is put into both ledgers after a check of what they have in common. -/
theorem matches_write {r : Ledger → Except Fault α} {put : Ledger → Ledger}
    (hr : ∀ g h, g.Alike home own h → r g = r h)
    (hput : ∀ g h, g.Alike home own h → (put g).Alike home own (put h)) :
    Matches home own (write fun g => (r g).map fun _ => put g)
      (write fun g => (r g).map fun _ => put g) := by
  intro g h halike
  have hsame := hr g h halike
  have hrun : ∀ g, (write fun g => (r g).map fun _ => put g).run g =
      (r g).map fun _ => ((), put g) := by
    intro g
    show ((r g).map _).map _ = _
    cases r g <;> rfl
  unfold result after
  rw [hrun, hrun, ← hsame]
  cases r g with
  | error fault => exact ⟨rfl, halike⟩
  | ok a => exact ⟨rfl, hput g h halike⟩

/-- Postings go on in the same way with what they have found. -/
theorem Matches.bind_of {K : α → Prop} (ht : Matches home own t t')
    (hK : ∀ g a, g.Housed home → t.result g = .ok a → K a)
    (hu : ∀ a, K a → Matches home own (u a) (u' a)) :
    Matches home own (t >>= u) (t' >>= u') := by
  intro g h halike
  obtain ⟨hresult, hafter⟩ := ht g h halike
  cases hg : t.result g with
  | error fault =>
    have hg' := result_bind_of_error (u := u) hg
    have hh' := result_bind_of_error (u := u') (hresult.symm.trans hg)
    rw [hg', hh', after_of_error hg', after_of_error hh']
    exact ⟨rfl, halike⟩
  | ok a =>
    have hh := hresult.symm.trans hg
    obtain ⟨hnext, hlast⟩ := hu a (hK g a halike.housed hg) _ _ hafter
    have hbind := result_bind_of_ok (u := u) hg
    have hbind' := result_bind_of_ok (u := u') hh
    refine ⟨by rw [hbind, hbind', hnext], ?_⟩
    cases hb : (u a).result (t.after g) with
    | error fault =>
      have hb' := hnext.symm.trans hb
      rw [after_of_error (hbind.trans hb), after_of_error (hbind'.trans hb')]
      exact halike
    | ok b =>
      rw [after_bind_of_ok hg hb, after_bind_of_ok hh (hnext.symm.trans hb)]
      exact hlast

theorem Matches.bind (ht : Matches home own t t') (hu : ∀ a, Matches home own (u a) (u' a)) :
    Matches home own (t >>= u) (t' >>= u') :=
  ht.bind_of (fun _ _ _ _ => trivial) fun a _ => hu a

theorem matches_loadPool (hid : id = own) : Matches home own (loadPool id) (loadPool id) := by
  refine (matches_read fun g g' halike => ?_).bind fun found => matches_require found _
  rw [hid, halike.pool]

/-- A position that is assigned to the pool is found in it. -/
theorem matches_loadPosition_bind {u u' : Position → Posting β} (hid : home id = own)
    (hu : ∀ p, home p.id = own → p.pool = own → Matches home own (u p) (u' p)) :
    Matches home own (loadPosition id >>= u) (loadPosition id >>= u') := by
  have hload : Matches home own (loadPosition id) (loadPosition id) := by
    refine (matches_read fun g g' halike => ?_).bind fun found => matches_require found _
    rw [halike.positions id hid]
  refine hload.bind_of (K := fun p => home p.id = own ∧ p.pool = own) (fun g p hg hp => ?_)
    fun p hp => hu p hp.1 hp.2
  obtain ⟨hrow, -⟩ := run_loadPosition_ok_iff.mp (run_of_result hp)
  obtain rfl := Ledger.id_of_get? hrow
  exact ⟨hid, (hg p.id p hrow).trans hid⟩

theorem matches_check_bind {r : Except Fault α} (hu : ∀ a, r = .ok a →
    Matches home own (u a) (u' a)) : Matches home own (check r >>= u) (check r >>= u') := by
  refine (matches_check r).bind_of (fun g a _ ha => ?_) hu
  exact (run_check_ok_iff.mp (run_of_result ha)).1

theorem matches_savePool (id : String) (pool : Pool) :
    Matches home own (savePool id pool) (savePool id pool) :=
  matches_write (fun _ _ _ => rfl) fun _ _ halike => halike.putPool id pool

theorem matches_savePosition {p : Position} (hid : home p.id = own) (hp : p.pool = own) :
    Matches home own (savePosition p) (savePosition p) := by
  refine matches_write (fun g h halike => ?_)
    fun g h halike => halike.putPosition (hp.trans hid.symm)
  rw [halike.positions p.id hid]

theorem matches_saveLockup (position : String) (index : Int) (l : Lockup) :
    Matches home own (saveLockup position index l) (saveLockup position index l) := by
  have hsave : ∀ g : Ledger, g.saveLockup position index l =
      (do
        let _ ← Cell.ofInt index
        let _ ← Cell.ofInt l.start
        Cell.ofInt l.stop : Except Fault Cell).map fun _ => g.putLockup position index l := by
    intro g
    unfold Ledger.saveLockup
    cases Cell.ofInt index with
    | error fault => rfl
    | ok cell =>
      cases Cell.ofInt l.start with
      | error fault => rfl
      | ok start => cases Cell.ofInt l.stop <;> rfl
  unfold saveLockup
  rw [funext hsave]
  exact matches_write (fun _ _ _ => rfl) fun g h halike => halike.putLockup position index l

theorem matches_findLockup {r r' : Registrar} (hr : r.Alike home own r') (hid : home id = own)
    (index : Int) : Matches home own (findLockup r id index) (findLockup r' id index) := by
  have hlookUp : Matches home own (lookUp r id index) (lookUp r' id index) := by
    have hlockups := hr.lockups
    unfold lookUp
    generalize r.lockups = source at hlockups
    generalize r'.lockups = source' at hlockups
    cases hlockups with
    | kept htables =>
      dsimp only
      rw [htables (id, index) hid]
      exact matches_pure _
    | stored =>
      refine matches_read fun g g' halike => ?_
      rw [Ledger.lockup?, Ledger.lockup?, halike.lockups (id, index) hid]
  exact hlookUp.bind fun found => matches_require found _

theorem matches_createPool (own : String) (asOf : Int) :
    Matches home own (createPool own asOf) (createPool own asOf) := by
  refine Matches.bind ?_ fun _ => matches_pure _
  refine (matches_read fun g h halike => by rw [halike.pool]).bind fun found => ?_
  dsimp only
  split
  · exact matches_throw_bind _ _
  · exact matches_savePool own _

theorem matches_status (own : String) (time : Int) :
    Matches home own (status own time) (status own time) :=
  (matches_loadPool rfl).bind fun _ => matches_check _

theorem matches_rollForward (own : String) (time : Int) :
    Matches home own (rollForward own time) (rollForward own time) := by
  refine (matches_loadPool rfl).bind fun pool => (matches_check _).bind fun rolled => ?_
  exact (matches_savePool own rolled).bind fun _ => matches_pure rolled

theorem matches_openPosition {p : Position} (hid : home p.id = own) (hp : p.pool = own)
    (time amount : Int) (l : Lockup) :
    Matches home own (openPosition time p amount l) (openPosition time p amount l) := by
  refine (matches_read fun g h halike => by rw [halike.positions p.id hid]).bind fun found => ?_
  dsimp only
  split
  · exact matches_throw_bind _ _
  · refine (matches_loadPool hp).bind fun pool => (matches_check _).bind fun changed => ?_
    refine (matches_savePool p.pool changed).bind fun _ => ?_
    refine (matches_savePosition hid hp).bind fun _ => ?_
    exact (matches_saveLockup p.id p.index l).bind fun _ => matches_pure changed

theorem matches_closePosition {r r' : Registrar} (hr : r.Alike home own r') (hid : home id = own)
    (amount : Int) :
    Matches home own (closePosition r id amount) (closePosition r' id amount) := by
  refine matches_loadPosition_bind hid fun stored _ _ => (matches_check _).bind fun _ => ?_
  refine (matches_findLockup hr hid stored.index).bind fun l => ?_
  rw [hr.clock_eq]
  refine matches_loadPosition_bind hid fun p hown hp => matches_check_bind fun closed hclosed => ?_
  obtain ⟨-, rfl⟩ := Position.close_eq_ok_iff.mp hclosed
  refine (matches_check _).bind fun delta => ?_
  refine (matches_loadPool hp).bind fun pool => (matches_check _).bind fun changed => ?_
  refine (matches_savePool p.pool changed).bind fun _ => ?_
  refine Matches.bind ?_ fun _ => matches_pure changed
  exact matches_savePosition hown hp

theorem matches_process {r r' : Registrar} (hr : r.Alike home own r') (policy : Purge.Policy)
    (hid : home id = own) :
    Matches home own (process r policy id) (process r' policy id) := by
  refine matches_loadPosition_bind hid fun stored _ _ => ?_
  refine (matches_findLockup hr hid stored.index).bind fun l => ?_
  rw [hr.clock_eq]
  refine matches_loadPosition_bind hid fun p hown hp => ?_
  refine (matches_loadPool hp).bind fun pool => matches_check_bind fun d hd => ?_
  cases d with
  | reschedule r => exact matches_pure _
  | finalize f =>
    obtain ⟨-, -, -, -, hposition, -⟩ := Purge.decision_eq_finalize_iff.mp hd
    refine Matches.bind ?_ fun _ => matches_pure _
    refine (matches_savePool p.pool f.pool).bind fun _ => ?_
    rw [hposition]
    exact matches_savePosition hown hp

/-! ## Postings on other pools and positions -/

/-- A posting may be left out: its ledger stays like every other that it was like. -/
def Spares (home : String → String) (own : String) (t : Posting α) : Prop :=
  ∀ h, t.Preserves fun g => g.Alike home own h

theorem spares_createPool (hid : id ≠ own) (asOf : Int) :
    Spares home own (createPool id asOf) := by
  intro h g pool g' halike hrun
  obtain ⟨-, rfl⟩ := run_createPool_ok hrun
  exact halike.putPool_left hid _

theorem spares_rollForward (hid : id ≠ own) (time : Int) :
    Spares home own (rollForward id time) := by
  intro h g pool g' halike hrun
  obtain ⟨_, -, -, rfl⟩ := run_rollForward_ok hrun
  exact halike.putPool_left hid _

theorem spares_openPosition {p : Position} (hid : home p.id ≠ own) (hp : p.pool = home p.id)
    (time amount : Int) (l : Lockup) : Spares home own (openPosition time p amount l) := by
  intro h g pool g' halike hrun
  obtain ⟨-, hexchange, hlockups⟩ := exchange_of_open hrun
  refine halike.of_exchange hexchange hp hid fun key hkey => ?_
  have hne : key ≠ (p.id, p.index) := by
    rintro rfl
    exact hid hkey
  rw [hlockups, Table.get?_put, if_neg hne]

theorem spares_closePosition (hid : home id ≠ own) (registrar : Registrar) (amount : Int) :
    Spares home own (closePosition registrar id amount) := by
  intro h g pool g' halike hrun
  obtain ⟨p, l, delta, hp, -, -, -, hexchange, hlockups⟩ := exchange_of_close hrun
  obtain rfl := Ledger.id_of_get? hp
  exact halike.of_exchange hexchange (halike.housed _ p hp) hid fun key _ => by rw [hlockups]

theorem spares_process (hid : home id ≠ own) (registrar : Registrar) (policy : Purge.Policy) :
    Spares home own (process registrar policy id) := by
  intro h g r g' halike hrun
  rcases exchange_of_process hrun with
    rfl | ⟨p, l, delta, hp, -, -, -, -, hexchange, hlockups⟩
  · exact halike
  · obtain rfl := Ledger.id_of_get? hp
    exact halike.of_exchange hexchange (halike.housed _ p hp) hid fun key _ => by rw [hlockups]

end Posting

/-! ## Rounds of visits -/

namespace Purge.Round

variable {registrar registrar' : Registrar} {policy : Policy} {g g' h : Ledger}
  {ids : List String} {rs : List Result} {fault? : Option Fault}

/-- A round through positions of the pool goes the same way on ledgers that are alike. -/
theorem matched (hround : Round registrar policy g ids rs fault? g')
    (hr : registrar.Alike home own registrar') (hids : ∀ id ∈ ids, home id = own)
    (halike : g.Alike home own h) :
    ∃ h', Round registrar' policy h ids rs fault? h' ∧ g'.Alike home own h' := by
  induction hround generalizing h with
  | done g => exact ⟨h, .done h, halike⟩
  | raised htold =>
    obtain ⟨hid, -⟩ := List.forall_mem_cons.mp hids
    obtain ⟨hresult, -⟩ := Posting.matches_process hr policy hid _ _ halike
    rw [hresult] at htold
    exact ⟨h, .raised htold, halike⟩
  | visited htold hrest ih =>
    obtain ⟨hid, hothers⟩ := List.forall_mem_cons.mp hids
    obtain ⟨hresult, hafter⟩ := Posting.matches_process hr policy hid _ _ halike
    obtain ⟨h', hround', halike'⟩ := ih hothers hafter
    rw [hresult] at htold
    exact ⟨h', .visited htold hround', halike'⟩

/-- A round through positions of other pools may be left out. -/
theorem spared (hround : Round registrar policy g ids rs fault? g')
    (hids : ∀ id ∈ ids, home id ≠ own) (halike : g.Alike home own h) :
    g'.Alike home own h := by
  induction hround with
  | done g => exact halike
  | raised => exact halike
  | visited _ _ ih =>
    obtain ⟨hid, hothers⟩ := List.forall_mem_cons.mp hids
    exact ih hothers ((Posting.spares_process hid registrar policy h).after halike)

end Purge.Round

end StakeLedger
