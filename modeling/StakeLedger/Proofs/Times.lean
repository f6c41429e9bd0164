import StakeLedger.Proofs.Steps

/-
  The times of stored pools.
  A pool is saved with a time that fits its column or not at all, so that on every store that a
  session reaches all pools have such times (`Session.timed_of_lands`). Each posting is made of
  loads, checks and saves, and only the saving of a pool has anything to do with it.
-/

namespace StakeLedger

/-- The times of all pools fit their column. -/
def Ledger.Timed (g : Ledger) : Prop :=
  ∀ id pool, g.pools.get? id = some pool → Cell.fits pool.asOf = true

theorem Ledger.timed_empty : Ledger.Timed {} := fun _ _ h => by cases h

namespace Posting

variable {id : String} {time amount : Int}

theorem timed_savePool (id : String) (pool : Pool) : (savePool id pool).Preserves Ledger.Timed := by
  intro g u g' hg hrun
  obtain ⟨hfits, rfl⟩ := run_savePool_ok_iff.mp hrun
  intro other found hfound
  rw [Ledger.get?_pools_putPool] at hfound
  split at hfound
  · cases hfound
    exact hfits
  · exact hg other found hfound

theorem timed_savePosition (p : Position) : (savePosition p).Preserves Ledger.Timed := by
  intro g u g' hg hrun
  obtain ⟨-, rfl⟩ := run_savePosition_ok_iff.mp hrun
  exact hg

theorem timed_saveLockup (id : String) (index : Int) (l : Lockup) :
    (saveLockup id index l).Preserves Ledger.Timed := by
  intro g u g' hg hrun
  obtain ⟨-, rfl⟩ := run_saveLockup_ok_iff.mp hrun
  exact hg

theorem timed_createPool (id : String) (asOf : Int) :
    (createPool id asOf).Preserves Ledger.Timed := by
  refine Preserves.bind ?_ fun _ => (looks_pure _).preserves _
  refine ((looks_read _).preserves _).bind fun found => ?_
  dsimp only
  split
  · exact preserves_throw_bind _ _
  · exact timed_savePool id _

theorem timed_rollForward (id : String) (time : Int) :
    (rollForward id time).Preserves Ledger.Timed := by
  refine ((looks_loadPool id).preserves _).bind fun pool => ?_
  refine ((looks_check _).preserves _).bind fun rolled => ?_
  exact (timed_savePool id rolled).bind fun _ => (looks_pure _).preserves _

theorem timed_openPosition (time : Int) (p : Position) (amount : Int) (l : Lockup) :
    (openPosition time p amount l).Preserves Ledger.Timed := by
  refine ((looks_read _).preserves _).bind fun found => ?_
  dsimp only
  split
  · exact preserves_throw_bind _ _
  · refine ((looks_loadPool p.pool).preserves _).bind fun pool => ?_
    refine ((looks_check _).preserves _).bind fun changed => ?_
    refine (timed_savePool p.pool changed).bind fun _ => ?_
    refine (timed_savePosition p).bind fun _ => ?_
    exact (timed_saveLockup p.id p.index l).bind fun _ => (looks_pure _).preserves _

theorem timed_closePosition (registrar : Registrar) (id : String) (amount : Int) :
    (closePosition registrar id amount).Preserves Ledger.Timed := by
  refine ((looks_loadPosition id).preserves _).bind fun stored => ?_
  refine ((looks_check _).preserves _).bind fun _ => ?_
  refine ((looks_findLockup _ _ _).preserves _).bind fun l => ?_
  refine ((looks_loadPosition id).preserves _).bind fun p => ?_
  refine ((looks_check _).preserves _).bind fun closed => ?_
  refine ((looks_check _).preserves _).bind fun delta => ?_
  refine ((looks_loadPool p.pool).preserves _).bind fun pool => ?_
  refine ((looks_check _).preserves _).bind fun changed => ?_
  refine (timed_savePool p.pool changed).bind fun _ => ?_
  exact (timed_savePosition closed).bind fun _ => (looks_pure _).preserves _

theorem timed_process (registrar : Registrar) (policy : Purge.Policy) (id : String) :
    (process registrar policy id).Preserves Ledger.Timed := by
  refine ((looks_loadPosition id).preserves _).bind fun p => ?_
  refine ((looks_findLockup _ _ _).preserves _).bind fun l => ?_
  refine ((looks_loadPosition id).preserves _).bind fun p => ?_
  refine ((looks_loadPool p.pool).preserves _).bind fun pool => ?_
  refine ((looks_check _).preserves _).bind fun d => ?_
  cases d with
  | reschedule r => exact (looks_pure _).preserves _
  | finalize f =>
    refine Preserves.bind ?_ fun _ => (looks_pure _).preserves _
    exact (timed_savePool p.pool f.pool).bind fun _ => timed_savePosition f.position

end Posting

namespace Session

variable {books : Books Partners} {g g' : Ledger}

/-- Whatever a step does, the times of the pools fit. -/
theorem timed_of_lands {s : Step} (hg : g.Timed) (h : Lands books s g g') : g'.Timed := by
  have hposted := h.posted
  cases s with
  | setClock | advanceClock | readClock | registerLockup | fail => exact hposted ▸ hg
  | storeLockup position index l => exact hposted.2 ▸ (Posting.timed_saveLockup _ _ _).after hg
  | findLockup position index =>
    exact hposted.2 ▸ ((Posting.looks_findLockup _ _ _).preserves _).after hg
  | poolStatus id => exact hposted.2 ▸ ((Posting.looks_status _ _).preserves _).after hg
  | createPool id time => exact hposted.2 ▸ (Posting.timed_createPool _ _).after hg
  | openPosition p amount l registered =>
    exact hposted.2 ▸ (Posting.timed_openPosition _ _ _ _).after hg
  | closePosition id amount => exact hposted.2 ▸ (Posting.timed_closePosition _ _ _).after hg
  | rollForward id => exact hposted.2 ▸ (Posting.timed_rollForward _ _).after hg
  | process id =>
    exact hposted.induction hg fun g id hg => (Posting.timed_process _ _ id).after hg
  | sweep pool =>
    exact hposted.induction hg fun g id hg => (Posting.timed_process _ _ id).after hg

/-- On the store that steps reach from an empty one the times of all pools fit. -/
theorem exists_timed {books : Books Partners} (hempty : books.store = Ledger.store {})
    (steps : List Step) :
    ∃ g : Ledger, (booksAfter books steps).store = g.store ∧ g.Timed :=
  exists_after (fun _ _ _ _ _ => timed_of_lands) hempty Ledger.timed_empty

end Session

end StakeLedger
