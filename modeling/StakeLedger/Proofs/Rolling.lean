import StakeLedger.Proofs.Services

/-
  Ledgers whose pools have been rolled forward on the way.
  A pool that has been rolled forward can still be rolled to every later time that it could be
  rolled to before, takes there every delta that it took, and comes to the same
  (`Pool.Rolled.rollForward`, `Pool.Rolled.applyDelta`); the converse fails, since two short
  decays may fit where one long one does not. So a posting that ends well on a ledger ends with
  the same result on one whose pools have been rolled forward up to its time, and leaves two
  such ledgers again (`Posting.Simulates`).
-/

namespace StakeLedger

namespace Pool

/-- A pool, and what it is after rolling it forward any number of times up to a time. -/
def Rolled (now : Int) : Pool → Pool → Prop :=
  Relation.ReflTransGen fun a b => ∃ time ≤ now, a.rollForward time = .ok b

/-- Rolling forward on the way loses no later time. -/
theorem rollForward_of_rollForward {a b c : Pool} {time later : Int}
    (h : a.rollForward time = .ok b) (hle : time ≤ later) (hc : a.rollForward later = .ok c) :
    b.rollForward later = .ok c := by
  obtain ⟨hasOf, -, hstaked, hrate, hb⟩ := rollForward_eq_ok_iff.mp h
  obtain ⟨-, hmax, hstaked', hrate', hc'⟩ := rollForward_eq_ok_iff.mp hc
  have hdecay : a.decay later = a.decay time + b.decay later := by
    simp only [decay, hrate, hb]
    ring
  have hnonneg : 0 ≤ a.decay time := decay_nonneg hasOf
  exact rollForward_eq_ok_iff.mpr
    ⟨hb ▸ hle, by omega, by omega, hrate'.trans hrate.symm, hc'⟩

namespace Rolled

variable {now later : Int} {a b c : Pool}

theorem refl (a : Pool) : Rolled now a a := Relation.ReflTransGen.refl

theorem mono (h : Rolled now a b) (hle : now ≤ later) : Rolled later a b := by
  refine Relation.ReflTransGen.mono ?_ _ _ h
  rintro _ _ ⟨time, htime, hroll⟩
  exact ⟨time, htime.trans hle, hroll⟩

/-- Rolling the other pool forward once more. -/
theorem roll (h : Rolled now a b) (hroll : b.rollForward now = .ok c) : Rolled now a c :=
  h.tail ⟨now, le_rfl, hroll⟩

theorem rollForward (h : Rolled now a b) (hle : now ≤ later)
    (hc : a.rollForward later = .ok c) : b.rollForward later = .ok c := by
  -- after each of the roll-forwards the later time is still within reach
  induction h with
  | refl => exact hc
  | tail _ hlast ih =>
    obtain ⟨time, htime, hroll⟩ := hlast
    exact rollForward_of_rollForward hroll (htime.trans hle) ih

theorem applyDelta (h : Rolled now a b) {delta : Delta} (hc : a.applyDelta now delta = .ok c) :
    b.applyDelta now delta = .ok c := by
  unfold Pool.applyDelta at hc ⊢
  obtain ⟨rolled, hroll, hrest⟩ := bind_eq_ok_iff.mp hc
  exact bind_eq_ok_iff.mpr ⟨rolled, h.rollForward le_rfl hroll, hrest⟩

/-- What is decided on a position is decided whether its pool has been rolled forward or not. -/
theorem decision (h : Rolled now a b) {policy : Purge.Policy} {p : Position}
    {lockup : Lockup.View} {d : Purge.Decision}
    (hd : Purge.decision policy p a lockup now = .ok d) :
    Purge.decision policy p b lockup now = .ok d := by
  unfold Purge.decision at hd ⊢
  split at hd
  · cases hd
  · next hfinal =>
    rw [if_neg hfinal]
    split at hd
    · next hopen => rwa [if_pos hopen]
    · next hopen =>
      rw [if_neg hopen]
      obtain ⟨delta, hdelta, hd⟩ := bind_eq_ok_iff.mp hd
      obtain ⟨changed, hchanged, hd⟩ := bind_eq_ok_iff.mp hd
      exact bind_eq_ok_iff.mpr
        ⟨delta, hdelta, bind_eq_ok_iff.mpr ⟨changed, h.applyDelta hchanged, hd⟩⟩

end Rolled

end Pool

namespace Ledger

variable {now later : Int} {g g' : Ledger} {id : String} {pool : Pool}

/-- A ledger, and what it is after rolling its pools forward up to a time. -/
structure Rolled (now : Int) (g g' : Ledger) : Prop where
  pools : ∀ id, Option.Rel (Pool.Rolled now) (g.pools.get? id) (g'.pools.get? id)
  positions_eq : g'.positions = g.positions
  lockups_eq : g'.lockups = g.lockups

namespace Rolled

theorem refl (g : Ledger) : Rolled now g g := by
  refine ⟨fun id => ?_, rfl, rfl⟩
  cases g.pools.get? id with
  | none => exact .none
  | some pool => exact .some (.refl pool)

theorem mono (h : Rolled now g g') (hle : now ≤ later) : Rolled later g g' := by
  refine ⟨fun id => ?_, h.positions_eq, h.lockups_eq⟩
  have hpool := h.pools id
  revert hpool
  cases g.pools.get? id <;> cases g'.pools.get? id <;> intro hpool <;> cases hpool
  · exact .none
  · next hrolled => exact .some (hrolled.mono hle)

theorem pool_of_get? (h : Rolled now g g') (hpool : g.pools.get? id = some pool) :
    ∃ pool', g'.pools.get? id = some pool' ∧ pool.Rolled now pool' := by
  have hrel := h.pools id
  rw [hpool] at hrel
  generalize g'.pools.get? id = found at hrel
  cases hrel with
  | some hrolled => exact ⟨_, rfl, hrolled⟩

theorem isSome_pool (h : Rolled now g g') (id : String) :
    (g'.pools.get? id).isSome = (g.pools.get? id).isSome := by
  have hrel := h.pools id
  revert hrel
  cases g.pools.get? id <;> cases g'.pools.get? id <;> intro hrel <;> cases hrel <;> rfl

/-- A pool is put into both ledgers. -/
theorem putPool (h : Rolled now g g') (id : String) (pool : Pool) :
    Rolled now (g.putPool id pool) (g'.putPool id pool) := by
  refine ⟨fun other => ?_, h.positions_eq, h.lockups_eq⟩
  rw [get?_pools_putPool, get?_pools_putPool]
  split
  · exact .some (.refl pool)
  · exact h.pools other

/-- A pool of the other ledger is rolled forward once more. -/
theorem roll (h : Rolled now g g') {pool pool' : Pool} (hpool : g'.pools.get? id = some pool)
    (hroll : pool.rollForward now = .ok pool') : Rolled now g (g'.putPool id pool') := by
  refine ⟨fun other => ?_, h.positions_eq, h.lockups_eq⟩
  rw [get?_pools_putPool]
  have hrel := h.pools other
  split
  · next hother =>
    rw [hother, hpool] at hrel
    rw [hother]
    generalize g.pools.get? id = found at hrel
    cases hrel with
    | some hrolled => exact .some (hrolled.roll hroll)
  · exact hrel

theorem putPosition (h : Rolled now g g') (p : Position) :
    Rolled now (g.putPosition p) (g'.putPosition p) :=
  ⟨h.pools, congrArg (fun positions => positions.put p.id p) h.positions_eq, h.lockups_eq⟩

theorem putLockup (h : Rolled now g g') (position : String) (index : Int) (l : Lockup) :
    Rolled now (g.putLockup position index l) (g'.putLockup position index l) :=
  ⟨h.pools, h.positions_eq, congrArg (fun lockups => lockups.put (position, index) l) h.lockups_eq⟩

/-- Listing the open positions looks at no pool. -/
theorem openPositions_store (h : Rolled now g g') (pool : String) :
    g'.store.openPositions pool = g.store.openPositions pool := by
  unfold Store.openPositions store
  rw [h.positions_eq]

end Rolled

end Ledger

/-! ## Postings -/

namespace Posting

variable {α β : Type} {now : Int} {id : String}

/-- Where a posting ends well, another one does on a ledger whose pools have been rolled
forward: with the same result, and with a ledger of the same kind. -/
def Simulates (now : Int) (t t' : Posting α) : Prop :=
  ∀ g g' a after, g.Rolled now g' → t.run g = .ok (a, after) →
    ∃ after', t'.run g' = .ok (a, after') ∧ after.Rolled now after'

variable {t t' : Posting α} {u u' : α → Posting β}

theorem simulates_pure (a : α) : Simulates now (pure a) (pure a) := by
  intro g g' b after hrolled hrun
  obtain ⟨rfl, rfl⟩ := run_pure_ok_iff.mp hrun
  exact ⟨g', run_pure_ok_iff.mpr ⟨rfl, rfl⟩, hrolled⟩

theorem simulates_throw (fault : Fault) :
    Simulates now (throw fault : Posting α) (throw fault) := by
  intro g g' a after _ hrun
  exact (run_throw_ok_iff.mp hrun).elim

theorem simulates_throw_bind (fault : Fault) (u : β → Posting α) :
    Simulates now ((throw fault : Posting β) >>= u) (throw fault >>= u) := by
  intro g g' a after _ hrun
  exact absurd hrun not_run_throw_bind

theorem simulates_check {r r' : Except Fault α} (h : ∀ a, r = .ok a → r' = .ok a) :
    Simulates now (check r) (check r') := by
  intro g g' a after hrolled hrun
  obtain ⟨hok, rfl⟩ := run_check_ok_iff.mp hrun
  exact ⟨g', run_check_ok_iff.mpr ⟨h a hok, rfl⟩, hrolled⟩

theorem simulates_read {f : Ledger → Except Fault α}
    (h : ∀ g g', g.Rolled now g' → f g' = f g) : Simulates now (read f) (read f) := by
  intro g g' a after hrolled hrun
  obtain ⟨hok, rfl⟩ := run_read_ok_iff.mp hrun
  exact ⟨g', run_read_ok_iff.mpr ⟨(h _ _ hrolled).trans hok, rfl⟩, hrolled⟩

theorem simulates_require (found : Option α) (fault : Fault) :
    Simulates now (require found fault) (require found fault) := by
  cases found with
  | none => exact simulates_throw fault
  | some a => exact simulates_pure a

theorem Simulates.bind (h : Simulates now t t') (hu : ∀ a, Simulates now (u a) (u' a)) :
    Simulates now (t >>= u) (t' >>= u') := by
  intro g g' b after hrolled hrun
  obtain ⟨a, mid, ht, hrest⟩ := run_bind_ok_iff.mp hrun
  obtain ⟨mid', ht', hrolled'⟩ := h g g' a mid hrolled ht
  obtain ⟨after', hrest', hrolled''⟩ := hu a mid mid' b after hrolled' hrest
  exact ⟨after', run_bind_ok_iff.mpr ⟨a, mid', ht', hrest'⟩, hrolled''⟩

/-- What is looked up need not be the same, as long as it does not matter. -/
theorem simulates_loadPool_bind {u u' : Pool → Posting β}
    (hu : ∀ pool pool', pool.Rolled now pool' → Simulates now (u pool) (u' pool')) :
    Simulates now (loadPool id >>= u) (loadPool id >>= u') := by
  intro g g' b after hrolled hrun
  obtain ⟨pool, _, hload, hrest⟩ := run_bind_ok_iff.mp hrun
  obtain ⟨hpool, rfl⟩ := run_loadPool_ok_iff.mp hload
  obtain ⟨pool', hpool', hrel⟩ := hrolled.pool_of_get? hpool
  obtain ⟨after', hrest', hrolled'⟩ := hu pool pool' hrel _ g' b after hrolled hrest
  exact ⟨after',
    run_bind_ok_iff.mpr ⟨pool', g', run_loadPool_ok_iff.mpr ⟨hpool', rfl⟩, hrest'⟩, hrolled'⟩

theorem simulates_loadPosition (id : String) :
    Simulates now (loadPosition id) (loadPosition id) := by
  refine (simulates_read fun g g' h => ?_).bind fun found => simulates_require found _
  rw [h.positions_eq]

theorem simulates_savePool (id : String) (pool : Pool) :
    Simulates now (savePool id pool) (savePool id pool) := by
  intro g g' a after hrolled hrun
  obtain ⟨hfits, rfl⟩ := run_savePool_ok_iff.mp hrun
  exact ⟨_, run_savePool_ok_iff.mpr ⟨hfits, rfl⟩, hrolled.putPool id pool⟩

theorem simulates_savePosition (p : Position) :
    Simulates now (savePosition p) (savePosition p) := by
  intro g g' a after hrolled hrun
  obtain ⟨hphase, rfl⟩ := run_savePosition_ok_iff.mp hrun
  exact ⟨_, run_savePosition_ok_iff.mpr ⟨hrolled.positions_eq ▸ hphase, rfl⟩,
    hrolled.putPosition p⟩

theorem simulates_saveLockup (position : String) (index : Int) (l : Lockup) :
    Simulates now (saveLockup position index l) (saveLockup position index l) := by
  intro g g' a after hrolled hrun
  obtain ⟨hfits, rfl⟩ := run_saveLockup_ok_iff.mp hrun
  exact ⟨_, run_saveLockup_ok_iff.mpr ⟨hfits, rfl⟩, hrolled.putLockup position index l⟩

theorem simulates_findLockup (registrar : Registrar) (position : String) (index : Int) :
    Simulates now (findLockup registrar position index) (findLockup registrar position index) := by
  have hlookUp : Simulates now (lookUp registrar position index)
      (lookUp registrar position index) := by
    unfold lookUp
    cases registrar.lockups with
    | kept table => exact simulates_pure _
    | stored =>
      refine simulates_read fun g g' h => ?_
      rw [Ledger.lockup?, h.lockups_eq, Ledger.lockup?]
  exact hlookUp.bind fun found => simulates_require found _

theorem simulates_createPool (id : String) (asOf : Int) :
    Simulates now (createPool id asOf) (createPool id asOf) := by
  refine Simulates.bind ?_ fun _ => simulates_pure _
  intro g g' a after hrolled hrun
  obtain ⟨found, _, hread, hrest⟩ := run_bind_ok_iff.mp hrun
  obtain ⟨hfound, rfl⟩ := run_read_ok_iff.mp hread
  cases Except.ok.inj hfound
  dsimp only at hrest
  split at hrest
  · exact absurd hrest not_run_throw_bind
  · next hnone =>
    obtain ⟨after', hsave, hrolled'⟩ := simulates_savePool id _ _ _ _ _ hrolled hrest
    refine ⟨after', run_bind_ok_iff.mpr ⟨_, g', run_read_ok_iff.mpr ⟨rfl, rfl⟩, ?_⟩, hrolled'⟩
    dsimp only
    rwa [if_neg (by rwa [hrolled.isSome_pool])]

theorem simulates_status (id : String) : Simulates now (status id now) (status id now) :=
  simulates_loadPool_bind fun _ _ h =>
    simulates_check fun _ hroll => h.rollForward le_rfl hroll

theorem simulates_rollForward (id : String) :
    Simulates now (rollForward id now) (rollForward id now) := by
  refine simulates_loadPool_bind fun pool pool' h => ?_
  refine (simulates_check fun _ hroll => h.rollForward le_rfl hroll).bind fun rolled => ?_
  exact (simulates_savePool id rolled).bind fun _ => simulates_pure rolled

theorem simulates_openPosition (p : Position) (amount : Int) (l : Lockup) :
    Simulates now (openPosition now p amount l) (openPosition now p amount l) := by
  refine (simulates_read fun g g' h => by rw [h.positions_eq]).bind fun found => ?_
  dsimp only
  split
  · exact simulates_throw_bind _ _
  · refine simulates_loadPool_bind fun pool pool' h => ?_
    refine (simulates_check fun _ hchanged => h.applyDelta hchanged).bind fun changed => ?_
    refine (simulates_savePool p.pool changed).bind fun _ => ?_
    refine (simulates_savePosition p).bind fun _ => ?_
    exact (simulates_saveLockup p.id p.index l).bind fun _ => simulates_pure changed

theorem simulates_closePosition {registrar : Registrar} (hnow : registrar.clock.now = now)
    (id : String) (amount : Int) :
    Simulates now (closePosition registrar id amount) (closePosition registrar id amount) := by
  subst hnow
  refine (simulates_loadPosition id).bind fun stored => ?_
  refine (simulates_check fun _ h => h).bind fun _ => ?_
  refine (simulates_findLockup registrar id stored.index).bind fun l => ?_
  refine (simulates_loadPosition id).bind fun p => ?_
  refine (simulates_check fun _ h => h).bind fun closed => ?_
  refine (simulates_check fun _ h => h).bind fun delta => ?_
  refine simulates_loadPool_bind fun pool pool' h => ?_
  refine (simulates_check fun _ hchanged => h.applyDelta hchanged).bind fun changed => ?_
  refine (simulates_savePool p.pool changed).bind fun _ => ?_
  exact (simulates_savePosition closed).bind fun _ => simulates_pure changed

theorem simulates_process {registrar : Registrar} (hnow : registrar.clock.now = now)
    (policy : Purge.Policy) (id : String) :
    Simulates now (process registrar policy id) (process registrar policy id) := by
  subst hnow
  refine (simulates_loadPosition id).bind fun stored => ?_
  refine (simulates_findLockup registrar id stored.index).bind fun l => ?_
  refine (simulates_loadPosition id).bind fun p => ?_
  refine simulates_loadPool_bind fun pool pool' h => ?_
  refine (simulates_check fun _ hd => h.decision hd).bind fun d => ?_
  cases d with
  | finalize f =>
    refine Simulates.bind ?_ fun _ => simulates_pure _
    exact (simulates_savePool p.pool f.pool).bind fun _ => simulates_savePosition f.position
  | reschedule r => exact simulates_pure _

theorem simulates_listed (pool : String) : Simulates now (listed pool) (listed pool) :=
  simulates_loadPool_bind fun _ _ _ =>
    (simulates_read fun _ _ h => h.openPositions_store pool).bind fun _ => simulates_pure _

end Posting

end StakeLedger
