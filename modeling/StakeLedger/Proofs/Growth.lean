import StakeLedger.Proofs.Rates

/-
  What only grows.
  Through every run of a session no pool and no position goes away, the time of a pool never
  goes back, and a position keeps its pool, its index and its rate and goes through its phases
  in their order. `Ledger.Grows` says so of two ledgers and `Store.Grows` of what is read from
  two stores; both compose, so that one lemma a posting is enough.
-/

namespace StakeLedger

/-! ## Ledgers -/

namespace Ledger

variable {g g' g'' : Ledger} {id : String} {time : Int} {delta : Delta} {p q : Position}

/-- A ledger and a later one: what stands in the first stands in the second as well, and has
gone no way but forward. -/
structure Grows (g g' : Ledger) : Prop where
  pools : ∀ id pool, g.pools.get? id = some pool →
    ∃ pool', g'.pools.get? id = some pool' ∧ pool.asOf ≤ pool'.asOf
  positions : ∀ id p, g.positions.get? id = some p →
    ∃ p', g'.positions.get? id = some p' ∧ p.Precedes p'

namespace Grows

theorem refl (g : Ledger) : g.Grows g :=
  ⟨fun _ pool h => ⟨pool, h, le_rfl⟩, fun _ p h => ⟨p, h, .refl p⟩⟩

theorem trans (h : g.Grows g') (h' : g'.Grows g'') : g.Grows g'' := by
  constructor
  · intro id pool hpool
    obtain ⟨pool', hpool', hle⟩ := h.pools id pool hpool
    obtain ⟨pool'', hpool'', hle'⟩ := h'.pools id pool' hpool'
    exact ⟨pool'', hpool'', hle.trans hle'⟩
  · intro id p hp
    obtain ⟨p', hp', hprecedes⟩ := h.positions id p hp
    obtain ⟨p'', hp'', hprecedes'⟩ := h'.positions id p' hp'
    exact ⟨p'', hp'', hprecedes.trans hprecedes'⟩

/-- A pool is put in the place of an earlier one. -/
theorem putPool {key : String} {pool : Pool}
    (h : ∀ old, g.pools.get? key = some old → old.asOf ≤ pool.asOf) :
    g.Grows (g.putPool key pool) := by
  refine ⟨fun id old hold => ?_, (refl g).positions⟩
  rw [get?_pools_putPool]
  by_cases hid : id = key
  · subst hid
    exact ⟨pool, if_pos rfl, h old hold⟩
  · exact ⟨old, by rw [if_neg hid, hold], le_rfl⟩

/-- A pool takes a delta, and a position takes the place of an earlier state of it. -/
theorem exchange (h : Posting.Exchange g time delta q g')
    (hq : ∀ p, g.positions.get? q.id = some p → p.Precedes q) : g.Grows g' := by
  obtain ⟨before, changed, hbefore, hchanged, hpools⟩ := pools_exchange h
  obtain ⟨hle, -, -, -, -, hasOf⟩ := Pool.applyDelta_eq_ok_iff.mp hchanged
  constructor
  · intro id pool hpool
    rw [hpools]
    by_cases hid : id = q.pool
    · subst hid
      cases Option.some.inj (hbefore.symm.trans hpool)
      exact ⟨changed, if_pos rfl, by rw [hasOf]; exact hle⟩
    · exact ⟨pool, by rw [if_neg hid, hpool], le_rfl⟩
  · intro id p hp
    rw [positions_exchange h]
    by_cases hid : id = q.id
    · subst hid
      exact ⟨q, if_pos rfl, hq p hp⟩
    · exact ⟨p, by rw [if_neg hid, hp], .refl p⟩

theorem ended (h : Posting.Ending g p q g') : g.Grows g' := by
  obtain ⟨time, delta, hexchange, -⟩ := h.exchange
  refine exchange hexchange fun r hr => ?_
  cases Option.some.inj (h.found.symm.trans hr)
  exact h.precedes

theorem created {asOf : Int} : g.Grows ((Posting.createPool id asOf).after g) := by
  refine Posting.keeps (refl g) fun pool g' hrun => ?_
  obtain ⟨hnone, rfl⟩ := Posting.run_createPool_ok hrun
  exact putPool (by simp [hnone])

theorem rolled : g.Grows ((Posting.rollForward id time).after g) := by
  refine Posting.keeps (refl g) fun pool g' hrun => ?_
  obtain ⟨before, hbefore, hroll, rfl⟩ := Posting.run_rollForward_ok hrun
  obtain ⟨hle, -, -, -, hasOf⟩ := Pool.rollForward_eq_ok_iff.mp hroll
  refine putPool fun old hold => ?_
  cases Option.some.inj (hbefore.symm.trans hold)
  rw [hasOf]
  exact hle

theorem lockupStored {index : Int} {l : Lockup} :
    g.Grows ((Posting.saveLockup id index l).after g) := by
  refine Posting.keeps (refl g) fun _ g' hrun => ?_
  obtain ⟨-, rfl⟩ := Posting.run_saveLockup_ok_iff.mp hrun
  exact ⟨(refl g).pools, (refl g).positions⟩

theorem opened {amount : Int} {l : Lockup} :
    g.Grows ((Posting.openPosition time p amount l).after g) := by
  refine Posting.keeps (refl g) fun pool g' hrun => ?_
  obtain ⟨hnone, hexchange, -⟩ := Posting.exchange_of_open hrun
  exact exchange hexchange (by simp [hnone])

theorem closed {registrar : Registrar} {amount : Int} :
    g.Grows ((Posting.closePosition registrar id amount).after g) := by
  refine Posting.keeps (refl g) fun pool g' hrun => ?_
  obtain ⟨p, q, hending, -⟩ := Posting.ending_of_close hrun
  exact ended hending

theorem processed {registrar : Registrar} {policy : Purge.Policy} :
    g.Grows ((Posting.process registrar policy id).after g) := by
  refine Posting.keeps (refl g) fun r g' hrun => ?_
  rcases Posting.ending_of_process hrun with rfl | ⟨p, q, hending, -⟩
  · exact refl _
  · exact ended hending

end Grows

end Ledger

namespace Session

variable {books : Books Partners} {g g' : Ledger}

/-- Whatever a step does, the ledger grows. -/
theorem grows_of_lands {s : Step} (h : Lands books s g g') : g.Grows g' := by
  have hposted := h.posted
  cases s with
  | setClock | advanceClock | readClock | registerLockup | fail => exact hposted ▸ .refl g
  | storeLockup position index l => exact hposted.2 ▸ .lockupStored
  | findLockup position index =>
    rw [hposted.2, Posting.looks_findLockup _ _ _ g]
    exact .refl g
  | poolStatus id =>
    rw [hposted.2, Posting.looks_status _ _ g]
    exact .refl g
  | createPool id time => exact hposted.2 ▸ .created
  | openPosition p amount l registered => exact hposted.2 ▸ .opened
  | closePosition id amount => exact hposted.2 ▸ .closed
  | rollForward id => exact hposted.2 ▸ .rolled
  | process id => exact hposted.induction (.refl g) fun _ _ h => h.trans .processed
  | sweep pool => exact hposted.induction (.refl g) fun _ _ h => h.trans .processed

/-- Steps on the store of a ledger end on the store of a ledger that has grown from it. -/
theorem exists_grows (hstore : books.store = g.store) (steps : List Step) :
    ∃ g', (booksAfter books steps).store = g'.store ∧ g.Grows g' :=
  exists_after (P := g.Grows) (fun _ _ _ _ _ h hlands => h.trans (grows_of_lands hlands)) hstore
    (.refl g)

end Session

/-! ## Stores -/

/-- A store and a later one: every pool and every position of the first is found in the second
and has gone no way but forward, and no row of the second is closed without being finalized. -/
structure Store.Grows (s s' : Store) : Prop where
  pools : ∀ id ∈ s.pools.keys, ∃ pool pool', s.pool? id = .ok (some pool) ∧
    s'.pool? id = .ok (some pool') ∧ pool.asOf ≤ pool'.asOf
  positions : ∀ id ∈ s.positions.keys, ∃ p p', s.position? id = .ok (some p) ∧
    s'.position? id = .ok (some p') ∧ p.Precedes p'
  finalized_of_closed : ∀ id row, s'.positions.get? id = some row →
    row.closed.flag = true → row.finalized.flag = true

theorem Ledger.exists_position_of_mem_keys {g : Ledger} {id : String}
    (h : id ∈ g.store.positions.keys) : ∃ p, g.positions.get? id = some p := by
  apply Table.exists_get?_of_mem_keys
  obtain ⟨entry, hentry, rfl⟩ := List.mem_map.mp h
  obtain ⟨entry', hentry', rfl⟩ := List.mem_map.mp hentry
  exact List.mem_map.mpr ⟨entry', hentry', rfl⟩

theorem Ledger.Grows.store {g g' : Ledger} (h : g.Grows g') : g.store.Grows g'.store := by
  refine ⟨fun id hid => ?_, fun id hid => ?_, fun id row hrow => ?_⟩
  · obtain ⟨pool, hpool⟩ := exists_pool_of_mem_keys hid
    obtain ⟨pool', hpool', hle⟩ := h.pools id pool hpool
    exact ⟨pool, pool', by rw [pool?_store, hpool], by rw [pool?_store, hpool'], hle⟩
  · obtain ⟨p, hp⟩ := exists_position_of_mem_keys hid
    obtain ⟨p', hp', hprecedes⟩ := h.positions id p hp
    exact ⟨p, p', by rw [position?_store, hp], by rw [position?_store, hp'], hprecedes⟩
  · rw [get?_positions_store] at hrow
    obtain ⟨p, -, rfl⟩ := Option.map_eq_some_iff.mp hrow
    show (Cell.ofFlag p.phase.isClosed).flag = true → (Cell.ofFlag p.phase.isFinalized).flag = true
    rw [Cell.flag_ofFlag, Cell.flag_ofFlag]
    cases p.phase <;> decide

end StakeLedger
