import StakeLedger.Proofs.PoolPositions
import StakeLedger.Proofs.Steps

/-
  The rates of pools.
  Through every run of a session, whatever fails in it and whatever becomes of clock and
  lockups, the rate of each pool is the sum of the rates of its positions that have not been
  finalized. Of the steps only openings and endings touch a rate, and both are exchanges: the
  delta's rate is what the position's contribution grows by (`exchange`).
-/

namespace StakeLedger

namespace Ledger

variable {g g' : Ledger} {time : Int} {delta : Delta} {p q : Position}

/-- The rates of all pools are those of their running positions, and every position has a
pool. -/
structure RatesMatch (g : Ledger) : Prop where
  rate_eq : ∀ id pool, g.pools.get? id = some pool →
    pool.rate.val = g.sumIn id Position.runningRate
  poolsExist : g.PoolsExist

namespace RatesMatch

theorem empty : RatesMatch {} := by
  constructor <;> rintro _ _ ⟨⟩

/-- An exchange whose rate is what the position's contribution grows by. -/
theorem exchange (hg : g.RatesMatch) (h : Posting.Exchange g time delta p g')
    (hold : ∀ q, g.positions.get? p.id = some q → q.pool = p.pool)
    (hdelta : delta.rate =
      p.runningRate - (g.positions.get? p.id).elim 0 Position.runningRate) : g'.RatesMatch := by
  obtain ⟨before, changed, hbefore, hchanged, hpools⟩ := pools_exchange h
  obtain ⟨-, -, -, hrate, -, -⟩ := Pool.applyDelta_eq_ok_iff.mp hchanged
  refine ⟨fun id pool hpool => ?_, hg.poolsExist.exchange h⟩
  rw [sumIn_exchange h hold]
  rw [hpools] at hpool
  by_cases hid : id = p.pool
  · rw [if_pos hid] at hpool
    cases hpool
    rw [if_pos hid.symm, hrate, hdelta, hid, hg.rate_eq p.pool before hbefore]
  · rw [if_neg hid] at hpool
    rw [if_neg (Ne.symm hid), hg.rate_eq id pool hpool, add_zero]

/-- The pool loses what the position contributed, and the position contributes nothing more. -/
theorem ended (hg : g.RatesMatch) (h : Posting.Ending g p q g') : g'.RatesMatch := by
  obtain ⟨time, delta, hexchange, hdelta⟩ := h.exchange
  refine hg.exchange hexchange (fun r hr => ?_) ?_
  · cases Option.some.inj (h.found.symm.trans hr)
    exact h.precedes.pool_eq.symm
  · rw [hdelta, h.found, Option.elim_some, Position.runningRate, Position.runningRate,
      if_neg h.not_running, zero_sub]

/-- A pool is put whose rate is that of the running positions under its id. -/
theorem putPool (hg : g.RatesMatch) {key : String} {pool : Pool}
    (hrate : pool.rate.val = g.sumIn key Position.runningRate) :
    (g.putPool key pool).RatesMatch := by
  refine ⟨fun id pool' hpool => ?_, hg.poolsExist.putPool key _⟩
  rw [get?_pools_putPool] at hpool
  split at hpool
  · next hid =>
    cases hpool
    rw [hid]
    exact hrate
  · exact hg.rate_eq id pool' hpool

theorem created (hg : g.RatesMatch) {id : String} {asOf : Int} :
    ((Posting.createPool id asOf).after g).RatesMatch := by
  refine Posting.keeps hg fun pool g' hrun => ?_
  obtain ⟨hnone, rfl⟩ := Posting.run_createPool_ok hrun
  exact hg.putPool (sumIn_of_no_pool hg.poolsExist hnone).symm

theorem rolled (hg : g.RatesMatch) {id : String} :
    ((Posting.rollForward id time).after g).RatesMatch := by
  refine Posting.keeps hg fun pool g' hrun => ?_
  obtain ⟨before, hbefore, hroll, rfl⟩ := Posting.run_rollForward_ok hrun
  obtain ⟨-, -, -, hrate, -⟩ := Pool.rollForward_eq_ok_iff.mp hroll
  refine hg.putPool ?_
  rw [hrate]
  exact hg.rate_eq id before hbefore

theorem lockupStored (hg : g.RatesMatch) {position : String} {index : Int} {l : Lockup} :
    ((Posting.saveLockup position index l).after g).RatesMatch := by
  refine Posting.keeps hg fun _ g' hrun => ?_
  obtain ⟨-, rfl⟩ := Posting.run_saveLockup_ok_iff.mp hrun
  exact ⟨hg.rate_eq, hg.poolsExist⟩

theorem opened (hg : g.RatesMatch) {amount : Int} {l : Lockup} (hphase : p.phase = .running) :
    ((Posting.openPosition time p amount l).after g).RatesMatch := by
  refine Posting.keeps hg fun pool g' hrun => ?_
  obtain ⟨hnone, hexchange, -⟩ := Posting.exchange_of_open hrun
  refine hg.exchange hexchange (by simp [hnone]) ?_
  rw [hnone, Position.runningRate, if_pos hphase]
  exact (sub_zero _).symm

theorem closed (hg : g.RatesMatch) {registrar : Registrar} {id : String} {amount : Int} :
    ((Posting.closePosition registrar id amount).after g).RatesMatch := by
  refine Posting.keeps hg fun pool g' hrun => ?_
  obtain ⟨p, q, hending, -⟩ := Posting.ending_of_close hrun
  exact hg.ended hending

theorem processed (hg : g.RatesMatch) {registrar : Registrar} {policy : Purge.Policy}
    {id : String} : ((Posting.process registrar policy id).after g).RatesMatch := by
  refine Posting.keeps hg fun r g' hrun => ?_
  rcases Posting.ending_of_process hrun with rfl | ⟨p, q, hending, -⟩
  · exact hg
  · exact hg.ended hending

end RatesMatch

end Ledger

namespace Session

/-- Does a step open nothing but positions that run? -/
def Step.OpensRunning : Step → Prop
  | .openPosition p _ _ _ => p.phase = .running
  | _ => True

instance : (s : Step) → Decidable s.OpensRunning
  | .openPosition p _ _ _ => inferInstanceAs (Decidable (p.phase = .running))
  | .setClock _ | .advanceClock _ | .readClock | .registerLockup _ _ _ | .storeLockup _ _ _
  | .findLockup _ _ | .createPool _ _ | .closePosition _ _ | .poolStatus _ | .rollForward _
  | .process _ | .sweep _ | .fail _ => isTrue trivial

/-- Every step keeps the rates matching. -/
theorem ratesMatch_of_lands {s : Step} {books : Books Partners} {g g' : Ledger}
    (hs : s.OpensRunning) (hg : g.RatesMatch) (h : Lands books s g g') : g'.RatesMatch := by
  have hposted := h.posted
  cases s with
  | setClock | advanceClock | readClock | registerLockup | fail => exact hposted ▸ hg
  | storeLockup position index l => exact hposted.2 ▸ hg.lockupStored
  | findLockup position index =>
    rw [hposted.2, Posting.looks_findLockup _ _ _ g]
    exact hg
  | poolStatus id =>
    rw [hposted.2, Posting.looks_status _ _ g]
    exact hg
  | createPool id time => exact hposted.2 ▸ hg.created
  | openPosition p amount l registered => exact hposted.2 ▸ hg.opened hs
  | closePosition id amount => exact hposted.2 ▸ hg.closed
  | rollForward id => exact hposted.2 ▸ hg.rolled
  | process id => exact hposted.induction hg fun _ _ h => h.processed
  | sweep pool => exact hposted.induction hg fun _ _ h => h.processed

end Session

/-! ## The store -/

/-- A store with these positions and no others, in which the rate of each pool is the sum of the
rates of its positions that have not been finalized, and each position has a pool. -/
structure Store.RatesMatch (s : Store) (positions : List Position) : Prop where
  positions_eq : s.allPositions = .ok positions
  ids_nodup : (positions.map (·.id)).Nodup
  rate_eq : ∀ id ∈ s.pools.keys, ∃ pool, s.pool? id = .ok (some pool) ∧
    pool.rate.val = ((positions.filter fun p =>
      p.pool = id ∧ p.phase.isFinalized = false).map (·.rate.val)).sum
  pool_exists : ∀ p ∈ positions, ∃ pool, s.pool? p.pool = .ok (some pool)

theorem Ledger.RatesMatch.store {g : Ledger} (hg : g.RatesMatch) :
    g.store.RatesMatch g.allPositions := by
  refine ⟨g.allPositions_store, ?_, ?_, ?_⟩
  · rw [ids_allPositions]
    exact g.ids_nodup
  · intro id hid
    obtain ⟨pool, hpool⟩ := exists_pool_of_mem_keys hid
    refine ⟨pool, by rw [pool?_store, hpool], ?_⟩
    rw [hg.rate_eq id pool hpool, sum_allPositions g id fun p => p.phase.isFinalized = false]
    simp only [Phase.isFinalized_eq_false_iff]
    rfl
  · intro p hp
    obtain ⟨pool, hpool⟩ := hg.poolsExist p.id p (get?_of_mem_allPositions hp)
    exact ⟨pool, by rw [pool?_store, hpool]⟩

/-- After every step of every session that starts on an empty store and opens running positions
only, the rates match: whatever the registrar and the rules for purges, whatever the steps do to
the clock and the lockups, and whichever of them fail. -/
theorem Session.course_ratesMatch (partners : Partners) (steps : List Session.Step)
    (hsteps : ∀ s ∈ steps, s.OpensRunning) :
    ∀ entry ∈ course (start {} partners) steps,
      ∃ positions, entry.books.store.RatesMatch positions := by
  intro entry hentry
  obtain ⟨g, hstore, hg⟩ := forall_course (P := Ledger.RatesMatch)
    (fun s hs _ _ _ hg hlands => ratesMatch_of_lands (hsteps s hs) hg hlands)
    (start_eq {} partners).1 .empty entry hentry
  exact ⟨g.allPositions, hstore ▸ hg.store⟩

namespace Session

/-- Two positions are opened, of which one expires; it is purged late, purged again, closed, and
closed again, with the clock set back in between. -/
def purgedAndClosed : List Step :=
  [.createPool "pool" (some 0),
    .openPosition (.running "steady" "pool" 0 5) 1000 (.lasting .cliff 0 100) true,
    .openPosition (.running "brief" "pool" 1 10) 900 (.lasting .cliff 0 20) true, .setClock 30,
    .process "brief", .process "brief", .setClock 25, .closePosition "brief" 700, .setClock 40,
    .closePosition "brief" 700, .closePosition "brief" 700, .sweep "absent"]

/-- The partners at time zero, with a registrar of its own table. -/
def partnersAtZero : Partners := { registrar := { clock := { set := some 0 } } }

/-- The second purge, the closing at the earlier time, the second closing and the sweep fail; the
rates match after each of the steps, and what is left at the end is the rate of the other
position. -/
theorem course_ratesMatch_purgedAndClosed :
    (∀ s ∈ purgedAndClosed, s.OpensRunning) ∧
      (course (start {} partnersAtZero) purgedAndClosed).map (·.answer.toOption.isSome) =
        [true, true, true, true, true, false, true, false, true, true, false, false] ∧
      (booksAfter (start {} partnersAtZero) purgedAndClosed).store.pool? "pool" =
        .ok (some ⟨.capped 800, .capped 5, 40⟩) ∧
      ∀ entry ∈ course (start {} partnersAtZero) purgedAndClosed,
        ∃ positions, entry.books.store.RatesMatch positions :=
  ⟨by decide, by decide +kernel, by decide +kernel,
    course_ratesMatch partnersAtZero purgedAndClosed (by decide)⟩

end Session

end StakeLedger
