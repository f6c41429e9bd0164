import StakeLedger.Proofs.Services

/-
  The positions of a pool.
  Laws about a pool are about sums over its positions (`sumIn`). An exchange changes such a sum
  by what it changes for its one position (`sumIn_exchange`); a pool that does not exist has no
  positions, because every position has a pool (`PoolsExist`). Closings and finalizations are
  exchanges of one shape, an `Ending`: a position goes on to a phase in which it does not run,
  and its pool loses what the position contributed to its rate.
-/

namespace StakeLedger

namespace Ledger

/-- The sum of a quantity over the positions of a pool. -/
def sumIn (g : Ledger) (pool : String) (f : Position → Int) : Int :=
  g.positions.sum fun p => if p.pool = pool then f p else 0

/-- Every position has a pool. -/
def PoolsExist (g : Ledger) : Prop :=
  ∀ id p, g.positions.get? id = some p → ∃ pool, g.pools.get? p.pool = some pool

variable {g g' : Ledger} {time : Int} {delta : Delta} {p : Position} {f : Position → Int}

/-- A pool that does not exist has no positions. -/
theorem sumIn_of_no_pool {id : String} (hexist : g.PoolsExist) (h : g.pools.get? id = none) :
    g.sumIn id f = 0 := by
  unfold sumIn Table.sum
  refine List.sum_eq_zero fun x hx => ?_
  obtain ⟨entry, hentry, rfl⟩ := List.mem_map.mp hx
  obtain ⟨pool, hpool⟩ := hexist entry.1 entry.2 (Table.get?_of_mem g.ids_nodup hentry)
  refine if_neg ?_
  rintro rfl
  rw [h] at hpool
  cases hpool

/-- An exchange changes the sum over the pool by what it changes for the position. -/
theorem sumIn_exchange (h : Posting.Exchange g time delta p g')
    (hold : ∀ q, g.positions.get? p.id = some q → q.pool = p.pool) (pool : String) :
    g'.sumIn pool f = g.sumIn pool f +
      if p.pool = pool then f p - (g.positions.get? p.id).elim 0 f else 0 := by
  unfold sumIn
  rw [h.positions, Table.sum_put]
  cases hfound : g.positions.get? p.id with
  | none =>
    simp only [Option.elim_none]
    split <;> omega
  | some q =>
    simp only [Option.elim_some, hold q hfound]
    split <;> omega

/-- The pool of the position after an exchange, and all other pools. -/
theorem pools_exchange (h : Posting.Exchange g time delta p g') :
    ∃ pool changed, g.pools.get? p.pool = some pool ∧ pool.applyDelta time delta = .ok changed ∧
      ∀ id, g'.pools.get? id = if id = p.pool then some changed else g.pools.get? id := by
  obtain ⟨pool, changed, hpool, hchanged, hpools⟩ := h.pools
  refine ⟨pool, changed, hpool, hchanged, fun id => ?_⟩
  rw [hpools, Table.get?_put]

theorem positions_exchange (h : Posting.Exchange g time delta p g') (id : String) :
    g'.positions.get? id = if id = p.id then some p else g.positions.get? id := by
  rw [h.positions, Table.get?_put]

theorem PoolsExist.exchange (hexist : g.PoolsExist) (h : Posting.Exchange g time delta p g') :
    g'.PoolsExist := by
  obtain ⟨pool, changed, hpool, -, hpools⟩ := pools_exchange h
  intro id q hq
  have hpool' : ∃ pool', g.pools.get? q.pool = some pool' := by
    rw [positions_exchange h] at hq
    split at hq
    · cases hq
      exact ⟨pool, hpool⟩
    · exact hexist id q hq
  rw [hpools]
  split
  · exact ⟨changed, rfl⟩
  · exact hpool'

/-- Putting a pool takes none away. -/
theorem PoolsExist.putPool (hexist : g.PoolsExist) (key : String) (pool : Pool) :
    (g.putPool key pool).PoolsExist := by
  intro id q hq
  obtain ⟨pool', hpool'⟩ := hexist id q hq
  rw [get?_pools_putPool]
  split
  · exact ⟨pool, rfl⟩
  · exact ⟨pool', hpool'⟩

end Ledger

/-! ## Positions that end -/

/-- What a position contributes to the rate of its pool. -/
def Position.runningRate (p : Position) : Int := if p.phase = .running then p.rate.val else 0

/-- An expiry takes the rate of a running position. -/
theorem Purge.rate_of_expiredDelta {p : Position} {view : Lockup.View} {now : Int} {delta : Delta}
    (hphase : p.phase = .running) (h : expiredDelta p view now = .ok delta) :
    delta.rate = -p.runningRate := by
  obtain ⟨-, rfl⟩ := expiredDelta_eq_ok_iff.mp h
  rw [Position.runningRate, if_pos hphase]

/-- A closing takes the rate of a position that still runs, and of no other. -/
theorem Service.Pools.rate_of_closingDelta {p : Position} {view : Lockup.View} {now amount : Int}
    {delta : Delta} (h : closingDelta p view now amount = .ok delta) :
    delta.rate = -p.runningRate := by
  rcases closingDelta_eq_ok_iff.mp h with ⟨hphase, rfl⟩ | ⟨hphase, expired, hexpired, rfl⟩
  · rw [Position.runningRate, if_neg hphase, neg_zero]
  · show expired.rate = -p.runningRate
    exact Purge.rate_of_expiredDelta hphase hexpired

/-- A state of a position and a later one. -/
structure Position.Precedes (p q : Position) : Prop where
  pool_eq : q.pool = p.pool
  index_eq : q.index = p.index
  rate_eq : q.rate = p.rate
  finalized : p.phase.isFinalized = true → q.phase.isFinalized = true
  closed : p.phase.isClosed = true → q.phase.isClosed = true

namespace Position.Precedes

variable {p q r : Position}

theorem refl (p : Position) : p.Precedes p := ⟨rfl, rfl, rfl, fun h => h, fun h => h⟩

theorem trans (h : p.Precedes q) (h' : q.Precedes r) : p.Precedes r where
  pool_eq := h'.pool_eq.trans h.pool_eq
  index_eq := h'.index_eq.trans h.index_eq
  rate_eq := h'.rate_eq.trans h.rate_eq
  finalized := h'.finalized ∘ h.finalized
  closed := h'.closed ∘ h.closed

/-- Two states of a position that each come before the other are one. -/
theorem antisymm (h : p.Precedes q) (h' : q.Precedes p) (hid : p.id = q.id) : p = q := by
  have hphase : p.phase = q.phase := by
    have hfinalized := Bool.eq_iff_iff.mpr ⟨h.finalized, h'.finalized⟩
    have hclosed := Bool.eq_iff_iff.mpr ⟨h.closed, h'.closed⟩
    revert hfinalized hclosed
    cases p.phase <;> cases q.phase <;> decide
  obtain ⟨id, pool, index, rate, phase, hrange⟩ := p
  obtain ⟨id', pool', index', rate', phase', hrange'⟩ := q
  obtain ⟨rfl, rfl, rfl⟩ := And.intro h.pool_eq (And.intro h.index_eq h.rate_eq)
  cases hid
  cases hphase
  rfl

/-- A position that has gone on to another phase does not run. -/
theorem not_running (h : p.Precedes q) (hphase : q.phase ≠ p.phase) : q.phase ≠ .running := by
  intro hrunning
  have hbefore : p.phase = .running := by
    rw [← Phase.isFinalized_eq_false_iff, Bool.eq_false_iff]
    intro hfinalized
    have hafter := h.finalized hfinalized
    rw [hrunning] at hafter
    cases hafter
  exact hphase (hrunning.trans hbefore.symm)

/-- Closing comes last. -/
theorem of_closed (p : Position) : p.Precedes { p with phase := .closed } :=
  ⟨rfl, rfl, rfl, fun _ => rfl, fun _ => rfl⟩

/-- Running comes first. -/
theorem of_running (h : p.phase = .running) (phase : Phase) :
    p.Precedes { p with phase := phase } := by
  refine ⟨rfl, rfl, rfl, ?_, ?_⟩ <;> rw [h] <;> exact nofun

end Position.Precedes

namespace Posting

variable {g g' : Ledger} {id : String}

/-- A position goes on to a phase in which it does not run, and its pool takes a delta that
takes away what the position contributed to its rate. -/
structure Ending (g : Ledger) (p q : Position) (g' : Ledger) : Prop where
  found : g.positions.get? q.id = some p
  precedes : p.Precedes q
  not_running : q.phase ≠ .running
  exchange : ∃ time delta, Exchange g time delta q g' ∧ delta.rate = -p.runningRate

/-- A closing takes the rate of a position that still runs, and of no other. -/
theorem ending_of_close {registrar : Registrar} {amount : Int} {pool : Pool}
    (h : (closePosition registrar id amount).run g = .ok (pool, g')) :
    ∃ p q, Ending g p q g' ∧ q.id = id := by
  obtain ⟨p, l, delta, hp, -, -, hdelta, hexchange, -⟩ := exchange_of_close h
  have hid : p.id = id := Ledger.id_of_get? hp
  have hrate : delta.rate = -p.runningRate := Service.Pools.rate_of_closingDelta hdelta
  refine ⟨p, { p with phase := .closed }, ⟨?_, .of_closed p, nofun, _, _, hexchange, hrate⟩, hid⟩
  rw [← hp, ← hid]

/-- Processing finalizes a running position or does nothing. -/
theorem ending_of_process {registrar : Registrar} {policy : Purge.Policy}
    {r : Position × Purge.Decision} (h : (process registrar policy id).run g = .ok (r, g')) :
    g' = g ∨ ∃ p q, Ending g p q g' ∧ q.id = id := by
  rcases exchange_of_process h with hsame | ⟨p, l, delta, hp, hphase, -, -, hdelta, hexchange, -⟩
  · exact Or.inl hsame
  have hid : p.id = id := Ledger.id_of_get? hp
  have hrate : delta.rate = -p.runningRate := Purge.rate_of_expiredDelta hphase hdelta
  refine Or.inr ⟨p, { p with phase := .finalized },
    ⟨?_, .of_running hphase _, nofun, _, _, hexchange, hrate⟩, hid⟩
  rw [← hp, ← hid]

end Posting

/-! ## The positions of a store -/

theorem sum_filter_eq_sum_ite {α : Type} (l : List α) (keep : α → Prop) [DecidablePred keep]
    (f : α → Int) :
    ((l.filter fun a => keep a).map f).sum = (l.map fun a => if keep a then f a else 0).sum := by
  induction l with
  | nil => rfl
  | cons a rest ih =>
    rw [List.map_cons, List.sum_cons, ← ih]
    by_cases h : keep a
    · rw [List.filter_cons_of_pos (by simpa using h), if_pos h, List.map_cons, List.sum_cons]
    · rw [List.filter_cons_of_neg (by simpa using h), if_neg h, zero_add]

namespace Ledger

/-- All positions of a ledger. -/
def allPositions (g : Ledger) : List Position := g.positions.entries.map (·.2)

theorem ids_allPositions (g : Ledger) : g.allPositions.map (·.id) = g.positions.keys := by
  rw [allPositions, List.map_map]
  exact List.map_congr_left fun entry hentry => g.keyed entry hentry

theorem get?_of_mem_allPositions {g : Ledger} {p : Position} (h : p ∈ g.allPositions) :
    g.positions.get? p.id = some p := by
  obtain ⟨entry, hentry, rfl⟩ := List.mem_map.mp h
  rw [g.keyed entry hentry]
  exact Table.get?_of_mem g.ids_nodup hentry

/-- A sum over those positions of a pool that are picked out. -/
theorem sum_allPositions (g : Ledger) (id : String) (keep : Position → Prop) [DecidablePred keep]
    (f : Position → Int) :
    ((g.allPositions.filter fun p => p.pool = id ∧ keep p).map f).sum =
      g.sumIn id fun p => if keep p then f p else 0 := by
  rw [sum_filter_eq_sum_ite g.allPositions fun p => p.pool = id ∧ keep p, allPositions,
    List.map_map, sumIn, Table.sum]
  refine congrArg List.sum (List.map_congr_left fun entry _ => ?_)
  simp only [Function.comp_apply, ite_and]

theorem exists_pool_of_mem_keys {g : Ledger} {id : String} (h : id ∈ g.store.pools.keys) :
    ∃ pool, g.pools.get? id = some pool := by
  apply Table.exists_get?_of_mem_keys
  obtain ⟨entry, hentry, rfl⟩ := List.mem_map.mp h
  obtain ⟨entry', hentry', rfl⟩ := List.mem_map.mp hentry
  exact List.mem_map.mpr ⟨entry', hentry', rfl⟩

end Ledger

end StakeLedger
