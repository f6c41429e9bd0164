import StakeLedger.Proofs.Decay

/-
  A pool after any number of deltas.
  What a pool comes to with deltas that are still to be applied is a sum: its own outlook, and for
  each delta what it stakes less what its rate decays by from its time on (`rateWith`,
  `stakedWith`). Applying a delta moves it from the list into the pool and leaves the sums as they
  are (`rateWith_applyDelta`, `stakedWith_applyDelta`), so that any run of deltas ends in the pool
  that the sums describe. Deltas of one time may be netted into one (`applyDelta_combineAll`):
  this drops the checks between them and adds none.
-/

namespace StakeLedger

namespace Delta

/-- All changes together. -/
def combineAll (deltas : List Delta) : Delta := deltas.foldl combine {}

theorem foldl_combine (delta : Delta) (deltas : List Delta) :
    deltas.foldl combine delta = delta.combine (combineAll deltas) := by
  induction deltas generalizing delta with
  | nil => simp [combineAll, combine]
  | cons first rest ih =>
    rw [combineAll, List.foldl_cons, List.foldl_cons, ih, ih (combine {} first)]
    simp [combine, Int.add_assoc]

theorem combineAll_cons (delta : Delta) (deltas : List Delta) :
    combineAll (delta :: deltas) = delta.combine (combineAll deltas) := by
  rw [combineAll, List.foldl_cons, foldl_combine]
  simp [combine]

end Delta

/-- A delta with the time at which it is applied. -/
structure TimedDelta where
  time : Int
  delta : Delta
  deriving DecidableEq, Repr

/-- What a delta comes to at a time: what it stakes, less what its rate decays by from its own
time on. -/
def TimedDelta.worth (d : TimedDelta) (time : Int) : Int :=
  d.delta.staked - d.delta.rate * (time - d.time)

namespace Pool

/-- The rate of a pool with deltas still to be applied. -/
def rateWith (pool : Pool) (deltas : List TimedDelta) : Int :=
  pool.rate.val + (deltas.map (·.delta.rate)).sum

/-- The amount staked at a time in a pool with deltas still to be applied. -/
def stakedWith (pool : Pool) (deltas : List TimedDelta) (time : Int) : Int :=
  pool.staked.val - pool.rate.val * (time - pool.asOf) + (deltas.map (·.worth time)).sum

/-- Applies deltas one after another. -/
def applyAll (pool : Pool) (deltas : List TimedDelta) : Except Fault Pool :=
  deltas.foldlM (fun pool d => pool.applyDelta d.time d.delta) pool

/-- Rate and amount staked are within the range of amounts, at a time in a pool with deltas still to
be applied. -/
def InRange (pool : Pool) (deltas : List TimedDelta) (time : Int) : Prop :=
  (0 ≤ pool.rateWith deltas ∧ pool.rateWith deltas ≤ amountMax) ∧
    0 ≤ pool.stakedWith deltas time ∧ pool.stakedWith deltas time ≤ amountMax

variable {pool next last rolled : Pool} {d : TimedDelta}
  {deltas before block after rest : List TimedDelta} {now time : Int} {a b : Delta}

@[simp] theorem rateWith_nil (pool : Pool) : pool.rateWith [] = pool.rate.val := by
  simp [rateWith]

/-- Without deltas, what a pool comes to is its outlook. -/
@[simp] theorem stakedWith_nil (pool : Pool) (time : Int) :
    pool.stakedWith [] time = pool.outlook time := by
  simp [stakedWith, outlook, decay, Int.mul_comm]

theorem applyAll_cons_iff :
    pool.applyAll (d :: rest) = .ok last ↔
      ∃ next, pool.applyDelta d.time d.delta = .ok next ∧ next.applyAll rest = .ok last := by
  rw [applyAll, List.foldlM_cons, bind_eq_ok_iff]
  rfl

theorem applyAll_append_iff :
    pool.applyAll (before ++ after) = .ok last ↔
      ∃ next, pool.applyAll before = .ok next ∧ next.applyAll after = .ok last := by
  rw [applyAll, List.foldlM_append, bind_eq_ok_iff]
  rfl

/-! ## The sums -/

/-- Applying a delta leaves the sum of the rates. -/
theorem rateWith_applyDelta (h : pool.applyDelta d.time d.delta = .ok next)
    (rest : List TimedDelta) : next.rateWith rest = pool.rateWith (d :: rest) := by
  obtain ⟨-, -, -, hrate, -, -⟩ := applyDelta_eq_ok_iff.mp h
  simp only [rateWith, List.map_cons, List.sum_cons]
  omega

/-- Applying a delta leaves the sum of what pool and deltas come to, at any time. -/
theorem stakedWith_applyDelta (h : pool.applyDelta d.time d.delta = .ok next)
    (rest : List TimedDelta) (time : Int) :
    next.stakedWith rest time = pool.stakedWith (d :: rest) time := by
  obtain ⟨-, -, -, hrate, hstaked, hasOf⟩ := applyDelta_eq_ok_iff.mp h
  simp only [stakedWith, List.map_cons, List.sum_cons, TimedDelta.worth]
  rw [hrate, hstaked, hasOf, decay]
  ring

/-- A run of deltas ends with the rate that was the sum at its beginning. -/
theorem rate_of_applyAll (h : pool.applyAll deltas = .ok last) :
    last.rate.val = pool.rateWith deltas := by
  induction deltas generalizing pool with
  | nil =>
    cases h
    simp
  | cons d rest ih =>
    obtain ⟨next, hnext, hlast⟩ := applyAll_cons_iff.mp h
    rw [ih hlast, rateWith_applyDelta hnext]

/-- A run of deltas ends with the outlook that was the sum at its beginning. -/
theorem outlook_of_applyAll (h : pool.applyAll deltas = .ok last) (time : Int) :
    last.outlook time = pool.stakedWith deltas time := by
  induction deltas generalizing pool with
  | nil =>
    cases h
    simp
  | cons d rest ih =>
    obtain ⟨next, hnext, hlast⟩ := applyAll_cons_iff.mp h
    rw [ih hlast, stakedWith_applyDelta hnext]

/-- What a run of deltas comes to where it is rolled forward to. -/
theorem rolled_of_applyAll (h : pool.applyAll deltas = .ok last)
    (hroll : last.rollForward time = .ok rolled) :
    rolled.rate.val = pool.rateWith deltas ∧ rolled.staked.val = pool.stakedWith deltas time ∧
      rolled.asOf = time := by
  obtain ⟨-, -, hstaked, hrate, hasOf⟩ := rollForward_eq_ok_iff.mp hroll
  refine ⟨?_, ?_, hasOf⟩
  · rw [hrate, rate_of_applyAll h]
  · rw [← outlook_of_applyAll h, hstaked, outlook]

theorem inRange_of_applyAll (h : pool.applyAll deltas = .ok last)
    (hroll : last.rollForward time = .ok rolled) : pool.InRange deltas time := by
  obtain ⟨hrate, hstaked, -⟩ := rolled_of_applyAll h hroll
  rw [InRange, ← hrate, ← hstaked]
  exact ⟨⟨rolled.rate.nonneg, rolled.rate.le_max⟩, rolled.staked.nonneg, rolled.staked.le_max⟩

/-- Before a delta of a run is applied the pool is rolled forward, and then it is what the sums
say; so it is after the delta. -/
theorem exists_between (h : pool.applyAll (before ++ d :: after) = .ok last) :
    pool.InRange before d.time ∧ pool.InRange (before ++ [d]) d.time ∧
      ∃ next, pool.applyAll (before ++ [d]) = .ok next ∧
        next.rate.val = pool.rateWith (before ++ [d]) ∧
        next.staked.val = pool.stakedWith (before ++ [d]) d.time ∧ next.asOf = d.time := by
  obtain ⟨mid, hmid, hrest⟩ := applyAll_append_iff.mp h
  obtain ⟨next, hnext, -⟩ := applyAll_cons_iff.mp hrest
  obtain ⟨hle, hmax, hbalance, -, -, hasOf⟩ := applyDelta_eq_ok_iff.mp hnext
  obtain ⟨rolled, hrolled⟩ := exists_rollForward_iff.mpr ⟨hle, hmax, hbalance⟩
  have hrun : pool.applyAll (before ++ [d]) = .ok next :=
    applyAll_append_iff.mpr ⟨mid, hmid, applyAll_cons_iff.mpr ⟨next, hnext, rfl⟩⟩
  have hstay : next.rollForward d.time = .ok next := rollForward_of_asOf hasOf
  exact ⟨inRange_of_applyAll hmid hrolled, inRange_of_applyAll hrun hstay, next, hrun,
    rolled_of_applyAll hrun hstay⟩

/-! ## Netting -/

/-- Two deltas of one time may be applied as one. -/
theorem applyDelta_combine (h : pool.applyDelta now a = .ok next)
    (h' : next.applyDelta now b = .ok last) : pool.applyDelta now (a.combine b) = .ok last := by
  obtain ⟨hle, hmax, hbalance, hrate, hstaked, hasOf⟩ := applyDelta_eq_ok_iff.mp h
  obtain ⟨-, -, -, hrate', hstaked', hasOf'⟩ := applyDelta_eq_ok_iff.mp h'
  have hnone : next.decay now = 0 := by rw [← hasOf, decay_asOf]
  refine applyDelta_eq_ok_iff.mpr ⟨hle, hmax, hbalance, ?_, ?_, hasOf'⟩
  · rw [hrate', hrate, Delta.combine]
    ring
  · rw [hstaked', hstaked, hnone, Delta.combine]
    ring

/-- Deltas of one time may be applied as one. -/
theorem applyDelta_combineAll (h : pool.applyAll block = .ok last) (hne : block ≠ [])
    (htime : ∀ d ∈ block, d.time = now) :
    pool.applyDelta now (.combineAll (block.map (·.delta))) = .ok last := by
  induction block generalizing pool with
  | nil => exact absurd rfl hne
  | cons d rest ih =>
    obtain ⟨next, hnext, hlast⟩ := applyAll_cons_iff.mp h
    rw [htime d List.mem_cons_self] at hnext
    rw [List.map_cons, Delta.combineAll_cons]
    by_cases hrest : rest = []
    · subst hrest
      cases hlast
      simpa [Delta.combineAll, Delta.combine] using hnext
    · exact applyDelta_combine hnext
        (ih hlast hrest fun d hd => htime d (List.mem_cons_of_mem _ hd))

/-- A run of deltas with a block of one time in it ends alike if the block is netted. -/
theorem applyAll_netted (h : pool.applyAll (before ++ block ++ after) = .ok last)
    (hne : block ≠ []) (htime : ∀ d ∈ block, d.time = now) :
    pool.applyAll (before ++ ⟨now, .combineAll (block.map (·.delta))⟩ :: after) = .ok last := by
  obtain ⟨next, hnext, hafter⟩ := applyAll_append_iff.mp h
  obtain ⟨mid, hmid, hblock⟩ := applyAll_append_iff.mp hnext
  exact applyAll_append_iff.mpr
    ⟨mid, hmid, applyAll_cons_iff.mpr ⟨next, applyDelta_combineAll hblock hne htime, hafter⟩⟩

/-- The closed form of a run of deltas that ends well and is rolled forward to a time. Each delta
adds its rate, and what it stakes less what its rate decays by from its own time on; rate and
amount are within range before and after each delta. Deltas of one time that follow each other
may be replaced by one, with the same end. -/
theorem applyAll_closedForm (pool last rolled : Pool) (deltas : List TimedDelta) (time : Int)
    (h : pool.applyAll deltas = .ok last) (hroll : last.rollForward time = .ok rolled) :
    (rolled.rate.val = pool.rate.val + (deltas.map fun d => d.delta.rate).sum ∧
      rolled.staked.val = pool.staked.val - pool.rate.val * (time - pool.asOf) +
        (deltas.map fun d => d.delta.staked - d.delta.rate * (time - d.time)).sum ∧
      rolled.asOf = time) ∧
    (∀ before d after, deltas = before ++ d :: after →
      pool.InRange before d.time ∧ pool.InRange (before ++ [d]) d.time ∧
        ∃ next, pool.applyAll (before ++ [d]) = .ok next ∧
          next.rate.val = pool.rateWith (before ++ [d]) ∧
          next.staked.val = pool.stakedWith (before ++ [d]) d.time ∧ next.asOf = d.time) ∧
    ∀ before block after now, deltas = before ++ block ++ after → block ≠ [] →
      (∀ d ∈ block, d.time = now) →
      pool.applyAll (before ++ ⟨now, .combineAll (block.map (·.delta))⟩ :: after) = .ok last := by
  refine ⟨rolled_of_applyAll h hroll, ?_, ?_⟩
  · rintro before d after rfl
    exact exists_between h
  · rintro before block after now rfl hne htime
    exact applyAll_netted h hne htime

/-- A pool of 1000 that falls by 10. -/
def fallingPool : Pool := ⟨.capped 1000, .capped 10, 0⟩

/-- At 20, what falls by 4 is unstaked; at the same time 50 more is staked. -/
def exchangeAt20 : List TimedDelta := [⟨20, .unstake 4 300⟩, ⟨20, .stake 1 50⟩]

/-- A pool with a stake at 10 and an exchange at 20, by time 30; the exchange may be netted. -/
theorem applyAll_closedForm_exchange :
    ∃ last rolled, fallingPool.applyAll (⟨10, .stake 5 500⟩ :: exchangeAt20) = .ok last ∧
      last.rollForward 30 = .ok rolled ∧
      rolled.staked.val = 1000 - 10 * 30 + (500 - 5 * 20) + (-300 + 4 * 10) + (50 - 1 * 10) ∧
      fallingPool.applyAll [⟨10, .stake 5 500⟩, ⟨20, ⟨-3, -250⟩⟩] = .ok last := by
  obtain ⟨⟨-, hstaked, -⟩, -, hnetted⟩ :=
    applyAll_closedForm fallingPool _ _ (⟨10, .stake 5 500⟩ :: exchangeAt20) 30 rfl rfl
  exact ⟨_, _, rfl, rfl, hstaked,
    hnetted [⟨10, .stake 5 500⟩] exchangeAt20 [] 20 rfl (by decide) (by decide)⟩

end Pool

end StakeLedger
