import StakeLedger.Proofs.Finalization

/-
  Purges of several positions of one pool, one after another.
  Each finalization raises the outlook of the pool, at every time, by an amount that depends
  on the position alone and not on when it is purged. So neither the order nor the lateness of
  purges can be seen in the pool that they leave (`visitAll_outlook`). At one instant the
  checks along the way are as strict as those of the sums (`exists_visitAll_iff`), which no
  order changes.
-/

namespace StakeLedger.Purge

/-- A position with its lockup. -/
structure Holding where
  position : Position
  lockup : Lockup
  deriving DecidableEq, Repr

namespace Holding

/-- The rate of the position. -/
def rate (h : Holding) : Int := h.position.rate.val

/-- What the position would decay by from the lockup's stop to a time. -/
def excess (time : Int) (h : Holding) : Int := h.rate * (time - h.lockup.stop)

/-- The position once it is finalized. -/
def finalized (h : Holding) : Position := { h.position with phase := .finalized }

end Holding

/-- A visit to a position at a time, at which its purge is decided on. -/
structure Visit where
  holding : Holding
  time : Int
  deriving DecidableEq, Repr

/-- Is the visited position due? -/
def Visit.Due (v : Visit) : Prop := Purge.Due v.holding.position v.holding.lockup v.time

instance (v : Visit) : Decidable v.Due :=
  inferInstanceAs (Decidable (Purge.Due _ _ _))

/-- Decides on positions one after another, each time on the pool that the visit before has
left. Gives the pool and the positions after the last visit. -/
def visitAll (policy : Policy) (pool : Pool) : List Visit → Except Fault (Pool × List Position)
  | [] => .ok (pool, [])
  | v :: rest => do
    match ← decision policy v.holding.position pool v.holding.lockup.view v.time with
    | .finalize f => do
      let (last, positions) ← visitAll policy f.pool rest
      pure (last, f.position :: positions)
    | .reschedule _ => do
      let (last, positions) ← visitAll policy pool rest
      pure (last, v.holding.position :: positions)

/-- The sum over the visited positions of what each amounts to. -/
def total (f : Holding → Int) (visits : List Visit) : Int := (visits.map fun v => f v.holding).sum

variable {policy : Policy} {pool last : Pool} {positions : List Position} {v : Visit}
  {visits rest : List Visit} {now : Int}

@[simp] theorem total_nil (f : Holding → Int) : total f [] = 0 := rfl

@[simp] theorem total_cons (f : Holding → Int) :
    total f (v :: rest) = f v.holding + total f rest := by
  simp [total]

/-- Sums do not depend on the order of the visits, nor on their times. -/
theorem total_of_perm {first second : List Visit}
    (h : (first.map Visit.holding).Perm (second.map Visit.holding)) (f : Holding → Int) :
    total f first = total f second := by
  have hsum : ((first.map Visit.holding).map f).sum = ((second.map Visit.holding).map f).sum :=
    (h.map f).sum_eq
  simpa [total, Function.comp_def] using hsum

/-- The first visit to a due position finalizes it; the others follow from the pool it leaves. -/
theorem visitAll_cons_iff (hdue : v.Due) {r : Pool × List Position} :
    visitAll policy pool (v :: rest) = .ok r ↔
      ∃ f after, decision policy v.holding.position pool v.holding.lockup.view v.time =
          .ok (.finalize f) ∧
        visitAll policy f.pool rest = .ok after ∧ r = (after.1, f.position :: after.2) := by
  rw [visitAll, bind_eq_ok_iff]
  constructor
  · rintro ⟨d, hd, h⟩
    obtain ⟨f, rfl⟩ := finalize_of_due hdue hd
    obtain ⟨after, hafter, h⟩ := bind_eq_ok_iff.mp h
    cases h
    exact ⟨f, after, hd, hafter, rfl⟩
  · rintro ⟨f, after, hd, hafter, rfl⟩
    exact ⟨_, hd, bind_eq_ok_iff.mpr ⟨after, hafter, rfl⟩⟩

/-- What a run of visits to due positions leaves: the rates of all are gone, the outlook at every
time has risen by what all would have decayed by since their lockups' stops, and all are
finalized. -/
theorem visitAll_outlook (hdue : ∀ v ∈ visits, v.Due)
    (h : visitAll policy pool visits = .ok (last, positions)) :
    last.rate.val = pool.rate.val - total Holding.rate visits ∧
      (∀ time, last.outlook time = pool.outlook time + total (Holding.excess time) visits) ∧
      positions = visits.map fun v => v.holding.finalized := by
  induction visits generalizing pool last positions with
  | nil =>
    cases h
    simp
  | cons v rest ih =>
    have hv : v.Due := hdue v List.mem_cons_self
    obtain ⟨f, after, hf, hafter, heq⟩ := (visitAll_cons_iff hv).mp h
    obtain ⟨hrate, houtlook, hpositions⟩ :=
      ih (fun w hw => hdue w (List.mem_cons_of_mem v hw)) hafter
    obtain ⟨-, hdelta, hpool, hposition, -⟩ := (decision_of_due hv).mp hf
    obtain ⟨-, -, -, hfrate, -, -⟩ := Pool.applyDelta_eq_ok_iff.mp hpool
    cases heq
    refine ⟨?_, ?_, ?_⟩
    · rw [hrate, hfrate, hdelta, total_cons, Holding.rate]
      ring
    · intro time
      rw [houtlook, outlook_finalize hv hf, total_cons, Holding.excess, Holding.rate]
      ring
    · rw [hpositions, hposition]
      rfl

/-! ## Visits at one instant -/

/-- Visits begin with rolling the pool forward. -/
theorem exists_visitAll_cons_iff (hdue : v.Due) :
    (∃ r, visitAll policy pool (v :: rest) = .ok r) ↔
      ∃ rolled, pool.rollForward v.time = .ok rolled ∧
        ∃ r, visitAll policy rolled (v :: rest) = .ok r := by
  simp only [visitAll_cons_iff hdue, decision_of_due hdue]
  constructor
  · rintro ⟨r, f, after, ⟨hmax, hdelta, hpool, hposition, hsince⟩, hafter, hr⟩
    obtain ⟨hle, hsigned, hstaked, -⟩ := Pool.applyDelta_eq_ok_iff.mp hpool
    obtain ⟨rolled, hrolled⟩ := Pool.exists_rollForward_iff.mpr ⟨hle, hsigned, hstaked⟩
    rw [← Pool.applyDelta_rollForward hrolled] at hpool
    exact ⟨rolled, hrolled, r, f, after, ⟨hmax, hdelta, hpool, hposition, hsince⟩, hafter, hr⟩
  · rintro ⟨rolled, hrolled, r, f, after, ⟨hmax, hdelta, hpool, hposition, hsince⟩, hafter, hr⟩
    rw [Pool.applyDelta_rollForward hrolled] at hpool
    exact ⟨r, f, after, ⟨hmax, hdelta, hpool, hposition, hsince⟩, hafter, hr⟩

theorem total_nonneg {f : Holding → Int} (h : ∀ v ∈ visits, 0 ≤ f v.holding) :
    0 ≤ total f visits := by
  induction visits with
  | nil => simp
  | cons v rest ih =>
    have := h v List.mem_cons_self
    have := ih fun w hw => h w (List.mem_cons_of_mem v hw)
    rw [total_cons]
    omega

theorem excess_nonneg (hdue : v.Due) : 0 ≤ v.holding.excess v.time :=
  Int.mul_nonneg v.holding.position.rate.nonneg (by have := hdue.2.2; omega)

/-- At the instant of the pool itself, visits end well exactly if each restored amount is one,
and the rates and the balance are right at the end: in between, neither is further off. -/
theorem exists_visitAll_iff (hdue : ∀ v ∈ visits, v.Due) (htime : ∀ v ∈ visits, v.time = now)
    (hasOf : pool.asOf = now) :
    (∃ r, visitAll policy pool visits = .ok r) ↔
      (∀ v ∈ visits, v.holding.excess now ≤ amountMax) ∧
        total Holding.rate visits ≤ pool.rate.val ∧
        pool.staked.val + total (Holding.excess now) visits ≤ amountMax := by
  induction visits generalizing pool with
  | nil =>
    have := pool.rate.nonneg
    have := pool.staked.le_max
    simp [visitAll, *]
  | cons v rest ih =>
    have hv : v.Due := hdue v List.mem_cons_self
    have hrest : ∀ w ∈ rest, w.Due := fun w hw => hdue w (List.mem_cons_of_mem v hw)
    have hvnow : v.time = now := htime v List.mem_cons_self
    have htimes : ∀ w ∈ rest, w.time = now := fun w hw => htime w (List.mem_cons_of_mem v hw)
    have hdecay : pool.decay now = 0 := by rw [← hasOf, Pool.decay_asOf]
    have hrates : 0 ≤ total Holding.rate rest :=
      total_nonneg fun w _ => w.holding.position.rate.nonneg
    have hexcesses : 0 ≤ total (Holding.excess now) rest :=
      total_nonneg fun w hw => htimes w hw ▸ excess_nonneg (hrest w hw)
    have hexcess : 0 ≤ v.holding.excess now := hvnow ▸ excess_nonneg hv
    simp only [visitAll_cons_iff hv, decision_of_due hv, List.forall_mem_cons, total_cons]
    rw [hvnow]
    constructor
    · rintro ⟨r, f, after, ⟨hmax, hdelta, hpool, -, -⟩, hafter, -⟩
      obtain ⟨-, -, -, hfrate, hfstaked, hfasOf⟩ := Pool.applyDelta_eq_ok_iff.mp hpool
      obtain ⟨hall, hsum, htotal⟩ := (ih hrest htimes hfasOf).mp ⟨after, hafter⟩
      rw [hdelta] at hfrate hfstaked
      simp only [Holding.excess, Holding.rate] at *
      exact ⟨⟨hmax, hall⟩, by omega, by omega⟩
    · rintro ⟨⟨hmax, hall⟩, hsum, htotal⟩
      have hbalance := pool.staked.nonneg
      have hrate := pool.rate.le_max
      have hvrate := v.holding.position.rate.nonneg
      have hsigned : (0 : Int) ≤ signedMax := by decide
      simp only [Holding.excess, Holding.rate] at hmax hsum htotal hexcess
      have hfits : ∃ changed, pool.applyDelta now ⟨-v.holding.position.rate.val,
          v.holding.position.rate.val * (now - v.holding.lockup.stop)⟩ = .ok changed := by
        rw [Pool.exists_applyDelta_iff, hdecay]
        dsimp only
        refine ⟨hasOf.le, hsigned, hbalance, ⟨?_, ?_⟩, ?_, ?_⟩ <;> omega
      obtain ⟨changed, hchanged⟩ := hfits
      obtain ⟨-, -, -, hcrate, hcstaked, hcasOf⟩ := Pool.applyDelta_eq_ok_iff.mp hchanged
      have hafter := (ih hrest htimes hcasOf).mpr
        ⟨hall, by dsimp only at hcrate; omega, by dsimp only at hcstaked; omega⟩
      obtain ⟨after, hafter⟩ := hafter
      exact ⟨_, ⟨changed, _, _, _⟩, after, ⟨hmax, rfl, hchanged, rfl, rfl⟩, hafter, rfl⟩

/-- Visits at one instant that end well in one order end well in every order. -/
theorem exists_visitAll_of_perm {first second : List Visit}
    (hperm : (first.map Visit.holding).Perm (second.map Visit.holding))
    (hfirst : ∀ v ∈ first, v.Due) (hsecond : ∀ v ∈ second, v.Due)
    (hfirstTime : ∀ v ∈ first, v.time = now) (hsecondTime : ∀ v ∈ second, v.time = now)
    (h : ∃ r, visitAll policy pool first = .ok r) : ∃ r, visitAll policy pool second = .ok r := by
  cases first with
  | nil =>
    have hnil : second = [] := by simpa using hperm.symm
    subst hnil
    exact h
  | cons v rest =>
    cases second with
    | nil => simp at hperm
    | cons w others =>
      have hv := hfirstTime v List.mem_cons_self
      have hw := hsecondTime w List.mem_cons_self
      obtain ⟨rolled, hrolled, h⟩ :=
        (exists_visitAll_cons_iff (hfirst v List.mem_cons_self)).mp h
      obtain ⟨-, -, -, -, hasOf⟩ := Pool.rollForward_eq_ok_iff.mp hrolled
      obtain ⟨hall, hsum, htotal⟩ :=
        (exists_visitAll_iff hfirst hfirstTime (hasOf.trans hv)).mp h
      refine (exists_visitAll_cons_iff (hsecond w List.mem_cons_self)).mpr
        ⟨rolled, by rw [hw, ← hv]; exact hrolled,
          (exists_visitAll_iff hsecond hsecondTime (hasOf.trans hv)).mpr ⟨?_, ?_, ?_⟩⟩
      · intro u hu
        have hmem : u.holding ∈ (v :: rest).map Visit.holding :=
          hperm.mem_iff.mpr (List.mem_map_of_mem hu)
        obtain ⟨u', hu', heq⟩ := List.mem_map.mp hmem
        exact heq ▸ hall u' hu'
      · rw [← total_of_perm hperm]
        exact hsum
      · rw [← total_of_perm hperm]
        exact htotal

/-- The order and the lateness of purges do not matter. Two runs of visits to the same due
positions, each in its own order and at its own times, that both end well leave pools that agree
wherever both can be rolled forward to, and all positions finalized. At one instant, a run that
ends well does so in every order. -/
theorem visitAll_of_perm (policy : Policy) (pool : Pool) (first second : List Visit)
    (hperm : (first.map Visit.holding).Perm (second.map Visit.holding))
    (hfirst : ∀ v ∈ first, v.Due) (hsecond : ∀ v ∈ second, v.Due) :
    (∀ (last₁ last₂ : Pool) (positions₁ positions₂ : List Position) (time : Int)
      (rolled₁ rolled₂ : Pool),
      visitAll policy pool first = .ok (last₁, positions₁) →
      visitAll policy pool second = .ok (last₂, positions₂) →
      last₁.rollForward time = .ok rolled₁ → last₂.rollForward time = .ok rolled₂ →
      rolled₁ = rolled₂ ∧
        (positions₁ = first.map fun v => v.holding.finalized) ∧
        positions₂ = second.map fun v => v.holding.finalized) ∧
    ∀ now, (∀ v ∈ first, v.time = now) → (∀ v ∈ second, v.time = now) →
      (∃ r, visitAll policy pool first = .ok r) → ∃ r, visitAll policy pool second = .ok r := by
  constructor
  · intro last₁ last₂ positions₁ positions₂ time rolled₁ rolled₂ h₁ h₂ hrolled₁ hrolled₂
    obtain ⟨hrate₁, houtlook₁, hpositions₁⟩ := visitAll_outlook hfirst h₁
    obtain ⟨hrate₂, houtlook₂, hpositions₂⟩ := visitAll_outlook hsecond h₂
    obtain ⟨-, -, -, hr₁, ha₁⟩ := Pool.rollForward_eq_ok_iff.mp hrolled₁
    obtain ⟨-, -, -, hr₂, ha₂⟩ := Pool.rollForward_eq_ok_iff.mp hrolled₂
    refine ⟨Pool.eq_of_outlook time (ha₁.trans ha₂.symm) ?_ ?_, hpositions₁,
      hpositions₂⟩
    · rw [hr₁, hr₂, hrate₁, hrate₂, total_of_perm hperm]
    · rw [Pool.outlook_rollForward hrolled₁, Pool.outlook_rollForward hrolled₂, houtlook₁,
        houtlook₂, total_of_perm hperm]
  · intro now hfirstTime hsecondTime h
    exact exists_visitAll_of_perm hperm hfirst hsecond hfirstTime hsecondTime h

/-- A holding that stops at 20. -/
def shortHolding : Holding := ⟨.running "short" "pool" 0 10, .lasting .cliff 0 20⟩

/-- A holding that stops at 30. -/
def longHolding : Holding := ⟨.running "long" "pool" 1 5, .lasting .unlocked 0 30⟩

/-- A pool with the rates of both. -/
def sharedPool : Pool := ⟨.capped 1000, .capped 15, 0⟩

/-- The shorter holding first, a little late, or last and very late: at time 70 no trace of the
difference is left. And both orders work at time 60. -/
theorem visitAll_of_perm_two :
    ([(⟨shortHolding, 25⟩ : Visit), ⟨longHolding, 40⟩].map Visit.holding).Perm
        ([(⟨longHolding, 35⟩ : Visit), ⟨shortHolding, 60⟩].map Visit.holding) ∧
      (∀ v ∈ [(⟨shortHolding, 25⟩ : Visit), ⟨longHolding, 40⟩], v.Due) ∧
      (∀ v ∈ [(⟨longHolding, 35⟩ : Visit), ⟨shortHolding, 60⟩], v.Due) ∧
      (∃ last₁ last₂ positions₁ positions₂ rolled,
        visitAll {} sharedPool [⟨shortHolding, 25⟩, ⟨longHolding, 40⟩] =
          .ok (last₁, positions₁) ∧
        visitAll {} sharedPool [⟨longHolding, 35⟩, ⟨shortHolding, 60⟩] =
          .ok (last₂, positions₂) ∧
        last₁ ≠ last₂ ∧
        last₁.rollForward 70 = .ok rolled ∧ last₂.rollForward 70 = .ok rolled ∧
        positions₁ = [shortHolding.finalized, longHolding.finalized] ∧
        positions₂ = [longHolding.finalized, shortHolding.finalized]) ∧
      ∃ r, visitAll {} sharedPool [⟨longHolding, 60⟩, ⟨shortHolding, 60⟩] = .ok r := by
  have hperm : ∀ s t u w : Int,
      ([(⟨shortHolding, s⟩ : Visit), ⟨longHolding, t⟩].map Visit.holding).Perm
        ([(⟨longHolding, u⟩ : Visit), ⟨shortHolding, w⟩].map Visit.holding) :=
    fun _ _ _ _ => List.Perm.swap _ _ _
  have hapart := visitAll_of_perm {} sharedPool [⟨shortHolding, 25⟩, ⟨longHolding, 40⟩]
    [⟨longHolding, 35⟩, ⟨shortHolding, 60⟩] (hperm _ _ _ _) (by decide) (by decide)
  have htogether := visitAll_of_perm {} sharedPool [⟨shortHolding, 60⟩, ⟨longHolding, 60⟩]
    [⟨longHolding, 60⟩, ⟨shortHolding, 60⟩] (hperm _ _ _ _) (by decide) (by decide)
  refine ⟨hperm _ _ _ _, by decide, by decide, ?_, ?_⟩
  · obtain ⟨heq, hpositions₁, hpositions₂⟩ := hapart.1 _ _ _ _ 70 _ _ rfl rfl rfl rfl
    exact ⟨_, _, _, _, _, rfl, rfl, by decide, rfl, heq ▸ rfl, hpositions₁, hpositions₂⟩
  · exact htogether.2 60 (by decide) (by decide) ⟨_, rfl⟩

end StakeLedger.Purge
