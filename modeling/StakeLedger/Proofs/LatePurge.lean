import StakeLedger.Proofs.Finalization

/-
  Late purges.
  A purge first charges the pool the decay up to its own time and checks the balance, and only
  then gives back what was charged after the expiry. So a purge that was possible may become
  impossible: once the balance, falling at a rate that should be gone, is used up. Up to that
  time lateness changes nothing in what the purge leaves, and after it the balance is the only
  thing that stands in the way (`decision_of_drained`).
-/

namespace StakeLedger.Purge

/-- A purge that was possible at one time is possible at every later time to which the pool it
would have left can be rolled forward, as long as the products stay within 64 signed bits. -/
def LatenessHarmless : Prop :=
  ∀ (policy : Policy) (p : Position) (pool : Pool) (l : Lockup) (early late : Int)
    (f : Finalization) (rolled : Pool),
    p.phase = .running → l.kind ≠ .constant → max pool.asOf l.stop ≤ early → early ≤ late →
    decision policy p pool l.view early = .ok (.finalize f) →
    f.pool.rollForward late = .ok rolled →
    (late - pool.asOf) * pool.rate.val ≤ signedMax → p.rate.val * (late - l.stop) ≤ signedMax →
    ∃ f', decision policy p pool l.view late = .ok (.finalize f')

/-- A position that falls by 10 each second. -/
def solePosition : Position := .running "sole" "pool" 0 10

/-- A lockup up to 100. -/
def soleLockup : Lockup := .lasting .cliff 0 100

/-- A pool that holds some balance at time zero, and the rate of the sole position. -/
def solePool (balance : Nat) : Pool := ⟨.capped balance, solePosition.rate, 0⟩

/-- A position that uses up the whole pool exactly at the stop of its lockup can be purged then,
and no second later. -/
theorem not_latenessHarmless : ¬ LatenessHarmless := by
  intro h
  obtain ⟨f, hf⟩ := h {} solePosition (solePool 1000) soleLockup 100 101 _ _ rfl (by decide)
    (by decide) (by decide) rfl rfl (by decide) (by decide)
  cases hf

variable {policy : Policy} {p : Position} {pool : Pool} {l : Lockup} {now : Int}

/-- Once the balance is used up, a purge fails for that reason. -/
theorem decision_of_drained (hdue : Due p l now) (hle : pool.asOf ≤ now)
    (hmax : p.rate.val * (now - l.stop) ≤ amountMax) (hsigned : pool.decay now ≤ signedMax)
    (hdrained : pool.staked.val < pool.decay now) :
    decision policy p pool l.view now =
      .error (.outOfRange "staked_amount" (pool.staked.val - pool.decay now)) := by
  obtain ⟨hphase, hkind, hstop⟩ := hdue
  have hexpired : l.view.isExpired now = true := (Lockup.isExpired_iff hkind).mpr hstop
  have hsince : l.view.secondsSinceExpiry now = now - l.stop :=
    Lockup.secondsSinceExpiry_of_stop_le hkind hstop
  have hdelta : expiredDelta p l.view now =
      .ok ⟨-p.rate.val, p.rate.val * (now - l.stop)⟩ := by
    rw [expiredDelta_eq_ok_iff, hsince]
    exact ⟨⟨Int.mul_nonneg p.rate.nonneg (by omega), hmax⟩, rfl⟩
  unfold decision
  rw [hphase, if_neg (by decide), if_neg (by simp [hexpired]), hdelta]
  simp only [bind, Except.bind]
  rw [Pool.applyDelta_of_drained hle hsigned hdrained]

/-- Exactly when a purge that was possible at one time is possible later: as long as the decay
charged up to then is covered by the balance. It leaves then what the earlier purge would have
come to, and fails otherwise for want of balance. -/
theorem late_decision_iff (policy : Policy) (p : Position) (pool : Pool) (l : Lockup)
    (early late : Int) (f : Finalization) (rolled : Pool) (hphase : p.phase = .running)
    (hkind : l.kind ≠ .constant) (hearly : max pool.asOf l.stop ≤ early) (hlate : early ≤ late)
    (hf : decision policy p pool l.view early = .ok (.finalize f))
    (hrolled : f.pool.rollForward late = .ok rolled)
    (hdecay : (late - pool.asOf) * pool.rate.val ≤ signedMax)
    (hrestored : p.rate.val * (late - l.stop) ≤ signedMax) :
    ((∃ f', decision policy p pool l.view late = .ok (.finalize f')) ↔
      (late - pool.asOf) * pool.rate.val ≤ pool.staked.val) ∧
    (∀ f', decision policy p pool l.view late = .ok (.finalize f') → f'.pool = rolled) ∧
    (pool.staked.val < (late - pool.asOf) * pool.rate.val →
      decision policy p pool l.view late =
        .error (.outOfRange "staked_amount"
          (pool.staked.val - (late - pool.asOf) * pool.rate.val))) := by
  have hdueEarly : Due p l early := ⟨hphase, hkind, by omega⟩
  have hdueLate : Due p l late := ⟨hphase, hkind, by omega⟩
  have hmax : p.rate.val * (late - l.stop) ≤ amountMax := le_trans hrestored (by decide)
  obtain ⟨-, hdelta, hpool, -, -⟩ := (decision_of_due hdueEarly).mp hf
  obtain ⟨-, -, -, hfrate, -, -⟩ := Pool.applyDelta_eq_ok_iff.mp hpool
  obtain ⟨-, -, -, hrrate, hrasOf⟩ := Pool.rollForward_eq_ok_iff.mp hrolled
  -- the pool of the earlier purge, rolled forward, is that of the later one
  have houtlook : rolled.outlook late = pool.outlook late + p.rate.val * (late - l.stop) := by
    rw [Pool.outlook_rollForward hrolled, outlook_finalize hdueEarly hf]
  have hrate : rolled.rate.val = pool.rate.val - p.rate.val := by
    rw [hrrate, hfrate, hdelta]
    ring
  refine ⟨⟨?_, ?_⟩, ?_, ?_⟩
  · rintro ⟨f', hf'⟩
    obtain ⟨-, -, hpool', -, -⟩ := (decision_of_due hdueLate).mp hf'
    exact (Pool.applyDelta_eq_ok_iff.mp hpool').2.2.1
  · intro hcovered
    have hstaked : rolled.staked.val =
        pool.staked.val - pool.decay late + p.rate.val * (late - l.stop) := by
      rw [← Pool.outlook_asOf rolled, hrasOf, houtlook, Pool.outlook]
    have hnonneg := rolled.staked.nonneg
    have hle := rolled.staked.le_max
    have hrateNonneg := rolled.rate.nonneg
    have hrateLe := rolled.rate.le_max
    have hfits : ∃ changed, pool.applyDelta late
        ⟨-p.rate.val, p.rate.val * (late - l.stop)⟩ = .ok changed := by
      rw [Pool.exists_applyDelta_iff]
      refine ⟨by omega, hdecay, hcovered, ⟨?_, ?_⟩, ?_, ?_⟩ <;> dsimp only <;> omega
    obtain ⟨changed, hchanged⟩ := hfits
    exact ⟨⟨changed, _, _, _⟩, (decision_of_due hdueLate).mpr ⟨hmax, rfl, hchanged, rfl, rfl⟩⟩
  · intro f' hf'
    obtain ⟨-, hdelta', hpool', -, -⟩ := (decision_of_due hdueLate).mp hf'
    obtain ⟨-, -, -, hrate', -, hasOf'⟩ := Pool.applyDelta_eq_ok_iff.mp hpool'
    refine Pool.eq_of_outlook late (hasOf'.trans hrasOf.symm) ?_ ?_
    · rw [hrate', hdelta', hrate]
      ring
    · rw [outlook_finalize hdueLate hf', houtlook]
  · intro hdrained
    exact decision_of_drained hdueLate (by omega) hmax hdecay hdrained

/-- Of two pools that differ in their balance only, both can be purged at 100; one second later
only the one with enough left for that second can. -/
theorem late_decision_iff_drained_or_covered :
    (∃ f rolled, decision {} solePosition (solePool 1000) soleLockup.view 100 =
          .ok (.finalize f) ∧ f.pool.rollForward 101 = .ok rolled ∧
        (101 - 0) * (10 : Int) ≤ signedMax ∧ 10 * (101 - 100 : Int) ≤ signedMax ∧
        decision {} solePosition (solePool 1000) soleLockup.view 101 =
          .error (.outOfRange "staked_amount" (-10))) ∧
    (∃ f rolled f', decision {} solePosition (solePool 1010) soleLockup.view 100 =
          .ok (.finalize f) ∧ f.pool.rollForward 101 = .ok rolled ∧
        decision {} solePosition (solePool 1010) soleLockup.view 101 = .ok (.finalize f') ∧
        f'.pool = rolled) := by
  have hdrained := late_decision_iff {} solePosition (solePool 1000) soleLockup 100 101 _ _ rfl
    (by decide) (by decide) (by decide) rfl rfl (by decide) (by decide)
  have hcovered := late_decision_iff {} solePosition (solePool 1010) soleLockup 100 101 _ _ rfl
    (by decide) (by decide) (by decide) rfl rfl (by decide) (by decide)
  refine ⟨⟨_, _, rfl, rfl, by decide, by decide, hdrained.2.2 (by decide)⟩, ?_⟩
  obtain ⟨f', hf'⟩ := hcovered.1.mpr (by decide)
  exact ⟨_, _, f', rfl, rfl, hf', hcovered.2.1 f' hf'⟩

end StakeLedger.Purge
