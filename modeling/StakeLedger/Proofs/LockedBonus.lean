import StakeLedger.Proofs.VotingPower

/-
  The bonus of a locked amount.
  Between two weights that are amounts and in order, the bonus never leaves its bounds, whatever
  the saturations and the times (`bonus_bounds`, `least_le_bonus`). So the check of the locked
  weight cannot fail, and only the sum of baseline and bonus can be too large
  (`votingPower_of_consistent`, `votingPower_within`).
  The kind of a lockup has no part in the bonus but for a constant one: an unlocked deposit before
  the stop of its lockup has that of a cliff (`votingPower_of_cliff`). It has no more than its
  baseline from the stop on, or if there is no bonus to have (`votingPower_of_unlocked`).
-/

namespace StakeLedger

namespace Lockup

variable {l : Lockup} {now : Int} {w : Weighting}

/-- Where time is left, and as much as the minimum saturation, the weight is not below the least. -/
theorem least_le_lockedWeight (hw : w.InOrder) (hrunning : l.isExpired now = false)
    (hleft : w.minSaturation ≤ l.secondsLeft now) : w.least ≤ l.lockedWeight now w := by
  have hpos := secondsLeft_pos hrunning
  have hlong : ¬w.TooShort (l.secondsLeft now) := by
    rintro (hzero | ⟨-, hshort⟩) <;> omega
  obtain ⟨hmost, hshared⟩ := lockedWeight_of_long hw hlong
  by_cases hsaturated : w.Saturated (l.secondsLeft now)
  · rw [hmost hsaturated]
    exact hw.2
  · rw [hshared hsaturated, Weighting.shared]
    have hsaturation : 0 < w.saturation := by
      simp only [Weighting.Saturated] at hsaturated
      omega
    have hway : 0 ≤ (w.most - w.least) * l.secondsLeft now / w.saturation :=
      Int.ediv_nonneg (Int.mul_nonneg (by have := hw.2; omega) hpos.le) hsaturation.le
    omega

theorem secondsLeft_of_runsDown (hkind : l.kind ≠ .constant) :
    l.secondsLeft now = max 0 (l.stop - now) := by
  unfold secondsLeft
  split
  · contradiction
  · rfl

/-- The weight of a lockup that runs down depends on its stop and not on its kind. -/
theorem lockedWeight_congr {l' : Lockup} (hkind : l.kind ≠ .constant) (hkind' : l'.kind ≠ .constant)
    (hstop : l.stop = l'.stop) : l.lockedWeight now w = l'.lockedWeight now w := by
  have hleft : l.secondsLeft now = l'.secondsLeft now := by
    rw [secondsLeft_of_runsDown hkind, secondsLeft_of_runsDown hkind', hstop]
  unfold lockedWeight isExpired
  rw [hleft]

end Lockup

namespace Mint

/-- The two weights of a locked amount are amounts, and the least is not above the greatest. -/
structure Consistent (m : Mint) (locked : Int) (least most : Amount) : Prop where
  leastLocked : m.leastLocked locked = .ok least
  mostLocked : m.mostLocked locked = .ok most
  inOrder : least.val ≤ most.val

/-- What a lockup gives for a locked amount with two weights. -/
def bonus (m : Mint) (l : Lockup) (now : Int) (least most : Amount) : Int :=
  l.view.lockedWeight now ⟨least.val, most.val, m.saturation, m.minSaturation⟩

variable {m : Mint} {l : Lockup} {deposited locked now power : Int} {baseline least most : Amount}

/-- What comes of a voting power once the three weights are amounts. -/
theorem votingPower_of_weights (h : ¬m.Excludes l) (hbaseline : m.baseline deposited = .ok baseline)
    (hleast : m.leastLocked locked = .ok least) (hmost : m.mostLocked locked = .ok most) :
    m.votingPower l.view deposited locked now =
      if most.val < m.bonus l now least most then
        .error (.lockedAboveMost (m.bonus l now least most) most.val)
      else if amountMax < baseline.val + m.bonus l now least most then
        .error (.powerTooLarge baseline.val (m.bonus l now least most))
      else .ok (baseline.val + m.bonus l now least most) := by
  have hincluded : ¬(0 < m.minSaturation ∧ l.view.kind = .unlocked) := h
  unfold votingPower
  rw [if_neg hincluded, hbaseline, hleast, hmost]
  rfl

/-! ## Within the bounds -/

theorem bonus_bounds (l : Lockup) (now : Int) (h : m.Consistent locked least most) :
    0 ≤ m.bonus l now least most ∧ m.bonus l now least most ≤ most.val :=
  l.lockedWeight_of_inOrder now ⟨least.nonneg, h.inOrder⟩

theorem least_le_bonus (h : m.Consistent locked least most) (hrunning : l.isExpired now = false)
    (hleft : m.minSaturation ≤ l.secondsLeft now) : least.val ≤ m.bonus l now least most :=
  Lockup.least_le_lockedWeight ⟨least.nonneg, h.inOrder⟩ hrunning hleft

/-- With consistent weights only the baseline and the sum are left to be checked. -/
theorem votingPower_of_consistent (h : m.Consistent locked least most) (hincluded : ¬m.Excludes l) :
    m.votingPower l.view deposited locked now =
      m.baseline deposited >>= fun baseline =>
        if amountMax < baseline.val + m.bonus l now least most then
          .error (.powerTooLarge baseline.val (m.bonus l now least most))
        else .ok (baseline.val + m.bonus l now least most) := by
  cases hbaseline : m.baseline deposited with
  | error fault =>
    have hview : ¬(0 < m.minSaturation ∧ l.view.kind = .unlocked) := hincluded
    unfold votingPower
    rw [if_neg hview, hbaseline]
    rfl
  | ok baseline =>
    obtain ⟨-, hle⟩ := bonus_bounds l now h
    rw [votingPower_of_weights hincluded hbaseline h.leastLocked h.mostLocked,
      if_neg (not_lt.mpr hle)]
    rfl

theorem code?_of_baseline {fault : Fault} (h : m.baseline deposited = .error fault) :
    fault.code? ≠ some .votingPower := by
  rw [Amount.error_of_check h, Fault.code?_outOfRange]
  split <;> decide

/-- With consistent weights the bonus lies between zero and the greatest weight, and is not below
the least where the time left reaches the minimum saturation. A voting power lies between the
baseline and the baseline with the greatest weight, or is the zero of an unlocked deposit under a
minimum saturation. It is never refused for its bonus, and as a voting power only for a sum beyond
the amounts. -/
theorem votingPower_within (m : Mint) (l : Lockup) (deposited locked now : Int)
    (least most : Amount) (h : m.Consistent locked least most) :
    (0 ≤ m.bonus l now least most ∧ m.bonus l now least most ≤ most.val) ∧
    (l.isExpired now = false → 0 < most.val → m.minSaturation ≤ l.secondsLeft now →
      least.val ≤ m.bonus l now least most) ∧
    (∀ weight bound, m.votingPower l.view deposited locked now ≠
      .error (.lockedAboveMost weight bound)) ∧
    (∀ power, m.votingPower l.view deposited locked now = .ok power →
      m.Excludes l ∧ power = 0 ∨
      ∃ baseline, m.baseline deposited = .ok baseline ∧ baseline.val ≤ power ∧
        power ≤ baseline.val + most.val ∧ power ≤ amountMax) ∧
    (∀ fault, m.votingPower l.view deposited locked now = .error fault →
      fault.code? = some .votingPower →
      ∃ baseline, m.baseline deposited = .ok baseline ∧
        amountMax < baseline.val + m.bonus l now least most ∧
        fault = .powerTooLarge baseline.val (m.bonus l now least most)) ∧
    (∀ baseline, ¬m.Excludes l → m.baseline deposited = .ok baseline →
      baseline.val + m.bonus l now least most ≤ amountMax →
      m.votingPower l.view deposited locked now =
        .ok (baseline.val + m.bonus l now least most)) := by
  have hbounds := bonus_bounds l now h
  refine ⟨hbounds, fun hrunning _ hleft => least_le_bonus h hrunning hleft, ?_⟩
  by_cases hexcluded : m.Excludes l
  · rw [votingPower_of_excluded hexcluded]
    exact ⟨nofun, fun power hpower => .inl ⟨hexcluded, (Except.ok.inj hpower).symm⟩, nofun,
      fun _ hincluded => absurd hexcluded hincluded⟩
  · rw [votingPower_of_consistent h hexcluded]
    cases hbaseline : m.baseline deposited with
    | error fault =>
      have hcode := code?_of_baseline hbaseline
      refine ⟨?_, nofun, ?_, nofun⟩
      · rintro weight bound ⟨⟩
        exact hcode rfl
      · rintro _ ⟨⟩ hpower
        exact absurd hpower hcode
    | ok baseline =>
      simp only [bind, Except.bind]
      split
      · next hlarge =>
        refine ⟨nofun, nofun, ?_, ?_⟩
        · rintro _ ⟨⟩ -
          exact ⟨baseline, rfl, hlarge, rfl⟩
        · rintro _ - ⟨⟩ hle
          exact absurd hle (not_le.mpr hlarge)
      · next hle =>
        refine ⟨nofun, ?_, nofun, ?_⟩
        · rintro _ ⟨⟩
          exact .inr ⟨baseline, rfl, by omega, by omega, by omega⟩
        · rintro _ - ⟨⟩ -
          rfl

/-- Of 101 that are locked, between 30 and 202 are given: with 300 of 500 seconds left the bonus
is 133. -/
theorem votingPower_within_easing :
    ∃ least most : Amount, least.val = 30 ∧ most.val = 202 ∧
      easingMint.Consistent 101 least most ∧
      easingMint.bonus (Lockup.lasting .cliff 0 1000) 700 least most = 133 ∧
      least.val ≤ easingMint.bonus (Lockup.lasting .cliff 0 1000) 700 least most ∧
      easingMint.votingPower (Lockup.lasting .cliff 0 1000).view 101 101 700 = .ok (101 + 133) := by
  have hconsistent : easingMint.Consistent 101 (.capped 30) (.capped 202) :=
    ⟨rfl, rfl, by decide⟩
  obtain ⟨-, hleast, -, -, -, hok⟩ := votingPower_within easingMint (.lasting .cliff 0 1000)
    101 101 700 (.capped 30) (.capped 202) hconsistent
  exact ⟨_, _, rfl, rfl, hconsistent, rfl, hleast rfl (by decide) (by decide),
    hok (.capped 101) (fun h => nomatch h.2) rfl (by decide)⟩

/-! ## Unlocked deposits -/

/-- Unlocked deposits have no bonus: their voting power is zero under a minimum saturation and
their baseline without one. -/
def UnlockedHaveNoBonus : Prop :=
  ∀ (m : Mint) (l : Lockup) (deposited locked now power : Int), l.kind = .unlocked →
    m.votingPower l.view deposited locked now = .ok power →
    (0 < m.minSaturation → power = 0) ∧
    (m.minSaturation ≤ 0 → ∃ baseline, m.baseline deposited = .ok baseline ∧ power = baseline.val)

/-- A mint that gives up to double of a locked amount, over 500 seconds, and asks for no minimum
saturation. -/
def openMint : Mint := ⟨1000000000, 2000000000, 500, 0, 0⟩

/-- An unlocked deposit of 100 has the power 300 as long as 500 seconds are left of its lockup. -/
theorem not_unlockedHaveNoBonus : ¬UnlockedHaveNoBonus := by
  intro h
  obtain ⟨-, hbaseline⟩ := h openMint (.lasting .unlocked 0 1000) 100 100 0 300 rfl rfl
  obtain ⟨baseline, hdeposited, hpower⟩ := hbaseline (by decide)
  cases hdeposited
  exact absurd hpower (by decide)

/-- Without a minimum saturation an unlocked deposit has the voting power of one under a cliff that
stops at the same time. -/
theorem votingPower_of_cliff {l' : Lockup} (hkind : l.kind = .unlocked) (hkind' : l'.kind = .cliff)
    (hstop : l.stop = l'.stop) (hmin : m.minSaturation ≤ 0) :
    m.votingPower l.view deposited locked now = m.votingPower l'.view deposited locked now := by
  have hweight : l.view.lockedWeight now = l'.view.lockedWeight now := by
    funext w
    exact Lockup.lockedWeight_congr (by simp [hkind]) (by simp [hkind']) hstop
  have hincluded : ∀ view : Lockup.View, ¬(0 < m.minSaturation ∧ view.kind = .unlocked) := by
    rintro view ⟨hpos, -⟩
    omega
  unfold votingPower
  rw [if_neg (hincluded _), if_neg (hincluded _), hweight]

/-- The bonus of an unlocked deposit: none from the stop on, and before it what the time up to the
stop gives. -/
theorem bonus_of_unlocked (now : Int) (least most : Amount) (hkind : l.kind = .unlocked)
    (hmin : m.minSaturation ≤ 0) :
    (l.stop ≤ now ∨ most.val = 0 → m.bonus l now least most = 0) ∧
    (now < l.stop → 0 < most.val → m.bonus l now least most =
      if m.saturation ≤ l.stop - now then most.val
      else least.val + (most.val - least.val) * (l.stop - now) / m.saturation) := by
  have hrunsDown : l.kind ≠ .constant := by simp [hkind]
  constructor
  · intro hnone
    exact if_pos (hnone.imp_left (Lockup.isExpired_iff hrunsDown).mpr)
  · intro hahead hmost
    have hleft := Lockup.secondsLeft_of_lt_stop hrunsDown hahead
    have hrunning : ¬(l.isExpired now = true ∨ most.val = 0) := by
      rw [Lockup.isExpired_iff hrunsDown]
      omega
    show l.lockedWeight now _ = _
    unfold Lockup.lockedWeight
    dsimp only
    rw [if_neg hrunning, if_neg (by omega), hleft]
    by_cases hsaturated : m.saturation ≤ l.stop - now
    · rw [if_pos (.inr hsaturated), if_pos hsaturated]
    · rw [if_neg (by omega), if_neg hsaturated]

/-- The voting power of an unlocked deposit. It is zero under a minimum saturation. Without one it
is the baseline from the stop of the lockup on, or where the greatest weight is zero; before the
stop the weight for the time left is added to it, as under a cliff. -/
theorem votingPower_of_unlocked (m : Mint) (l : Lockup) (deposited locked now power : Int)
    (hkind : l.kind = .unlocked) (h : m.votingPower l.view deposited locked now = .ok power) :
    (0 < m.minSaturation → power = 0) ∧
    (m.minSaturation ≤ 0 → ∃ baseline least most, m.baseline deposited = .ok baseline ∧
      m.leastLocked locked = .ok least ∧ m.mostLocked locked = .ok most ∧
      (l.stop ≤ now ∨ most.val = 0 → power = baseline.val) ∧
      (now < l.stop → 0 < most.val → power = baseline.val +
        if m.saturation ≤ l.stop - now then most.val
        else least.val + (most.val - least.val) * (l.stop - now) / m.saturation)) := by
  constructor
  · intro hmin
    rw [votingPower_of_excluded ⟨hmin, hkind⟩] at h
    exact (Except.ok.inj h).symm
  · intro hmin
    have hincluded : ¬m.Excludes l := fun hexcluded => not_lt.mpr hmin hexcluded.1
    obtain ⟨⟨baseline, least, most, hbaseline, hleast, hmost⟩, -⟩ :=
      (votingPower_eq_ok_iff hincluded).mp h
    replace hbaseline : m.baseline deposited = .ok baseline := Amount.check_eq_ok_iff.mpr hbaseline
    replace hleast : m.leastLocked locked = .ok least := Amount.check_eq_ok_iff.mpr hleast
    replace hmost : m.mostLocked locked = .ok most := Amount.check_eq_ok_iff.mpr hmost
    have hpower : power = baseline.val + m.bonus l now least most := by
      rw [votingPower_of_weights hincluded hbaseline hleast hmost] at h
      split at h
      · cases h
      · split at h
        · cases h
        · exact (Except.ok.inj h).symm
    obtain ⟨hnone, hsome⟩ := bonus_of_unlocked now least most hkind hmin
    refine ⟨baseline, least, most, hbaseline, hleast, hmost, fun hover => ?_, fun hahead hpos => ?_⟩
    · rw [hpower, hnone hover, Int.add_zero]
    · rw [hpower, hsome hahead hpos]

/-- The deposit of 100 has the power 140 with 100 seconds left, and 100 from the stop on. -/
theorem votingPower_of_unlocked_ahead :
    openMint.votingPower (Lockup.lasting .unlocked 0 1000).view 100 100 900 = .ok 140 ∧
      openMint.votingPower (Lockup.lasting .unlocked 0 1000).view 100 100 1000 = .ok 100 ∧
      ∃ baseline least most : Amount, baseline.val = 100 ∧
        140 = baseline.val + (least.val + (most.val - least.val) * (1000 - 900) / 500) := by
  obtain ⟨-, hahead⟩ := votingPower_of_unlocked openMint (.lasting .unlocked 0 1000) 100 100 900 140
    rfl rfl
  obtain ⟨baseline, least, most, hbaseline, -, hmost, -, hpower⟩ := hahead (by decide)
  cases hbaseline
  cases hmost
  exact ⟨rfl, rfl, _, least, _, rfl, hpower (by decide) (by decide)⟩

end Mint

end StakeLedger
