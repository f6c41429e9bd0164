import StakeLedger.Proofs.LockedWeights

/-
  Voting power by time, by term and by amount.
  The weight of a deposit is its baseline and its locked weight (`weight`). For a mint whose
  factors are in order it does not grow where less time is left or an amount is smaller
  (`weight_le`), and the weights of two deposits do not exceed that of both in one
  (`weight_add_le`): both hold of each of the amounts that are rounded down on the way. The checks
  of the voting power are upper bounds then, which a smaller weight meets where a greater one
  does (`votingPower_eq_ok_iff_of_inOrder`). So less time or less locked never costs a voting
  power but only lessens it (`votingPower_monotone`), and nothing is gained by splitting a deposit
  (`votingPower_split`).
-/

namespace StakeLedger

namespace Mint

/-! ## Weights of amounts -/

/-- The factors of a mint are in order: none is below zero, and the one for the least weight of a
locked amount is not above the one for the greatest. -/
structure InOrder (m : Mint) : Prop where
  baseline : 0 ≤ m.baselineFactor
  least : 0 ≤ m.leastFactor
  most : m.leastFactor ≤ m.mostExtraFactor

/-- The amount times a scaled factor, rounded down and not checked. -/
def scaled (amount factor : Int) : Int := amount * factor / factorBase

/-- The weights of a locked amount, not checked. -/
def weighting (m : Mint) (locked : Int) : Lockup.Weighting :=
  ⟨scaled locked m.leastFactor, scaled locked m.mostExtraFactor, m.saturation, m.minSaturation⟩

/-- The baseline of what is deposited and the weight of what is locked, not checked. -/
def weight (m : Mint) (l : Lockup) (deposited locked now : Int) : Int :=
  scaled deposited m.baselineFactor + l.lockedWeight now (m.weighting locked)

variable {m : Mint} {l l' : Lockup} {now now' deposited deposited' locked locked' power : Int}
  {amount amount' factor factor' : Int}

theorem factorBase_pos : 0 < factorBase := by decide

theorem scaled_nonneg (hamount : 0 ≤ amount) (hfactor : 0 ≤ factor) : 0 ≤ scaled amount factor :=
  Int.ediv_nonneg (Int.mul_nonneg hamount hfactor) factorBase_pos.le

theorem scaled_le_of_factor (hamount : 0 ≤ amount) (hfactor : factor ≤ factor') :
    scaled amount factor ≤ scaled amount factor' :=
  Int.ediv_le_ediv factorBase_pos (Int.mul_le_mul_of_nonneg_left hfactor hamount)

theorem scaled_le (hfactor : 0 ≤ factor) (hamount : amount' ≤ amount) :
    scaled amount' factor ≤ scaled amount factor :=
  Int.ediv_le_ediv factorBase_pos (Int.mul_le_mul_of_nonneg_right hamount hfactor)

/-- Two parts, each rounded down, are no more than the whole. -/
theorem scaled_add_le (amount amount' factor : Int) :
    scaled amount factor + scaled amount' factor ≤ scaled (amount + amount') factor := by
  unfold scaled
  rw [Int.add_mul]
  exact Int.ediv_add_ediv_le_add_ediv factorBase_pos

theorem InOrder.weighting (hm : m.InOrder) (hlocked : 0 ≤ locked) : (m.weighting locked).InOrder :=
  ⟨scaled_nonneg hlocked hm.least, scaled_le_of_factor hlocked hm.most⟩

/-- The locked weights of two parts, each rounded down three times, are no more than that of the
whole. -/
theorem lockedWeight_add_le (l : Lockup) (now : Int) (hm : m.InOrder) (hlocked : 0 ≤ locked)
    (hlocked' : 0 ≤ locked') :
    l.lockedWeight now (m.weighting locked) + l.lockedWeight now (m.weighting locked') ≤
      l.lockedWeight now (m.weighting (locked + locked')) := by
  have hpart := hm.weighting hlocked
  have hpart' := hm.weighting hlocked'
  have hwhole := hm.weighting (Int.add_nonneg hlocked hlocked')
  have hleast := scaled_add_le locked locked' m.leastFactor
  have hmost := scaled_add_le locked locked' m.mostExtraFactor
  -- the pieces of the curve do not depend on the amount: all three weights are of the same piece
  by_cases hshort : (m.weighting (locked + locked')).TooShort (l.secondsLeft now)
  · have hnone : l.lockedWeight now (m.weighting locked) = 0 :=
      Lockup.lockedWeight_of_tooShort hshort
    have hnone' : l.lockedWeight now (m.weighting locked') = 0 :=
      Lockup.lockedWeight_of_tooShort hshort
    rw [hnone, hnone', Lockup.lockedWeight_of_tooShort hshort]
    decide
  · obtain ⟨hmostPart, hsharedPart⟩ := Lockup.lockedWeight_of_long hpart hshort
    obtain ⟨hmostPart', hsharedPart'⟩ := Lockup.lockedWeight_of_long hpart' hshort
    obtain ⟨hmostWhole, hsharedWhole⟩ := Lockup.lockedWeight_of_long hwhole hshort
    by_cases hsaturated : (m.weighting (locked + locked')).Saturated (l.secondsLeft now)
    · rw [hmostPart hsaturated, hmostPart' hsaturated, hmostWhole hsaturated]
      exact hmost
    · rw [hsharedPart hsaturated, hsharedPart' hsaturated, hsharedWhole hsaturated]
      have hleft := l.secondsLeft_nonneg now
      exact Lockup.Weighting.shared_add_le rfl rfl hleft hsaturated hleast hmost

theorem lockedWeight_nonneg (l : Lockup) (now : Int) (hm : m.InOrder) (hlocked : 0 ≤ locked) :
    0 ≤ l.lockedWeight now (m.weighting locked) :=
  (l.lockedWeight_of_inOrder now (hm.weighting hlocked)).1

/-- The weight is not greater where less time is left, less is deposited and less is locked. -/
theorem weight_le (hm : m.InOrder) (hleft : l'.secondsLeft now' ≤ l.secondsLeft now)
    (hdeposited : deposited' ≤ deposited) (hnonneg : 0 ≤ locked') (hlocked : locked' ≤ locked) :
    m.weight l' deposited' locked' now' ≤ m.weight l deposited locked now := by
  have hbaseline := scaled_le hm.baseline hdeposited
  have htime := Lockup.lockedWeight_le_of_left (hm.weighting hnonneg) hleft
  have hrest : 0 ≤ locked - locked' := by omega
  have hsum : locked' + (locked - locked') = locked := by omega
  have hamount := lockedWeight_add_le l now hm hnonneg hrest
  have hothers := lockedWeight_nonneg l now hm hrest
  rw [hsum] at hamount
  unfold weight
  omega

/-- The weights of two deposits are together no more than that of both in one. -/
theorem weight_add_le (l : Lockup) (now : Int) (hm : m.InOrder) (hlocked : 0 ≤ locked)
    (hlocked' : 0 ≤ locked') :
    m.weight l deposited locked now + m.weight l deposited' locked' now ≤
      m.weight l (deposited + deposited') (locked + locked') now := by
  have hbaseline := scaled_add_le deposited deposited' m.baselineFactor
  have hamount := lockedWeight_add_le l now hm hlocked hlocked'
  unfold weight
  omega

/-! ## Voting powers -/

/-- The mint asks for a minimum saturation, and the deposit is not locked: it has no power. -/
def Excludes (m : Mint) (l : Lockup) : Prop := 0 < m.minSaturation ∧ l.kind = .unlocked

theorem votingPower_of_excluded (h : m.Excludes l) (deposited locked now : Int) :
    m.votingPower l.view deposited locked now = .ok 0 :=
  if_pos h

/-- What a voting power checks and what it comes to: each of the three weights of amounts, the
locked weight and the sum must be within its range. -/
theorem votingPower_eq_ok_iff (h : ¬m.Excludes l) :
    m.votingPower l.view deposited locked now = .ok power ↔
      (∃ baseline least most : Amount, baseline.val = scaled deposited m.baselineFactor ∧
        least.val = (m.weighting locked).least ∧ most.val = (m.weighting locked).most) ∧
      l.lockedWeight now (m.weighting locked) ≤ (m.weighting locked).most ∧
      m.weight l deposited locked now ≤ amountMax ∧ power = m.weight l deposited locked now := by
  have hincluded : ¬(0 < m.minSaturation ∧ l.view.kind = .unlocked) := h
  have hlockedWeight : ∀ least most : Amount, least.val = (m.weighting locked).least →
      most.val = (m.weighting locked).most →
      l.view.lockedWeight now ⟨least.val, most.val, m.saturation, m.minSaturation⟩ =
        l.lockedWeight now (m.weighting locked) := by
    intro least most hleast hmost
    rw [hleast, hmost]
    rfl
  unfold votingPower
  rw [if_neg hincluded]
  simp only [bind_eq_ok_iff, baseline, leastLocked, mostLocked, scale, Amount.check_eq_ok_iff]
  constructor
  · rintro ⟨baseline, hbaseline, least, hleast, most, hmost, hpower⟩
    rw [hlockedWeight least most hleast hmost, hmost, hbaseline] at hpower
    refine ⟨⟨baseline, least, most, hbaseline, hleast, hmost⟩, ?_⟩
    split at hpower
    · cases hpower
    · split at hpower
      · cases hpower
      · next hlocked hsum => exact ⟨not_lt.mp hlocked, not_lt.mp hsum, (Except.ok.inj hpower).symm⟩
  · rintro ⟨⟨baseline, least, most, hbaseline, hleast, hmost⟩, hlocked, hsum, rfl⟩
    refine ⟨baseline, hbaseline, least, hleast, most, hmost, ?_⟩
    rw [hlockedWeight least most hleast hmost, hmost, hbaseline, if_neg (not_lt.mpr hlocked)]
    exact if_neg (not_lt.mpr hsum)

/-- For a mint in order and amounts that are none below zero, only the greatest weight of the
locked amount and the sum can be out of range. -/
theorem votingPower_eq_ok_iff_of_inOrder (hm : m.InOrder) (hdeposited : 0 ≤ deposited)
    (hlocked : 0 ≤ locked) (h : ¬m.Excludes l) :
    m.votingPower l.view deposited locked now = .ok power ↔
      (m.weighting locked).most ≤ amountMax ∧ m.weight l deposited locked now ≤ amountMax ∧
        power = m.weight l deposited locked now := by
  obtain ⟨hleast, hmost⟩ := hm.weighting hlocked
  obtain ⟨hnonneg, hle⟩ := l.lockedWeight_of_inOrder now (hm.weighting hlocked)
  have hbaseline := scaled_nonneg hdeposited hm.baseline
  rw [votingPower_eq_ok_iff h]
  constructor
  · rintro ⟨⟨-, -, most, -, -, hval⟩, -, hsum, hpower⟩
    exact ⟨hval ▸ most.le_max, hsum, hpower⟩
  · rintro ⟨hmax, hsum, hpower⟩
    have hrange : scaled deposited m.baselineFactor ≤ amountMax := by
      unfold weight at hsum
      omega
    exact ⟨⟨⟨_, hbaseline, hrange⟩, ⟨_, hleast, hmost.trans hmax⟩,
      ⟨_, hleast.trans hmost, hmax⟩, rfl, rfl, rfl⟩, hle, hsum, hpower⟩

/-- Where there is a voting power, there is one, and none greater, for a lockup of the kind with no
more time left and for no greater amounts. -/
theorem exists_votingPower_le (hm : m.InOrder) (hkind : l'.kind = l.kind)
    (hleft : l'.secondsLeft now' ≤ l.secondsLeft now)
    (hdeposited : 0 ≤ deposited' ∧ deposited' ≤ deposited)
    (hlocked : 0 ≤ locked' ∧ locked' ≤ locked)
    (h : m.votingPower l.view deposited locked now = .ok power) :
    ∃ power', m.votingPower l'.view deposited' locked' now' = .ok power' ∧ power' ≤ power := by
  by_cases hexcluded : m.Excludes l
  · rw [votingPower_of_excluded hexcluded] at h
    cases h
    have hexcluded' : m.Excludes l' := by rwa [Excludes, hkind]
    exact ⟨0, votingPower_of_excluded hexcluded' _ _ _, le_rfl⟩
  · have hexcluded' : ¬m.Excludes l' := by rwa [Excludes, hkind]
    obtain ⟨hmax, hsum, rfl⟩ := (votingPower_eq_ok_iff_of_inOrder hm
      (hdeposited.1.trans hdeposited.2) (hlocked.1.trans hlocked.2) hexcluded).mp h
    have hweight := weight_le hm hleft hdeposited.2 hlocked.1 hlocked.2
    have hmost : (m.weighting locked').most ≤ (m.weighting locked).most :=
      scaled_le (hm.least.trans hm.most) hlocked.2
    exact ⟨_, (votingPower_eq_ok_iff_of_inOrder hm hdeposited.1 hlocked.1 hexcluded').mpr
      ⟨hmost.trans hmax, hweight.trans hsum, rfl⟩, hweight⟩

/-- Voting power is monotone. Where there is one, there is one at every later time, for every lockup
of the same kind and start that stops earlier, and for smaller amounts, and none is greater. -/
theorem votingPower_monotone (m : Mint) (hm : m.InOrder) (l : Lockup)
    (deposited locked now power : Int) (hdeposited : 0 ≤ deposited) (hlocked : 0 ≤ locked)
    (h : m.votingPower l.view deposited locked now = .ok power) :
    (∀ later, now ≤ later →
      ∃ power', m.votingPower l.view deposited locked later = .ok power' ∧ power' ≤ power) ∧
    (∀ l' : Lockup, l'.kind = l.kind → l'.start = l.start → l'.stop ≤ l.stop →
      ∃ power', m.votingPower l'.view deposited locked now = .ok power' ∧ power' ≤ power) ∧
    ∀ deposited' locked', 0 ≤ deposited' ∧ deposited' ≤ deposited →
      0 ≤ locked' ∧ locked' ≤ locked →
      ∃ power', m.votingPower l.view deposited' locked' now = .ok power' ∧ power' ≤ power := by
  refine ⟨?_, ?_, ?_⟩
  · intro later hlater
    exact exists_votingPower_le hm rfl (Lockup.secondsLeft_le rfl rfl le_rfl hlater)
      ⟨hdeposited, le_rfl⟩ ⟨hlocked, le_rfl⟩ h
  · intro l' hkind hstart hstop
    exact exists_votingPower_le hm hkind (Lockup.secondsLeft_le hkind hstart hstop le_rfl)
      ⟨hdeposited, le_rfl⟩ ⟨hlocked, le_rfl⟩ h
  · intro deposited' locked' hdeposited' hlocked'
    exact exists_votingPower_le hm rfl le_rfl hdeposited' hlocked' h

/-- A mint that gives a locked amount from three tenths to double of it, over 500 seconds, and
nothing in the last minute. -/
def easingMint : Mint := ⟨1000000000, 2000000000, 500, 300000000, 60⟩

theorem inOrder_easingMint : easingMint.InOrder := ⟨by decide, by decide, by decide⟩

/-- A deposit of 101 with 300 seconds left has the power 234, and none greater in the last minute,
with a lockup that stops earlier or with half the amount. -/
theorem votingPower_monotone_easing :
    easingMint.votingPower (Lockup.lasting .cliff 0 1000).view 101 101 700 = .ok 234 ∧
      (∃ power, easingMint.votingPower (Lockup.lasting .cliff 0 1000).view 101 101 960 =
        .ok power ∧ power ≤ 234) ∧
      (∃ power, easingMint.votingPower (Lockup.lasting .cliff 0 900).view 101 101 700 =
        .ok power ∧ power ≤ 234) ∧
      ∃ power, easingMint.votingPower (Lockup.lasting .cliff 0 1000).view 50 50 700 =
        .ok power ∧ power ≤ 234 := by
  obtain ⟨htime, hstop, hamount⟩ := votingPower_monotone easingMint inOrder_easingMint
    (Lockup.lasting .cliff 0 1000) 101 101 700 234 (by decide) (by decide) rfl
  exact ⟨rfl, htime 960 (by decide), hstop (.lasting .cliff 0 900) rfl rfl (by decide),
    hamount 50 50 (by decide) (by decide)⟩

/-- Splitting a deposit gains no voting power: where the whole has one, each part has one, and
together they have no more, although every part is rounded down by itself. -/
theorem votingPower_split (m : Mint) (hm : m.InOrder) (l : Lockup)
    (deposited deposited' locked locked' now whole : Int)
    (hdeposited : 0 ≤ deposited) (hdeposited' : 0 ≤ deposited') (hlocked : 0 ≤ locked)
    (hlocked' : 0 ≤ locked')
    (h : m.votingPower l.view (deposited + deposited') (locked + locked') now = .ok whole) :
    ∃ power power', m.votingPower l.view deposited locked now = .ok power ∧
      m.votingPower l.view deposited' locked' now = .ok power' ∧ power + power' ≤ whole := by
  obtain ⟨power, hpower, -⟩ := exists_votingPower_le hm rfl le_rfl
    ⟨hdeposited, show deposited ≤ deposited + deposited' by omega⟩
    ⟨hlocked, show locked ≤ locked + locked' by omega⟩ h
  obtain ⟨power', hpower', -⟩ := exists_votingPower_le hm rfl le_rfl
    ⟨hdeposited', show deposited' ≤ deposited + deposited' by omega⟩
    ⟨hlocked', show locked' ≤ locked + locked' by omega⟩ h
  refine ⟨power, power', hpower, hpower', ?_⟩
  by_cases hexcluded : m.Excludes l
  · rw [votingPower_of_excluded hexcluded] at h hpower hpower'
    cases h
    cases hpower
    cases hpower'
    decide
  · obtain ⟨-, -, rfl⟩ := (votingPower_eq_ok_iff_of_inOrder hm
      (Int.add_nonneg hdeposited hdeposited') (Int.add_nonneg hlocked hlocked') hexcluded).mp h
    obtain ⟨-, -, rfl⟩ :=
      (votingPower_eq_ok_iff_of_inOrder hm hdeposited hlocked hexcluded).mp hpower
    obtain ⟨-, -, rfl⟩ :=
      (votingPower_eq_ok_iff_of_inOrder hm hdeposited' hlocked' hexcluded).mp hpower'
    exact weight_add_le l now hm hlocked hlocked'

/-- Four locked have the power 9, twice two have 4 each: rounding costs the parts one. -/
theorem votingPower_split_rounded :
    easingMint.votingPower (Lockup.lasting .cliff 0 1000).view (2 + 2) (2 + 2) 700 = .ok 9 ∧
      ∃ power power',
        easingMint.votingPower (Lockup.lasting .cliff 0 1000).view 2 2 700 = .ok power ∧
        easingMint.votingPower (Lockup.lasting .cliff 0 1000).view 2 2 700 = .ok power' ∧
        power + power' ≤ 9 :=
  ⟨rfl, votingPower_split easingMint inOrder_easingMint (.lasting .cliff 0 1000) 2 2 2 2 700 9
    (by decide) (by decide) (by decide) (by decide) rfl⟩

end Mint

end StakeLedger
