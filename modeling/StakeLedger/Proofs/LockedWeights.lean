import StakeLedger.Proofs.Firing
import StakeLedger.Proofs.Foreseen

/-
  Locked weights by the time left.
  Too little time gives nothing, enough gives the greatest weight, and in between it gives a share
  of the way from the least weight to the greatest (`lockedWeight_of_tooShort`,
  `lockedWeight_of_long`). Which of the three it is does not depend on the two weights. So the
  locked weight grows with the time left, over the ends of the three pieces too
  (`lockedWeight_le_of_left`); and where weights are split, the shares of the parts do not exceed
  that of the whole, although each part is rounded down for itself (`Weighting.shared_add_le`).
-/

namespace StakeLedger

namespace Lockup

namespace Weighting

/-- The least weight is none below zero and none above the greatest. -/
def InOrder (w : Weighting) : Prop := 0 ≤ w.least ∧ w.least ≤ w.most

/-- The time left earns nothing. -/
def TooShort (w : Weighting) (left : Int) : Prop :=
  left = 0 ∨ 0 < w.minSaturation ∧ left < w.minSaturation

/-- The time left earns the greatest weight. -/
def Saturated (w : Weighting) (left : Int) : Prop := w.saturation ≤ 0 ∨ w.saturation ≤ left

/-- The share of the way from the least weight to the greatest, by the time left. -/
def shared (w : Weighting) (left : Int) : Int :=
  w.least + (w.most - w.least) * left / w.saturation

end Weighting

variable {l l' : Lockup} {now now' left : Int} {w : Weighting}

theorem lockedWeight_of_tooShort (hshort : w.TooShort (l.secondsLeft now)) :
    l.lockedWeight now w = 0 := by
  unfold lockedWeight
  dsimp only
  split
  · rfl
  · next hrunning =>
    have hleft : l.secondsLeft now ≠ 0 := by
      intro hzero
      exact hrunning (.inl (by simpa [isExpired] using hzero))
    rw [if_pos (hshort.resolve_left hleft)]

/-- That the greatest weight may be zero needs no case: the least is zero then too. -/
theorem lockedWeight_of_long (hw : w.InOrder) (hlong : ¬w.TooShort (l.secondsLeft now)) :
    (w.Saturated (l.secondsLeft now) → l.lockedWeight now w = w.most) ∧
      (¬w.Saturated (l.secondsLeft now) →
        l.lockedWeight now w = w.shared (l.secondsLeft now)) := by
  obtain ⟨hleft, hshort⟩ := not_or.mp hlong
  obtain ⟨hnonneg, hle⟩ := hw
  by_cases hmost : w.most = 0
  · have hleast : w.least = 0 := by omega
    have hnone : l.lockedWeight now w = 0 := by rw [lockedWeight, if_pos (.inr hmost)]
    simp [hnone, Weighting.shared, hmost, hleast]
  · have hrunning : ¬(l.isExpired now = true ∨ w.most = 0) := by simp [isExpired, hleft, hmost]
    unfold lockedWeight
    dsimp only
    rw [if_neg hrunning, if_neg hshort]
    exact ⟨fun hsaturated => if_pos hsaturated, fun hbelow => if_neg hbelow⟩

theorem lockedWeight_of_inOrder (l : Lockup) (now : Int) (hw : w.InOrder) :
    0 ≤ l.lockedWeight now w ∧ l.lockedWeight now w ≤ w.most :=
  l.lockedWeight_bounds now hw ⟨hw.1.trans hw.2, le_rfl⟩

/-! ## By time -/

/-- A lockup that ends no later, seen no earlier, has no more time left. -/
theorem secondsLeft_le (hkind : l'.kind = l.kind) (hstart : l'.start = l.start)
    (hstop : l'.stop ≤ l.stop) (hnow : now ≤ now') : l'.secondsLeft now' ≤ l.secondsLeft now := by
  unfold secondsLeft period
  rw [hkind]
  split <;> omega

/-- The locked weight is not less where more time is left. -/
theorem lockedWeight_le_of_left (hw : w.InOrder) (hleft : l'.secondsLeft now' ≤ l.secondsLeft now) :
    l'.lockedWeight now' w ≤ l.lockedWeight now w := by
  obtain ⟨hnonneg, -⟩ := l.lockedWeight_of_inOrder now hw
  obtain ⟨-, hle'⟩ := l'.lockedWeight_of_inOrder now' hw
  by_cases hshort' : w.TooShort (l'.secondsLeft now')
  · rw [lockedWeight_of_tooShort hshort']
    exact hnonneg
  · have hleft' := l'.secondsLeft_nonneg now'
    have hshort : ¬w.TooShort (l.secondsLeft now) := by
      simp only [Weighting.TooShort] at hshort' ⊢
      omega
    by_cases hsaturated : w.Saturated (l.secondsLeft now)
    · rw [(lockedWeight_of_long hw hshort).1 hsaturated]
      exact hle'
    · have hbelow' : ¬w.Saturated (l'.secondsLeft now') := by
        simp only [Weighting.Saturated] at hsaturated ⊢
        omega
      have hpos : 0 < w.saturation := by
        simp only [Weighting.Saturated] at hsaturated
        omega
      rw [(lockedWeight_of_long hw hshort).2 hsaturated,
        (lockedWeight_of_long hw hshort').2 hbelow', Weighting.shared, Weighting.shared]
      have hway : (w.most - w.least) * l'.secondsLeft now' ≤
          (w.most - w.least) * l.secondsLeft now :=
        Int.mul_le_mul_of_nonneg_left hleft (by have := hw.2; omega)
      exact Int.add_le_add_left (Int.ediv_le_ediv hpos hway) _

/-! ## By parts -/

/-- The share is one of two weights, each by its part of the saturation. -/
theorem Weighting.shared_eq (hbelow : ¬w.Saturated left) :
    w.shared left = (w.least * (w.saturation - left) + w.most * left) / w.saturation := by
  have hne : w.saturation ≠ 0 := by
    simp only [Saturated] at hbelow
    omega
  have hsplit : w.least * (w.saturation - left) + w.most * left =
      (w.most - w.least) * left + w.least * w.saturation := by ring
  rw [hsplit, Int.add_mul_ediv_right _ _ hne, shared, Int.add_comm]

/-- The shares of two parts, each rounded down, are no more than that of the whole. -/
theorem Weighting.shared_add_le {part part' : Weighting} (hpart : part.saturation = w.saturation)
    (hpart' : part'.saturation = w.saturation) (hleft : 0 ≤ left) (hbelow : ¬w.Saturated left)
    (hleast : part.least + part'.least ≤ w.least) (hmost : part.most + part'.most ≤ w.most) :
    part.shared left + part'.shared left ≤ w.shared left := by
  have hbelowPart : ¬part.Saturated left := by rwa [Saturated, hpart]
  have hbelowPart' : ¬part'.Saturated left := by rwa [Saturated, hpart']
  rw [shared_eq hbelow, shared_eq hbelowPart, shared_eq hbelowPart', hpart, hpart']
  simp only [Saturated, not_or, not_le] at hbelow
  obtain ⟨hpos, hlt⟩ := hbelow
  have hleasts : (part.least + part'.least) * (w.saturation - left) ≤
      w.least * (w.saturation - left) := Int.mul_le_mul_of_nonneg_right hleast (by omega)
  have hmosts : (part.most + part'.most) * left ≤ w.most * left :=
    Int.mul_le_mul_of_nonneg_right hmost hleft
  refine (Int.ediv_add_ediv_le_add_ediv hpos).trans (Int.ediv_le_ediv hpos ?_)
  rw [Int.add_mul] at hleasts hmosts
  omega

end Lockup

end StakeLedger
