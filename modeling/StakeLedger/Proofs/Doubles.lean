import StakeLedger.Binary64
import Mathlib.Data.Nat.Basic
import Mathlib.Algebra.Order.Ring.Nat

/-
  Integers that are doubles.
  `round53` lands on an integer of at most 53 bits with zeros behind them (`Representable`),
  leaves such an integer alone, goes past none (`round53_le_of_le`), and keeps the order
  (`round53_mono`). A double that is cut off at its point is one again (`Representable.truncate`).
-/

namespace StakeLedger.Binary64

-- Powers of naturals are those of core, whatever else is imported.
attribute [local instance (high)] instPowNat

/-- The integer is a double, if it is not too large: at most 53 bits, and zeros behind them. -/
def Representable (n : Nat) : Prop := ∃ k t, k ≤ 2 ^ (fractionBits + 1) ∧ n = k * 2 ^ t

variable {a b n k s : Nat}

theorem representable_mul_pow (hk : k ≤ 2 ^ (fractionBits + 1)) (t : Nat) :
    Representable (k * 2 ^ t) := ⟨k, t, hk, rfl⟩

theorem roundShift_of_dvd (h : 2 ^ s ∣ n) : roundShift n s = n / 2 ^ s := by
  have hrest : n % 2 ^ s = 0 := Nat.mod_eq_zero_of_dvd h
  have hpos : 0 < 2 ^ s := Nat.two_pow_pos s
  unfold roundShift
  dsimp only
  rw [hrest, Nat.mul_zero, if_pos (Or.inl hpos)]

/-- Rounding does not go past a multiple of the last place kept. -/
theorem roundShift_le_of_le (h : a ≤ k * 2 ^ s) : roundShift a s ≤ k := by
  have hpos : 0 < 2 ^ s := Nat.two_pow_pos s
  have hlow : a / 2 ^ s ≤ k := Nat.div_le_of_le_mul (by rw [Nat.mul_comm]; exact h)
  rcases Nat.lt_or_eq_of_le hlow with hlt | heq
  · have := roundShift_le a s
    omega
  · have hdvd : 2 ^ s ∣ a := by
      have hdiv := Nat.div_add_mod a (2 ^ s)
      rw [heq, Nat.mul_comm] at hdiv
      exact Nat.dvd_of_mod_eq_zero (by omega)
    rw [roundShift_of_dvd hdvd]
    exact hlow

theorem le_roundShift (n s : Nat) : n / 2 ^ s ≤ roundShift n s := by
  unfold roundShift
  dsimp only
  split <;> omega

theorem roundShift_mono (h : a ≤ b) (s : Nat) : roundShift a s ≤ roundShift b s := by
  have hlow : a / 2 ^ s ≤ b / 2 ^ s := Nat.div_le_div_right h
  rcases Nat.lt_or_eq_of_le hlow with hlt | heq
  · have := roundShift_le a s
    have := le_roundShift b s
    omega
  · -- both lie between the same two neighbours, and the smaller one is no nearer to the upper
    have hrest : a % 2 ^ s ≤ b % 2 ^ s := by
      have := Nat.div_add_mod a (2 ^ s)
      have := Nat.div_add_mod b (2 ^ s)
      rw [heq] at *
      omega
    unfold roundShift
    rw [heq]
    dsimp only
    split <;> split <;> omega

/-- The last place that rounding keeps is a place of a representable integer. -/
theorem Representable.dvd (h : Representable n) : 2 ^ (n.log2 - fractionBits) ∣ n := by
  obtain ⟨k, t, hk, rfl⟩ := h
  have hle : k * 2 ^ t ≤ 2 ^ (fractionBits + 1 + t) := by
    rw [Nat.pow_add]
    exact Nat.mul_le_mul_right _ hk
  rcases Nat.lt_or_eq_of_le hle with hlt | heq
  · by_cases hzero : k * 2 ^ t = 0
    · rw [hzero]
      exact Nat.dvd_zero _
    · have hlog : (k * 2 ^ t).log2 < fractionBits + 1 + t := (Nat.log2_lt hzero).mpr hlt
      exact (Nat.pow_dvd_pow 2 (by omega)).trans (Nat.dvd_mul_left _ _)
  · rw [heq]
    have hlog : (2 ^ (fractionBits + 1 + t)).log2 < fractionBits + 1 + t + 1 :=
      (Nat.log2_lt (Nat.two_pow_pos _).ne').mpr (Nat.pow_lt_pow_right (by decide) (by omega))
    exact Nat.pow_dvd_pow 2 (by omega)

theorem representable_round53 (n : Nat) : Representable (round53 n) := by
  refine ⟨roundShift n (n.log2 - fractionBits), n.log2 - fractionBits, ?_, rfl⟩
  refine roundShift_le_of_le ?_
  rw [← Nat.pow_add]
  have hlog : n < 2 ^ (n.log2 + 1) := Nat.lt_log2_self
  exact hlog.le.trans (Nat.pow_le_pow_right (by decide) (by omega))

/-- Representable integers are not rounded. -/
theorem round53_of_representable (h : Representable n) : round53 n = n := by
  have hdvd := h.dvd
  rw [round53, roundShift_of_dvd hdvd, Nat.div_mul_cancel hdvd]

theorem round53_zero : round53 0 = 0 := rfl

/-- Rounding does not go past a representable integer. -/
theorem round53_le_of_le (h : Representable n) (hle : a ≤ n) : round53 a ≤ n := by
  by_cases hlarge : 2 ^ (a.log2 + 1) ≤ n
  · have hround : roundShift a (a.log2 - fractionBits) ≤
        2 ^ (a.log2 + 1 - (a.log2 - fractionBits)) := by
      refine roundShift_le_of_le ?_
      rw [← Nat.pow_add, Nat.sub_add_cancel (by omega)]
      exact Nat.lt_log2_self.le
    calc round53 a ≤ 2 ^ (a.log2 + 1 - (a.log2 - fractionBits)) *
          2 ^ (a.log2 - fractionBits) := Nat.mul_le_mul_right _ hround
      _ = 2 ^ (a.log2 + 1) := by rw [← Nat.pow_add, Nat.sub_add_cancel (by omega)]
      _ ≤ n := hlarge
  · -- both have the same last place, of which the upper one is a multiple
    have hupper : n.log2 ≤ a.log2 := by
      by_cases hzero : n = 0
      · simp [hzero]
      · exact Nat.lt_succ_iff.mp ((Nat.log2_lt hzero).mpr (by omega))
    have hlower : a.log2 ≤ n.log2 := by
      by_cases hzero : a = 0
      · simp [hzero]
      · exact (Nat.le_log2 (by omega)).mpr ((Nat.log2_self_le hzero).trans hle)
    obtain ⟨k, hk⟩ := h.dvd
    rw [hupper.antisymm hlower, Nat.mul_comm] at hk
    calc round53 a ≤ k * 2 ^ (a.log2 - fractionBits) :=
          Nat.mul_le_mul_right _ (roundShift_le_of_le (hk ▸ hle))
      _ = n := hk.symm

/-- Rounding keeps the order. -/
theorem round53_mono (h : a ≤ b) : round53 a ≤ round53 b := by
  by_cases hzero : a = 0
  · rw [hzero]
    exact Nat.zero_le _
  · have hlog : a.log2 ≤ b.log2 :=
      (Nat.le_log2 (by omega)).mpr ((Nat.log2_self_le hzero).trans h)
    rcases Nat.lt_or_eq_of_le hlog with hlt | heq
    · -- the power of two at which the greater one starts is between them
      have hupper : round53 a ≤ 2 ^ b.log2 :=
        round53_le_of_le ⟨1, b.log2, by decide, (Nat.one_mul _).symm⟩
          (Nat.lt_log2_self.le.trans (Nat.pow_le_pow_right (by decide) hlt))
      refine hupper.trans ?_
      calc 2 ^ b.log2 = 2 ^ b.log2 / 2 ^ (b.log2 - fractionBits) * 2 ^ (b.log2 - fractionBits) :=
            (Nat.div_mul_cancel (Nat.pow_dvd_pow 2 (Nat.sub_le _ _))).symm
        _ ≤ round53 b := Nat.mul_le_mul_right _
            ((Nat.div_le_div_right (Nat.log2_self_le (by omega))).trans (le_roundShift _ _))
    · unfold round53
      rw [heq]
      exact Nat.mul_le_mul_right _ (roundShift_mono h _)

theorem truncate_zero (exponent : Int) : truncate 0 exponent = 0 := by
  unfold truncate
  split
  · exact Nat.zero_mul _
  · exact Nat.zero_div _

/-- Cutting off the fraction of a double, or of a product of doubles, leaves a double. -/
theorem Representable.truncate (h : Representable n) (exponent : Int) :
    Representable (truncate n exponent) := by
  obtain ⟨k, t, hk, rfl⟩ := h
  unfold Binary64.truncate
  split
  · exact ⟨k, t + exponent.toNat, hk, by rw [Nat.pow_add, Nat.mul_assoc]⟩
  · rcases Nat.le_total (-exponent).toNat t with hle | hle
    · refine ⟨k, t - (-exponent).toNat, hk, ?_⟩
      rw [← Nat.pow_sub_mul_pow 2 hle, ← Nat.mul_assoc, Nat.mul_div_cancel _ (Nat.two_pow_pos _)]
    · refine ⟨k / 2 ^ ((-exponent).toNat - t), 0, (Nat.div_le_self _ _).trans hk, ?_⟩
      rw [← Nat.pow_sub_mul_pow 2 hle, Nat.mul_div_mul_right _ _ (Nat.two_pow_pos _)]
      rw [Nat.pow_zero, Nat.mul_one]

end StakeLedger.Binary64
