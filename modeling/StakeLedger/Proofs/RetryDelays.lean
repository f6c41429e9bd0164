import StakeLedger.Proofs.Retries

/-
  How long retry delays are.
  A delay that is asked for is capped last and never above the policy's greatest delay. A delay of
  the policy's own is capped before its jitter, which makes up to three halves of it: the longest
  is that of the last draw (`le_longest_of_jittered`, `jitteredDelay_lastDraw`). So the policy's
  greatest delay is kept exactly where three halves of the delay before jitter are within it
  (`delay_bounds`).
-/

namespace StakeLedger.Retry.Policy

open Binary64

-- Powers of naturals are those of core, whatever else is imported.
attribute [local instance (high)] instPowNat

variable {p : Policy} {attempt : Int} {draw : Nat} {ms : Int}

/-- The last draw before one. -/
def lastDraw : Nat := 2 ^ (fractionBits + 1) - 1

/-- The longest delay after an attempt: three halves of that before jitter, as doubles have it. -/
def longest (p : Policy) (attempt : Int) : Nat :=
  round53 (round53 (p.grownDelay attempt) * (3 * 2 ^ fractionBits)) / 2 ^ (fractionBits + 1)

theorem jitterFactor_zero : jitterFactor 0 = 2 ^ fractionBits := by decide +kernel

theorem jitterFactor_lastDraw : jitterFactor lastDraw = 3 * 2 ^ fractionBits := by decide +kernel

theorem jitterFactor_mono {draw' : Nat} (h : draw ≤ draw') :
    jitterFactor draw ≤ jitterFactor draw' :=
  round53_mono (Nat.add_le_add_left h _)

/-- What a delay of the policy's own comes to, where there is one. -/
theorem eq_of_jitteredDelay (h : p.jitteredDelay attempt draw = .ok ms) :
    ms = (round53 (round53 (p.grownDelay attempt) * jitterFactor draw) /
      2 ^ (fractionBits + 1) : Nat) := by
  unfold jitteredDelay at h
  dsimp only at h
  split at h
  · cases h
  · split at h
    · cases h
    · exact (Except.ok.inj h).symm

theorem le_longest_of_jittered (hdraw : draw < 2 ^ (fractionBits + 1))
    (h : p.jitteredDelay attempt draw = .ok ms) : ms ≤ p.longest attempt := by
  have hfactor : jitterFactor draw ≤ 3 * 2 ^ fractionBits :=
    (jitterFactor_mono (Nat.le_sub_one_of_lt hdraw)).trans jitterFactor_lastDraw.le
  rw [eq_of_jitteredDelay h]
  exact Int.ofNat_le.mpr
    (Nat.div_le_div_right (round53_mono (Nat.mul_le_mul_left _ hfactor)))

/-- The jitter makes a delay shorter by half at most. -/
theorem half_le_of_jittered (h : p.jitteredDelay attempt draw = .ok ms) :
    (round53 (p.grownDelay attempt) / 2 : Nat) ≤ ms := by
  have hfactor : 2 ^ fractionBits ≤ jitterFactor draw :=
    jitterFactor_zero.ge.trans (jitterFactor_mono (Nat.zero_le _))
  obtain ⟨k, t, hk, hgrown⟩ := representable_round53 (p.grownDelay attempt)
  rw [eq_of_jitteredDelay h, hgrown]
  refine Int.ofNat_le.mpr ?_
  calc k * 2 ^ t / 2 = k * 2 ^ t * 2 ^ fractionBits / (2 * 2 ^ fractionBits) :=
        (Nat.mul_div_mul_right _ _ (Nat.two_pow_pos _)).symm
    _ = round53 (k * 2 ^ t * 2 ^ fractionBits) / 2 ^ (fractionBits + 1) := by
        rw [Nat.mul_assoc k, ← Nat.pow_add, round53_of_representable (representable_mul_pow hk _)]
        rfl
    _ ≤ round53 (k * 2 ^ t * jitterFactor draw) / 2 ^ (fractionBits + 1) :=
        Nat.div_le_div_right (round53_mono (Nat.mul_le_mul_left _ hfactor))

/-- The longest delay is that of the last draw. -/
theorem jitteredDelay_lastDraw (hranged : p.Ranged) :
    p.jitteredDelay attempt lastDraw = .ok (p.longest attempt) := by
  obtain ⟨ms, hms⟩ := hranged attempt lastDraw (by decide)
  rw [hms, eq_of_jitteredDelay hms, jitterFactor_lastDraw]
  rfl

/-- Three halves of a delay are exact as long as three of it are. -/
theorem longest_eq (hsize : 3 * p.grownDelay attempt ≤ 2 ^ (fractionBits + 1)) :
    p.longest attempt = 3 * p.grownDelay attempt / 2 := by
  have hgrown : round53 (p.grownDelay attempt) = p.grownDelay attempt :=
    round53_of_representable ⟨_, 0, by omega, (Nat.mul_one _).symm⟩
  have hthree : p.grownDelay attempt * (3 * 2 ^ fractionBits) =
      3 * p.grownDelay attempt * 2 ^ fractionBits := by
    rw [← Nat.mul_assoc, Nat.mul_comm (p.grownDelay attempt)]
  rw [longest, hgrown, hthree, round53_of_representable (representable_mul_pow hsize _)]
  exact Nat.mul_div_mul_right _ 2 (Nat.two_pow_pos fractionBits)

/-- Nothing is asked for, or a time that is not below zero. -/
def Waits (asked : Option Float) : Prop :=
  ∀ seconds, asked = some seconds → (ofFloat seconds).isNonnegative = true

/-- A delay that is asked for is within the policy's greatest. -/
theorem askedDelay_bounds {seconds : Float} (hseconds : (ofFloat seconds).isNonnegative = true)
    (h : p.askedDelay seconds = .ok ms) : 0 ≤ ms ∧ ms ≤ p.maxDelay := by
  change (wholeMs seconds).map _ = .ok ms at h
  cases hwhole : wholeMs seconds with
  | error fault => rw [hwhole] at h; cases h
  | ok whole =>
    have hnonneg : 0 ≤ whole := by
      unfold wholeMs at hwhole
      split at hwhole
      · cases hwhole
      · cases hwhole
      · next negative mantissa exponent hfinite =>
        dsimp only at hwhole
        split at hwhole
        · cases hwhole
        · cases hwhole
          rw [hfinite] at hseconds
          cases negative with
          | false => exact Int.natCast_nonneg _
          | true =>
            -- the one number with a sign that is not below zero is zero
            have hzero : mantissa = 0 := by simpa [isNonnegative] using hseconds
            rw [hzero, Nat.zero_mul, round53_zero, truncate_zero]
            decide
    rw [hwhole] at h
    cases h
    exact ⟨le_min (Int.natCast_nonneg _) hnonneg, min_le_left _ _⟩

/-- No delay exceeds the policy's greatest. -/
def DelaysCapped : Prop :=
  ∀ (p : Policy) (attempt : Int) (asked : Option Float) (draw : Nat) (ms : Int), 1 ≤ attempt →
    Waits asked → draw < 2 ^ (fractionBits + 1) → p.delay attempt asked draw = .ok ms →
    0 ≤ ms ∧ ms ≤ p.maxDelay

/-- A policy of four attempts whose first delay is its greatest. -/
def steadyPolicy : Policy := ⟨4, 4000, 4000, 0, Nat.succ_pos 3⟩

/-- With the last draw, a delay of four seconds at most lasts six. -/
theorem not_delaysCapped : ¬DelaysCapped := by
  intro h
  obtain ⟨-, hle⟩ := h steadyPolicy 1 none lastDraw 6000 (by decide) nofun (by decide)
    (by rw [delay_none]; decide +kernel)
  exact absurd hle (by decide)

/-- The bounds of a delay. One that is asked for lies between zero and the policy's greatest. One of
the policy's own lies between the half and three halves of the capped delay before jitter, and
within the policy's greatest for every draw exactly if three halves of that are. -/
theorem delay_bounds (p : Policy) (attempt : Int) :
    (∀ asked draw ms, Waits asked → draw < 2 ^ (fractionBits + 1) →
      p.delay attempt asked draw = .ok ms →
      0 ≤ ms ∧ (asked ≠ none → ms ≤ p.maxDelay) ∧
        (asked = none → (round53 (p.grownDelay attempt) / 2 : Nat) ≤ ms ∧
          ms ≤ p.longest attempt)) ∧
    (p.Ranged →
      ((∀ draw ms, draw < 2 ^ (fractionBits + 1) → p.delay attempt none draw = .ok ms →
        ms ≤ p.maxDelay) ↔ p.longest attempt ≤ p.maxDelay)) ∧
    (3 * p.grownDelay attempt ≤ 2 ^ (fractionBits + 1) →
      p.longest attempt = 3 * p.grownDelay attempt / 2) := by
  refine ⟨?_, fun hranged => ⟨fun hcapped => ?_, fun hlongest draw ms hdraw h => ?_⟩, longest_eq⟩
  · intro asked draw ms hwaits hdraw h
    cases asked with
    | none =>
      rw [delay_none] at h
      have hhalf := half_le_of_jittered h
      exact ⟨(Int.natCast_nonneg _).trans hhalf, fun hne => absurd rfl hne,
        fun _ => ⟨hhalf, le_longest_of_jittered hdraw h⟩⟩
    | some seconds =>
      obtain ⟨hnonneg, hle⟩ := askedDelay_bounds (hwaits seconds rfl) h
      exact ⟨hnonneg, fun _ => hle, nofun⟩
  · exact Int.ofNat_le.mp (hcapped lastDraw _ (by decide) (by
      rw [delay_none]
      exact jitteredDelay_lastDraw hranged))
  · rw [delay_none] at h
    exact (le_longest_of_jittered hdraw h).trans (Int.ofNat_le.mpr hlongest)

/-- In its usual policy the third attempt is followed by 0.8 to 2.4 seconds, of four that are
allowed; the steady policy comes to six. -/
theorem delay_bounds_standard :
    (∀ draw ms, draw < 2 ^ (fractionBits + 1) → standard.delay 3 none draw = .ok ms →
      800 ≤ ms ∧ ms ≤ 2400) ∧
    steadyPolicy.Ranged ∧ steadyPolicy.longest 1 = 6000 ∧
    ¬∀ draw ms, draw < 2 ^ (fractionBits + 1) → steadyPolicy.delay 1 none draw = .ok ms →
      ms ≤ steadyPolicy.maxDelay := by
  have hsteady : steadyPolicy.Ranged := ranged_of_maxDelay_le (t := 12) (by decide) (by decide)
  obtain ⟨hbounds, -, hlongest⟩ := delay_bounds standard 3
  obtain ⟨-, hiff, hlongest'⟩ := delay_bounds steadyPolicy 1
  replace hlongest' : steadyPolicy.longest 1 = 6000 := hlongest' (by decide)
  refine ⟨fun draw ms hdraw h => ?_, hsteady, hlongest', fun hcapped => ?_⟩
  · obtain ⟨-, -, hown⟩ := hbounds none draw ms nofun hdraw h
    rw [hlongest (by decide)] at hown
    exact hown rfl
  · have hle := (hiff hsteady).mp hcapped
    rw [hlongest'] at hle
    exact absurd hle (by decide)

end StakeLedger.Retry.Policy
