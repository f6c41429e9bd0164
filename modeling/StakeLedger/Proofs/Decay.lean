import Mathlib
import StakeLedger.Pool

/-
  The arithmetic of a pool, said once. Rolling forward and applying a delta are reduced to
  what they check and what they leave: `rollForward_eq_ok_iff` and `applyDelta_eq_ok_iff`.
  All later proofs about pools start from these two and unfold neither operation.
-/

namespace StakeLedger

/-- A sequence of two checks ends well when both do. -/
theorem bind_eq_ok_iff {ε α β : Type} {x : Except ε α} {next : α → Except ε β} {b : β} :
    (x >>= next) = .ok b ↔ ∃ a, x = .ok a ∧ next a = .ok b := by
  cases x with
  | error e => simp [bind, Except.bind]
  | ok a => simp [bind, Except.bind]

/-- A sequence of two checks fails where one of them does. -/
theorem bind_eq_error_iff {ε α β : Type} {x : Except ε α} {next : α → Except ε β} {e : ε} :
    (x >>= next) = .error e ↔ x = .error e ∨ ∃ a, x = .ok a ∧ next a = .error e := by
  cases x with
  | error e' => simp [bind, Except.bind]
  | ok a => simp [bind, Except.bind]

/-- One lookup finds one thing. -/
theorem found_unique {ε α : Type} {x : Except ε (Option α)} {a b : α} (h : x = .ok (some a))
    (h' : x = .ok (some b)) : a = b :=
  Option.some.inj (Except.ok.inj (h.symm.trans h'))

namespace Amount

/-- A check gives back the integer that it was given, and accepts what an amount can hold. -/
theorem check_eq_ok_iff {field : String} {value : Int} {a : Amount} :
    check field value = .ok a ↔ a.val = value := by
  unfold check
  constructor
  · intro h
    split at h
    · cases h; rfl
    · cases h
  · rintro rfl
    rw [dif_pos ⟨a.nonneg, a.le_max⟩]

theorem check_eq_error {field : String} {value : Int} (h : value < 0 ∨ amountMax < value) :
    check field value = .error (.outOfRange field value) := by
  unfold check
  rw [dif_neg (by omega)]

/-- The amount of a number, as far as amounts go. -/
def capped (n : Nat) : Amount where
  val := min n amountMax
  nonneg := le_min (Int.natCast_nonneg n) (by decide)
  le_max := min_le_right _ _

end Amount

theorem signedProduct_eq_ok_iff {field : String} {left right product : Int}
    (h : 0 ≤ left * right) :
    signedProduct field left right = .ok product ↔
      left * right ≤ signedMax ∧ product = left * right := by
  have hmin : signedMin ≤ left * right := le_trans (by decide) h
  unfold signedProduct
  by_cases hmax : left * right ≤ signedMax
  · rw [if_pos ⟨hmin, hmax⟩]
    simp [hmax, eq_comm]
  · rw [if_neg (by tauto)]
    simp [hmax]

namespace Pool

/-- The decay that a pool is charged up to a time. -/
def decay (pool : Pool) (now : Int) : Int := (now - pool.asOf) * pool.rate.val

theorem decay_nonneg {pool : Pool} {now : Int} (h : pool.asOf ≤ now) : 0 ≤ pool.decay now :=
  Int.mul_nonneg (by omega) pool.rate.nonneg

@[simp] theorem decay_asOf (pool : Pool) : pool.decay pool.asOf = 0 := by simp [decay]

/-- What a pool comes to at any time if nothing happens to it, without any check. -/
def outlook (pool : Pool) (time : Int) : Int := pool.staked.val - pool.decay time

@[simp] theorem outlook_asOf (pool : Pool) : pool.outlook pool.asOf = pool.staked.val := by
  simp [outlook]

/-- A pool is known by its time, its rate and its outlook at one time. -/
theorem eq_of_outlook (time : Int) {a b : Pool} (hasOf : a.asOf = b.asOf)
    (hrate : a.rate.val = b.rate.val) (houtlook : a.outlook time = b.outlook time) : a = b := by
  have hstaked : a.staked.val = b.staked.val := by
    simp only [outlook, decay, hasOf, hrate] at houtlook
    omega
  obtain ⟨staked, rate, asOf⟩ := a
  obtain ⟨staked', rate', asOf'⟩ := b
  simp only [mk.injEq]
  exact ⟨Amount.ext hstaked, Amount.ext hrate, hasOf⟩

/-- What rolling forward checks and what it leaves. The case of no elapsed time is no exception:
the decay is zero there. -/
theorem rollForward_eq_ok_iff {pool rolled : Pool} {now : Int} :
    pool.rollForward now = .ok rolled ↔
      pool.asOf ≤ now ∧ pool.decay now ≤ signedMax ∧
        rolled.staked.val = pool.staked.val - pool.decay now ∧
        rolled.rate = pool.rate ∧ rolled.asOf = now := by
  obtain ⟨staked, rate, asOf⟩ := pool
  obtain ⟨staked', rate', asOf'⟩ := rolled
  unfold rollForward
  dsimp only
  rcases lt_trichotomy now asOf with hlt | rfl | hgt
  · rw [if_neg (by omega), if_pos (by omega)]
    simp [not_le.mpr hlt]
  · rw [if_pos (by omega)]
    have hmax : (0 : Int) ≤ signedMax := by decide
    simp [decay, hmax, Amount.ext_iff, eq_comm]
  · rw [if_neg (by omega), if_neg (by omega)]
    have hdecay : 0 ≤ (now - asOf) * rate.val := by
      have hpool : (Pool.mk staked rate asOf).asOf ≤ now := hgt.le
      exact decay_nonneg hpool
    simp only [bind_eq_ok_iff, signedProduct_eq_ok_iff hdecay, Amount.difference,
      Amount.check_eq_ok_iff, decay]
    constructor
    · rintro ⟨d, ⟨hmax, rfl⟩, s, hs, h⟩
      cases h
      exact ⟨hgt.le, hmax, hs, rfl, rfl⟩
    · rintro ⟨-, hmax, hs, rfl, rfl⟩
      exact ⟨_, ⟨hmax, rfl⟩, staked', hs, rfl⟩

/-- Rolling forward changes no outlook. -/
theorem outlook_rollForward {pool rolled : Pool} {now : Int}
    (h : pool.rollForward now = .ok rolled) (time : Int) :
    rolled.outlook time = pool.outlook time := by
  obtain ⟨-, -, hstaked, hrate, hasOf⟩ := rollForward_eq_ok_iff.mp h
  simp only [outlook, decay] at hstaked ⊢
  rw [hstaked, hrate, hasOf]
  ring

/-- When a pool can be rolled forward to a time. -/
theorem exists_rollForward_iff {pool : Pool} {now : Int} :
    (∃ rolled, pool.rollForward now = .ok rolled) ↔
      pool.asOf ≤ now ∧ pool.decay now ≤ signedMax ∧ pool.decay now ≤ pool.staked.val := by
  simp only [rollForward_eq_ok_iff]
  constructor
  · rintro ⟨rolled, hle, hmax, hstaked, -, -⟩
    have := rolled.staked.nonneg
    exact ⟨hle, hmax, by omega⟩
  · rintro ⟨hle, hmax, hstaked⟩
    have := decay_nonneg hle
    have := pool.staked.le_max
    exact ⟨⟨⟨pool.staked.val - pool.decay now, by omega, by omega⟩, pool.rate, now⟩,
      hle, hmax, rfl, rfl, rfl⟩

/-- What applying a delta checks and what it leaves. -/
theorem applyDelta_eq_ok_iff {pool changed : Pool} {now : Int} {delta : Delta} :
    pool.applyDelta now delta = .ok changed ↔
      pool.asOf ≤ now ∧ pool.decay now ≤ signedMax ∧ pool.decay now ≤ pool.staked.val ∧
        changed.rate.val = pool.rate.val + delta.rate ∧
        changed.staked.val = pool.staked.val - pool.decay now + delta.staked ∧
        changed.asOf = now := by
  unfold applyDelta
  simp only [bind_eq_ok_iff, Amount.sum, Amount.check_eq_ok_iff]
  constructor
  · rintro ⟨rolled, hroll, rate, hrate, staked, hstaked, h⟩
    cases h
    obtain ⟨hle, hmax, hs, hr, ha⟩ := rollForward_eq_ok_iff.mp hroll
    have := rolled.staked.nonneg
    exact ⟨hle, hmax, by omega, by rw [hrate, hr], by rw [hstaked, hs], ha⟩
  · rintro ⟨hle, hmax, hs, hrate, hstaked, rfl⟩
    obtain ⟨rolled, hroll⟩ := exists_rollForward_iff.mpr ⟨hle, hmax, hs⟩
    obtain ⟨-, -, hs', hr', ha'⟩ := rollForward_eq_ok_iff.mp hroll
    refine ⟨rolled, hroll, changed.rate, by rw [hrate, hr'], changed.staked, by rw [hstaked, hs'],
      ?_⟩
    rw [ha']
    rfl

/-- A pool is its own state at its own time. -/
theorem rollForward_of_asOf {pool : Pool} {now : Int} (h : pool.asOf = now) :
    pool.rollForward now = .ok pool := by
  unfold rollForward
  dsimp only
  rw [if_pos (by omega)]

/-- A delta is applied to a pool as it is to the pool rolled forward. -/
theorem applyDelta_rollForward {pool rolled : Pool} {now : Int}
    (h : pool.rollForward now = .ok rolled) (delta : Delta) :
    rolled.applyDelta now delta = pool.applyDelta now delta := by
  obtain ⟨-, -, -, -, hasOf⟩ := rollForward_eq_ok_iff.mp h
  unfold applyDelta
  rw [h, rollForward_of_asOf hasOf]

/-- A delta moves the outlook at every time by its amount, less what its rate comes to since. -/
theorem outlook_applyDelta {pool changed : Pool} {now : Int} {delta : Delta}
    (h : pool.applyDelta now delta = .ok changed) (time : Int) :
    changed.outlook time = pool.outlook time + delta.staked - (time - now) * delta.rate := by
  obtain ⟨-, -, -, hrate, hstaked, hasOf⟩ := applyDelta_eq_ok_iff.mp h
  simp only [outlook, decay] at hstaked ⊢
  rw [hstaked, hrate, hasOf]
  ring

/-- When a delta can be applied to a pool at a time. -/
theorem exists_applyDelta_iff {pool : Pool} {now : Int} {delta : Delta} :
    (∃ changed, pool.applyDelta now delta = .ok changed) ↔
      pool.asOf ≤ now ∧ pool.decay now ≤ signedMax ∧ pool.decay now ≤ pool.staked.val ∧
        (0 ≤ pool.rate.val + delta.rate ∧ pool.rate.val + delta.rate ≤ amountMax) ∧
        0 ≤ pool.staked.val - pool.decay now + delta.staked ∧
        pool.staked.val - pool.decay now + delta.staked ≤ amountMax := by
  simp only [applyDelta_eq_ok_iff]
  constructor
  · rintro ⟨changed, hle, hmax, hs, hrate, hstaked, -⟩
    rw [← hrate, ← hstaked]
    exact ⟨hle, hmax, hs, ⟨changed.rate.nonneg, changed.rate.le_max⟩, changed.staked.nonneg,
      changed.staked.le_max⟩
  · rintro ⟨hle, hmax, hs, hrate, hstaked⟩
    exact ⟨⟨⟨_, hstaked.1, hstaked.2⟩, ⟨_, hrate.1, hrate.2⟩, now⟩, hle, hmax, hs, rfl, rfl, rfl⟩

/-- Past the time at which its balance is used up, a pool takes no delta, whatever the delta
would give back. -/
theorem applyDelta_of_drained {pool : Pool} {now : Int} {delta : Delta} (hle : pool.asOf ≤ now)
    (hmax : pool.decay now ≤ signedMax) (hs : pool.staked.val < pool.decay now) :
    pool.applyDelta now delta =
      .error (.outOfRange "staked_amount" (pool.staked.val - pool.decay now)) := by
  have hne : now - pool.asOf ≠ 0 := by
    intro h
    have : pool.decay now = 0 := by simp [decay, h]
    have := pool.staked.nonneg
    omega
  have hprod : signedProduct "decay" (now - pool.asOf) pool.rate.val = .ok (pool.decay now) :=
    (signedProduct_eq_ok_iff (decay_nonneg hle)).mpr ⟨hmax, rfl⟩
  have hdiff : Amount.difference "staked_amount" pool.staked.val (pool.decay now) =
      .error (.outOfRange "staked_amount" (pool.staked.val - pool.decay now)) :=
    Amount.check_eq_error (by omega)
  have hroll : pool.rollForward now =
      .error (.outOfRange "staked_amount" (pool.staked.val - pool.decay now)) := by
    unfold rollForward
    dsimp only
    rw [if_neg hne, if_neg (by omega), hprod]
    simp only [bind, Except.bind]
    rw [hdiff]
  unfold applyDelta
  rw [hroll]
  rfl

end Pool

end StakeLedger
