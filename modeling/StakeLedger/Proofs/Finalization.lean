import StakeLedger.Proofs.Decay
import StakeLedger.Purge

/-
  What a decision to finalize checks and what it leaves.
  A lockup that runs down is expired from its stop on, and the seconds since then are counted
  from the stop. `decision_eq_finalize_iff` says when a decision is a finalization, and of
  what; `outlook_finalize` says what it does to the pool: at every time the outlook rises by
  the position's rate for each second from the lockup's stop to that time.
-/

namespace StakeLedger

namespace Lockup

/-- The lockup of a period from a start. -/
def lasting (kind : Kind) (start : Int) (period : Nat) : Lockup where
  kind := kind
  start := start
  stop := start + period
  start_le_stop := by omega

/-- A lockup that runs down is expired from its stop on. -/
theorem isExpired_iff {l : Lockup} (hkind : l.kind ≠ .constant) {now : Int} :
    l.isExpired now = true ↔ l.stop ≤ now := by
  have hleft : l.secondsLeft now = max 0 (l.stop - now) := by
    unfold secondsLeft
    split
    · contradiction
    · rfl
  rw [isExpired, hleft, decide_eq_true_iff]
  omega

/-- A constant lockup is expired only if it has no period, and then at all times. -/
theorem isExpired_constant {l : Lockup} (hkind : l.kind = .constant) {now : Int} :
    l.isExpired now = true ↔ l.period = 0 := by
  simp [isExpired, secondsLeft, hkind]

theorem secondsSinceExpiry_of_expired {l : Lockup} {now : Int} (h : l.isExpired now = true) :
    l.secondsSinceExpiry now = max 0 (now - l.stop) := by
  rw [secondsSinceExpiry, if_pos h]

theorem secondsSinceExpiry_of_running {l : Lockup} {now : Int} (h : l.isExpired now = false) :
    l.secondsSinceExpiry now = 0 := by
  rw [secondsSinceExpiry, if_neg (by simp [h])]

/-- The seconds since the expiry of a lockup that runs down. -/
theorem secondsSinceExpiry_of_stop_le {l : Lockup} (hkind : l.kind ≠ .constant) {now : Int}
    (h : l.stop ≤ now) : l.secondsSinceExpiry now = now - l.stop := by
  rw [secondsSinceExpiry_of_expired ((isExpired_iff hkind).mpr h)]
  omega

end Lockup

namespace Phase

theorem isFinalized_eq_false_iff {phase : Phase} :
    phase.isFinalized = false ↔ phase = .running := by
  cases phase <;> decide

end Phase

namespace Position

/-- A position as it is opened, with an index as far as indices go. -/
def running (id pool : String) (index rate : Nat) : Position where
  id := id
  pool := pool
  index := min index indexMax
  rate := .capped rate
  phase := .running
  index_in_range := ⟨le_min (Int.natCast_nonneg index) (by decide), min_le_right _ _⟩

/-- Only a running position can be finalized. -/
theorem finalize_eq_ok_iff {p q : Position} :
    p.finalize = .ok q ↔ p.phase = .running ∧ q = { p with phase := .finalized } := by
  unfold finalize
  split
  · next h => simp [h, eq_comm]
  · next h =>
    have hphase : p.phase ≠ .running := h
    simp [hphase]

/-- Only a position that is not closed can be closed. -/
theorem close_eq_ok_iff {p q : Position} :
    p.close = .ok q ↔ p.phase ≠ .closed ∧ q = { p with phase := .closed } := by
  unfold close
  split
  · next h => simp [h]
  · next h =>
    have hphase : p.phase ≠ .closed := h
    simp [hphase, eq_comm]

end Position

namespace Purge

/-- The delta of an expiry takes the position's rate away; what it gives back must be an
amount. -/
theorem expiredDelta_eq_ok_iff {p : Position} {view : Lockup.View} {now : Int} {delta : Delta} :
    expiredDelta p view now = .ok delta ↔
      (0 ≤ p.rate.val * view.secondsSinceExpiry now ∧
        p.rate.val * view.secondsSinceExpiry now ≤ amountMax) ∧
      delta = ⟨-p.rate.val, p.rate.val * view.secondsSinceExpiry now⟩ := by
  unfold expiredDelta Amount.product Amount.check
  by_cases h : 0 ≤ p.rate.val * view.secondsSinceExpiry now ∧
      p.rate.val * view.secondsSinceExpiry now ≤ amountMax
  · rw [dif_pos h]
    simp [Except.map, h, eq_comm]
  · rw [dif_neg h]
    simp [Except.map, h]

/-- When a decision is a finalization, and of what. -/
theorem decision_eq_finalize_iff {policy : Policy} {p : Position} {pool : Pool}
    {view : Lockup.View} {now : Int} {f : Finalization} :
    decision policy p pool view now = .ok (.finalize f) ↔
      p.phase = .running ∧ (policy.bypassExpiry = true ∨ view.isExpired now = true) ∧
        expiredDelta p view now = .ok f.delta ∧ pool.applyDelta now f.delta = .ok f.pool ∧
        f.position = { p with phase := .finalized } ∧
        f.sinceExpiry = view.secondsSinceExpiry now := by
  unfold decision
  by_cases hfinal : p.phase.isFinalized = true
  · have hphase : p.phase ≠ .running := by
      intro h
      simp [h, Phase.isFinalized] at hfinal
    rw [if_pos hfinal]
    simp [hphase]
  · have hphase : p.phase = .running :=
      Phase.isFinalized_eq_false_iff.mp (Bool.eq_false_iff.mpr hfinal)
    rw [if_neg hfinal]
    by_cases hopen : policy.bypassExpiry = true ∨ view.isExpired now = true
    · have hguard : ¬ (!policy.bypassExpiry && !view.isExpired now) = true := by
        rcases hopen with h | h <;> simp [h]
      rw [if_neg hguard]
      simp only [bind_eq_ok_iff, Position.finalize_eq_ok_iff]
      constructor
      · rintro ⟨delta, hdelta, changed, hchanged, q, ⟨-, hq⟩, h⟩
        cases h
        exact ⟨hphase, hopen, hdelta, hchanged, hq, rfl⟩
      · rintro ⟨-, -, hdelta, hchanged, hq, hsince⟩
        refine ⟨f.delta, hdelta, f.pool, hchanged, f.position, ⟨hphase, hq⟩, ?_⟩
        rw [← hsince]
        rfl
    · rw [if_pos (by simpa using hopen)]
      simp only [hopen, false_and, and_false, iff_false]
      intro h
      obtain ⟨expression, -, h⟩ := bind_eq_ok_iff.mp h
      cases h

/-- A position is due: it still runs, and its lockup has run down. -/
def Due (p : Position) (l : Lockup) (now : Int) : Prop :=
  p.phase = .running ∧ l.kind ≠ .constant ∧ l.stop ≤ now

instance (p : Position) (l : Lockup) (now : Int) : Decidable (Due p l now) :=
  inferInstanceAs (Decidable (_ ∧ _ ∧ _))

/-- Whatever is decided on a due position is a finalization. -/
theorem finalize_of_due {policy : Policy} {p : Position} {l : Lockup} {now : Int}
    (hdue : Due p l now) {pool : Pool} {d : Decision}
    (h : decision policy p pool l.view now = .ok d) : ∃ f, d = .finalize f := by
  obtain ⟨hphase, hkind, hstop⟩ := hdue
  have hexpired : l.view.isExpired now = true := (Lockup.isExpired_iff hkind).mpr hstop
  unfold decision at h
  rw [hphase, if_neg (by decide), if_neg (by simp [hexpired])] at h
  obtain ⟨delta, -, h⟩ := bind_eq_ok_iff.mp h
  obtain ⟨changed, -, h⟩ := bind_eq_ok_iff.mp h
  obtain ⟨q, -, h⟩ := bind_eq_ok_iff.mp h
  cases h
  exact ⟨_, rfl⟩

/-- When a due position is finalized, and with which pool. -/
theorem decision_of_due {policy : Policy} {p : Position} {l : Lockup} {now : Int}
    (hdue : Due p l now) {pool : Pool} {f : Finalization} :
    decision policy p pool l.view now = .ok (.finalize f) ↔
      p.rate.val * (now - l.stop) ≤ amountMax ∧
        f.delta = ⟨-p.rate.val, p.rate.val * (now - l.stop)⟩ ∧
        pool.applyDelta now f.delta = .ok f.pool ∧
        f.position = { p with phase := .finalized } ∧ f.sinceExpiry = now - l.stop := by
  obtain ⟨hphase, hkind, hstop⟩ := hdue
  have hexpired : l.view.isExpired now = true := (Lockup.isExpired_iff hkind).mpr hstop
  have hsince : l.view.secondsSinceExpiry now = now - l.stop :=
    Lockup.secondsSinceExpiry_of_stop_le hkind hstop
  have hnonneg : 0 ≤ p.rate.val * (now - l.stop) :=
    Int.mul_nonneg p.rate.nonneg (by omega)
  rw [decision_eq_finalize_iff, expiredDelta_eq_ok_iff, hsince]
  simp only [hphase, hexpired, hnonneg, or_true, true_and, and_assoc]

/-- A finalization raises the outlook at every time by what the position would have decayed by
from its lockup's stop to that time, however late it is. -/
theorem outlook_finalize {policy : Policy} {p : Position} {l : Lockup} {now : Int}
    (hdue : Due p l now) {pool : Pool} {f : Finalization}
    (h : decision policy p pool l.view now = .ok (.finalize f)) (time : Int) :
    f.pool.outlook time = pool.outlook time + p.rate.val * (time - l.stop) := by
  obtain ⟨-, hdelta, hpool, -, -⟩ := (decision_of_due hdue).mp h
  rw [Pool.outlook_applyDelta hpool, hdelta]
  ring

end Purge

end StakeLedger
