import StakeLedger.Proofs.Finalization
import StakeLedger.Proofs.Instants

/-
  When a moved trigger fires.
  The expression of a reschedule names a minute and leaves its seconds out, so a trigger fires
  up to 59 seconds before the time that it was made for. An offset of 59 seconds makes up for
  that. A shorter one need not: then the trigger may fire in the minute of the expiry, before
  the expiry itself, and is moved to the very instant at which it has fired.
-/

namespace StakeLedger

namespace Lockup

theorem secondsLeft_nonneg (l : Lockup) (now : Int) : 0 ≤ l.secondsLeft now := by
  have := l.start_le_stop
  unfold secondsLeft
  split
  · rw [period]
    omega
  · exact le_max_left _ _

/-- A lockup that is not expired has time left. -/
theorem secondsLeft_pos {l : Lockup} {now : Int} (h : l.isExpired now = false) :
    0 < l.secondsLeft now := by
  have hnonneg := l.secondsLeft_nonneg now
  have hne : l.secondsLeft now ≠ 0 := by simpa [isExpired] using h
  omega

/-- The time left of a lockup that runs down, before its stop. -/
theorem secondsLeft_of_lt_stop {l : Lockup} (hkind : l.kind ≠ .constant) {now : Int}
    (h : now < l.stop) : l.secondsLeft now = l.stop - now := by
  unfold secondsLeft
  split
  · contradiction
  · omega

end Lockup

namespace Purge

variable {policy : Policy} {p : Position} {pool : Pool} {l : Lockup} {now : Int} {r : Reschedule}

/-- When a decision is a reschedule, and of what. -/
theorem decision_eq_reschedule_iff {view : Lockup.View} :
    decision policy p pool view now = .ok (.reschedule r) ↔
      p.phase = .running ∧ policy.bypassExpiry = false ∧ view.isExpired now = false ∧
        r.key = Trigger.key p.id p.index ∧ r.expiry = now + view.secondsLeft now ∧
        OneShot.build r.expiry policy.followup = .ok r.expression := by
  unfold decision
  by_cases hfinal : p.phase.isFinalized = true
  · have hphase : p.phase ≠ .running := by
      intro h
      simp [h, Phase.isFinalized] at hfinal
    rw [if_pos hfinal]
    simp [hphase]
  · have hphase : p.phase = .running :=
      Phase.isFinalized_eq_false_iff.mp (Bool.eq_false_iff.mpr hfinal)
    rw [if_neg hfinal]
    by_cases hopen : policy.bypassExpiry = false ∧ view.isExpired now = false
    · rw [if_pos (by simp [hopen])]
      simp only [bind_eq_ok_iff]
      constructor
      · rintro ⟨expression, hbuild, h⟩
        cases h
        exact ⟨hphase, hopen.1, hopen.2, rfl, rfl, hbuild⟩
      · rintro ⟨-, -, -, hkey, hexpiry, hbuild⟩
        refine ⟨r.expression, hexpiry ▸ hbuild, ?_⟩
        rw [← hkey, ← hexpiry]
        rfl
    · have hguard : ¬ (!policy.bypassExpiry && !view.isExpired now) = true := by simpa using hopen
      rw [if_neg hguard]
      constructor
      · intro h
        obtain ⟨delta, -, h⟩ := bind_eq_ok_iff.mp h
        obtain ⟨changed, -, h⟩ := bind_eq_ok_iff.mp h
        obtain ⟨q, -, h⟩ := bind_eq_ok_iff.mp h
        cases h
      · rintro ⟨-, hbypass, hrunning, -⟩
        exact absurd ⟨hbypass, hrunning⟩ hopen

/-- The expiry a reschedule waits for is ahead. -/
theorem lt_expiry_of_reschedule (h : decision policy p pool l.view now = .ok (.reschedule r)) :
    now < r.expiry := by
  obtain ⟨-, -, hrunning, -, hexpiry, -⟩ := decision_eq_reschedule_iff.mp h
  have hleft : 0 < l.view.secondsLeft now := Lockup.secondsLeft_pos hrunning
  omega

/-- The trigger of a reschedule fires in the minute of the expiry with the offset. -/
theorem time_of_reschedule (h : decision policy p pool l.view now = .ok (.reschedule r)) :
    r.expression.time = r.expiry + policy.followup - (r.expiry + policy.followup) % 60 := by
  obtain ⟨-, -, -, -, -, hbuild⟩ := decision_eq_reschedule_iff.mp h
  obtain ⟨-, hexpression⟩ := OneShot.build_eq_ok_iff.mp hbuild
  rw [hexpression, OneShot.time_ofInstant_ofUnix]

/-- No trigger of a reschedule fires before the expiry that it waits for, whatever the offset. -/
def NeverFiresEarly : Prop :=
  ∀ (policy : Policy) (p : Position) (pool : Pool) (l : Lockup) (now : Int) (r : Reschedule),
    0 ≤ policy.followup → decision policy p pool l.view now = .ok (.reschedule r) →
    r.expiry ≤ r.expression.time ∧ now < r.expression.time

/-- A position that falls by 10 each second. -/
def heldPosition : Position := .running "held" "pool" 0 10

/-- A pool with the rate of the held position. -/
def heldPool : Pool := ⟨.capped 1000, heldPosition.rate, 0⟩

/-- A lockup that stops half a minute after a full one. -/
def heldLockup : Lockup := .lasting .cliff 0 90

/-- Without an offset, the trigger of a lockup up to 90 fires at 60. -/
theorem not_neverFiresEarly : ¬NeverFiresEarly := by
  intro h
  obtain ⟨hnotEarly, -⟩ := h ⟨0, false⟩ heldPosition heldPool heldLockup 0 _ (by decide) rfl
  exact absurd hnotEarly (by decide)

/-- A trigger that fires early does so in the minute of the expiry, and nothing is gained: the
decision at that instant is the same reschedule once more. -/
theorem decision_of_early (hkind : l.kind ≠ .constant)
    (h : decision policy p pool l.view now = .ok (.reschedule r))
    (hearly : r.expression.time < r.expiry) (hfollowup : 0 ≤ policy.followup) :
    r.expression.time = r.expiry - r.expiry % 60 ∧
      decision policy p pool l.view r.expression.time = .ok (.reschedule r) := by
  have htime := time_of_reschedule h
  obtain ⟨hphase, hbypass, hrunning, hkey, hexpiry, hbuild⟩ := decision_eq_reschedule_iff.mp h
  have hahead : now < l.stop := by
    by_contra hstop
    have hexpired : l.view.isExpired now = true :=
      (Lockup.isExpired_iff hkind).mpr (by omega)
    rw [hexpired] at hrunning
    cases hrunning
  have hstop : r.expiry = l.stop := by
    have hleft : l.view.secondsLeft now = l.stop - now := Lockup.secondsLeft_of_lt_stop hkind hahead
    omega
  refine ⟨by omega, decision_eq_reschedule_iff.mpr ⟨hphase, hbypass, ?_, hkey, ?_, hbuild⟩⟩
  · by_contra hexpired
    have := (Lockup.isExpired_iff hkind).mp (Bool.not_eq_false _ ▸ hexpired)
    omega
  · have hleft : l.view.secondsLeft r.expression.time = l.stop - r.expression.time :=
      Lockup.secondsLeft_of_lt_stop hkind (by omega)
    omega

/-- A reschedule is made for an expiry that is ahead, and its trigger fires at the start of the
minute of the expiry with the offset. So it does not fire before the expiry exactly if the offset
makes up for the seconds that are cut off, as any offset from 59 on does. -/
theorem firing_of_reschedule (policy : Policy) (p : Position) (pool : Pool) (l : Lockup)
    (now : Int) (r : Reschedule) (h : decision policy p pool l.view now = .ok (.reschedule r)) :
    now < r.expiry ∧
      r.expression.time = r.expiry + policy.followup - (r.expiry + policy.followup) % 60 ∧
      (r.expiry ≤ r.expression.time ↔ (r.expiry + policy.followup) % 60 ≤ policy.followup) ∧
      (59 ≤ policy.followup → r.expiry ≤ r.expression.time ∧ now < r.expression.time) := by
  have hahead := lt_expiry_of_reschedule h
  have htime := time_of_reschedule h
  refine ⟨hahead, htime, ?_, ?_⟩ <;> omega

/-- With the usual offset of an hour, the trigger of a lockup up to 90 fires at 3660. -/
theorem firing_of_reschedule_held :
    ∃ r, decision {} heldPosition heldPool heldLockup.view 0 = .ok (.reschedule r) ∧
      r.expiry = 90 ∧ r.expression.time = 3660 := by
  obtain ⟨-, htime, -, -⟩ := firing_of_reschedule {} heldPosition heldPool heldLockup 0 _ rfl
  exact ⟨_, rfl, rfl, htime⟩

end Purge

end StakeLedger
