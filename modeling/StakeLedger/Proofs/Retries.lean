import StakeLedger.Proofs.Decay
import StakeLedger.Proofs.Doubles
import StakeLedger.Retry

/-
  How the calls of a retry loop go.
  Every call but the last has failed with a retryable error and got its delay; the last one
  returns, or fails with an error that is passed on, or its delay cannot be computed (`Course`,
  by induction on the attempts left). A delay that can be computed can be slept
  (`exists_sleepSeconds`). So where the policy's own delays are within the range of doubles
  (`Policy.Ranged`), the loop ends with a fault of its own exactly if a header that it has to
  follow is not usable: it asks for a delay beyond that range, or is a date beyond the machine's
  integers (`exists_broken_iff`).
-/

namespace StakeLedger

-- Powers of naturals are those of core, whatever else is imported.
attribute [local instance (high)] instPowNat

/-- A draw is less than the number that it is a fraction of. -/
theorem Twister.draw_lt (t : Twister) : t.draw.1 < 2 ^ 53 := by
  have hhigh : (t.next.1 >>> 5).toNat < 2 ^ 27 := by
    have := t.next.1.toNat_lt
    rw [UInt32.toNat_shiftRight, Nat.shiftRight_eq_div_pow]
    show _ / 2 ^ 5 < _
    omega
  have hlow : (t.next.2.next.1 >>> 6).toNat < 2 ^ 26 := by
    have := t.next.2.next.1.toNat_lt
    rw [UInt32.toNat_shiftRight, Nat.shiftRight_eq_div_pow]
    show _ / 2 ^ 6 < _
    omega
  show (t.next.1 >>> 5).toNat * 2 ^ 26 + (t.next.2.next.1 >>> 6).toNat < 2 ^ 53
  omega

/-- The header asks for no delay, or for one within the range of doubles. -/
def RetryAfter.Usable (nowMs : Int) (header : Option String) : Prop :=
  ∃ asked, RetryAfter.read nowMs header = .ok asked ∧
    ∀ seconds, asked = some seconds → ∃ ms, Retry.Policy.wholeMs seconds = .ok ms

theorem RetryAfter.usable_none (nowMs : Int) : Usable nowMs none :=
  ⟨none, rfl, fun _ h => nomatch h⟩

/-! ## Faults of headers -/

namespace MailDate

variable {fault : Fault}

theorem code?_of_checkZone {zone : Int} (h : checkZone zone = .error fault) :
    fault.code? = none := by
  unfold checkZone at h
  dsimp only at h
  split at h
  · cases h
    rfl
  · split at h
    · cases h
      rfl
    · cases h

theorem code?_of_checkField {n : Int} (h : checkField n = .error fault) : fault.code? = none := by
  unfold checkField at h
  split at h
  · cases h
    rfl
  · split at h
    · cases h
      rfl
    · cases h

theorem code?_of_forM_checkField {ns : List Int} (h : ns.forM checkField = .error fault) :
    fault.code? = none := by
  induction ns with
  | nil => cases h
  | cons n rest ih =>
    rcases bind_eq_error_iff.mp h with h | ⟨_, -, h⟩
    · exact code?_of_checkField h
    · exact ih h

/-- No date is at fault in a way that the staking domain knows. -/
theorem code?_of_read? {s : String} (h : read? s = .error fault) : fault.code? = none := by
  unfold read? at h
  split at h
  · next n _ =>
    unfold unixOf? at h
    rcases bind_eq_error_iff.mp h with h | ⟨near, -, h⟩
    · exact code?_of_checkZone h
    · split at h
      · rcases bind_eq_error_iff.mp h with h | ⟨_, -, h⟩
        · exact code?_of_forM_checkField h
        · cases h
      · cases h
  · cases h

end MailDate

theorem RetryAfter.code?_of_read {nowMs : Int} {header : Option String} {fault : Fault}
    (h : read nowMs header = .error fault) : fault.code? = none := by
  unfold read at h
  split at h
  · cases h
  · split at h
    · cases h
    · split at h
      · cases h
      · next s _ _ _ _ =>
        change (MailDate.read? s).map _ = _ at h
        cases hdate : MailDate.read? s with
        | ok time => rw [hdate] at h; cases h
        | error fault' =>
          rw [hdate] at h
          cases h
          exact MailDate.code?_of_read? hdate

namespace Retry

open Binary64

variable {ε α : Type}

/-! ## Delays -/

namespace Policy

variable {p : Policy} {seconds : Float} {ms : Int} {attempt : Int} {draw : Nat}

/-- Whatever is drawn, the delays of the policy are within the range of doubles. -/
def Ranged (p : Policy) : Prop :=
  ∀ (attempt : Int) (draw : Nat), draw < 2 ^ 53 → ∃ ms, p.jitteredDelay attempt draw = .ok ms

/-- The jitter makes a delay longer by half at most. -/
theorem two_mul_jittered_le {ms t : Nat} (hms : ms ≤ 2 ^ t) (hdraw : draw < 2 ^ 53) :
    2 * (round53 (ms * jitterFactor draw) / 2 ^ (fractionBits + 1)) ≤ 3 * 2 ^ t := by
  have hfactor : jitterFactor draw ≤ 3 * 2 ^ 52 :=
    round53_le_of_le (representable_mul_pow (by decide) 52) (by rw [fractionBits]; omega)
  have hround : round53 (ms * jitterFactor draw) ≤ 3 * 2 ^ (t + 52) := by
    refine round53_le_of_le (representable_mul_pow (by decide) (t + 52)) ?_
    calc ms * jitterFactor draw ≤ 2 ^ t * (3 * 2 ^ 52) := Nat.mul_le_mul hms hfactor
      _ = 3 * 2 ^ (t + 52) := by rw [Nat.mul_left_comm, ← Nat.pow_add]
  rw [Nat.pow_add] at hround
  show 2 * (_ / 2 ^ 53) ≤ _
  omega

/-- So half of the range of doubles is enough. -/
theorem ranged_of_maxDelay_le {t : Nat} (ht : t < exponentEnd) (h : p.maxDelay ≤ 2 ^ t) :
    p.Ranged := by
  intro attempt draw hdraw
  have hms : round53 (p.grownDelay attempt) ≤ 2 ^ t :=
    round53_le_of_le ⟨1, t, by decide, (Nat.one_mul _).symm⟩ ((Nat.min_le_left _ _).trans h)
  have hjittered := two_mul_jittered_le hms hdraw
  have hend : 2 * 2 ^ t ≤ sizeLimit := by
    rw [← Nat.pow_succ']
    exact Nat.pow_le_pow_right (by decide) ht
  have hpos : 0 < 2 ^ t := Nat.two_pow_pos t
  unfold jitteredDelay
  dsimp only
  split
  · omega
  · split
    · omega
    · exact ⟨_, rfl⟩

theorem ranged_standard : standard.Ranged := ranged_of_maxDelay_le (t := 12) (by decide) (by decide)

/-- The milliseconds of some seconds are a double. -/
theorem representable_of_wholeMs (h : wholeMs seconds = .ok ms) :
    Representable ms.natAbs ∧ ms.natAbs < sizeLimit := by
  unfold wholeMs at h
  split at h
  · cases h
  · cases h
  · next negative mantissa exponent _ =>
    dsimp only at h
    split at h
    · cases h
    · next hsize =>
      have hdouble := (representable_round53 (mantissa * 1000)).truncate exponent
      rw [Nat.not_le] at hsize
      cases h
      cases negative <;> simpa using ⟨hdouble, hsize⟩

theorem representable_of_jitteredDelay (h : p.jitteredDelay attempt draw = .ok ms) :
    Representable ms.natAbs ∧ ms.natAbs < sizeLimit := by
  unfold jitteredDelay at h
  dsimp only at h
  split at h
  · cases h
  · split at h
    · cases h
    · next hsize =>
      cases h
      have hround := representable_round53 (round53 (p.grownDelay attempt) * jitterFactor draw)
      exact ⟨hround.truncate (-(fractionBits + 1 : Nat)), Nat.not_le.mp hsize⟩

theorem delay_none : p.delay attempt none draw = p.jitteredDelay attempt draw := by
  simp only [delay]

/-- A delay that can be computed can be slept. -/
theorem exists_sleepSeconds {asked : Option Float} (h : p.delay attempt asked draw = .ok ms) :
    ∃ sleep, sleepSeconds ms = .ok sleep := by
  have hsize : round53 ms.natAbs < sizeLimit := by
    cases asked with
    | none =>
      rw [delay_none] at h
      obtain ⟨hdouble, hsize⟩ := representable_of_jitteredDelay h
      exact Nat.lt_of_le_of_lt (round53_of_representable hdouble).le hsize
    | some seconds =>
      change (wholeMs seconds).map _ = .ok ms at h
      cases hwhole : wholeMs seconds with
      | error fault =>
        rw [hwhole] at h
        cases h
      | ok whole =>
        obtain ⟨hdouble, hsize⟩ := representable_of_wholeMs hwhole
        rw [hwhole] at h
        cases h
        rcases Int.le_total (p.maxDelay : Int) whole with hle | hle
        · rw [min_eq_left hle]
          exact Nat.lt_of_le_of_lt (round53_le_of_le hdouble (by omega)) hsize
        · rw [min_eq_right hle]
          exact Nat.lt_of_le_of_lt (round53_of_representable hdouble).le hsize
  unfold sleepSeconds ofInt?
  split
  · next h =>
    split at h
    · next hlarge => exact absurd hsize (Nat.not_lt.mpr hlarge)
    · cases h
  · exact ⟨_, rfl⟩

theorem code?_of_delay {asked : Option Float} {fault : Fault}
    (h : p.delay attempt asked draw = .error fault) : fault.code? = none := by
  cases asked with
  | none =>
    rw [delay_none] at h
    unfold jitteredDelay at h
    dsimp only at h
    split at h
    · cases h
      rfl
    · split at h
      · cases h
        rfl
      · cases h
  | some seconds =>
    change (wholeMs seconds).map _ = .error fault at h
    cases hwhole : wholeMs seconds with
    | ok whole => rw [hwhole] at h; cases h
    | error fault' =>
      rw [hwhole] at h
      cases h
      unfold wholeMs at hwhole
      split at hwhole
      · cases hwhole
        rfl
      · cases hwhole
        rfl
      · dsimp only at hwhole
        split at hwhole
        · cases hwhole
          rfl
        · cases hwhole

end Policy

/-! ## Notices -/

namespace Rules

variable {rules : Rules ε} {p : Policy} {attempt : Nat} {error : ε} {gen : Twister} {fault : Fault}

/-- The notice of an error that asks for a delay. -/
theorem notice_of_asked {seconds : Float}
    (h : RetryAfter.read rules.nowMs (rules.header error) = .ok (some seconds)) :
    rules.notice p attempt error gen =
      (p.delay attempt (some seconds) 0).map fun ms => (⟨attempt, ms, true, error⟩, gen) := by
  unfold notice
  rw [h]
  rfl

/-- The notice of an error that asks for no delay. -/
theorem notice_of_unasked (h : RetryAfter.read rules.nowMs (rules.header error) = .ok none) :
    rules.notice p attempt error gen =
      (p.delay attempt none gen.draw.1).map fun ms =>
        (⟨attempt, ms, false, error⟩, gen.draw.2) := by
  unfold notice
  rw [h]
  simp only [bind, Except.bind, Policy.delay_none]
  cases p.jitteredDelay attempt gen.draw.1 <;> rfl

theorem notice_of_error (h : RetryAfter.read rules.nowMs (rules.header error) = .error fault) :
    rules.notice p attempt error gen = .error fault := by
  unfold notice
  rw [h]
  rfl

/-- A notice is told of a delay, with or without a request for it. -/
theorem exists_delay_of_notice (rules : Rules ε) (p : Policy) (attempt : Nat) (error : ε)
    (gen : Twister) :
    (∃ fault, RetryAfter.read rules.nowMs (rules.header error) = .error fault ∧
      rules.notice p attempt error gen = .error fault) ∨
    ∃ asked draw fromHeader gen', rules.notice p attempt error gen =
      (p.delay attempt asked draw).map fun ms => (⟨attempt, ms, fromHeader, error⟩, gen') := by
  cases hread : RetryAfter.read rules.nowMs (rules.header error) with
  | error fault => exact .inl ⟨fault, rfl, notice_of_error hread⟩
  | ok asked =>
    cases asked with
    | none => exact .inr ⟨_, _, _, _, notice_of_unasked hread⟩
    | some seconds => exact .inr ⟨_, _, _, _, notice_of_asked hread⟩

/-- Where there is a notice, its delay can be slept. -/
theorem exists_sleepSeconds {r : Notice ε × Twister}
    (h : rules.notice p attempt error gen = .ok r) :
    ∃ sleep, sleepSeconds r.1.delay = .ok sleep := by
  rcases exists_delay_of_notice rules p attempt error gen with
    ⟨fault, -, hnotice⟩ | ⟨asked, draw, fromHeader, gen', hnotice⟩
  · rw [hnotice] at h
    cases h
  · rw [hnotice] at h
    cases hdelay : p.delay attempt asked draw with
    | error fault => rw [hdelay] at h; cases h
    | ok ms =>
      rw [hdelay] at h
      cases h
      exact Policy.exists_sleepSeconds hdelay

/-- No notice is refused in a way that the staking domain knows. -/
theorem code?_of_notice (h : rules.notice p attempt error gen = .error fault) :
    fault.code? = none := by
  rcases exists_delay_of_notice rules p attempt error gen with
    ⟨fault', hread, hnotice⟩ | ⟨asked, draw, fromHeader, gen', hnotice⟩
  · rw [hnotice] at h
    cases h
    exact RetryAfter.code?_of_read hread
  · rw [hnotice] at h
    cases hdelay : p.delay attempt asked draw with
    | ok ms => rw [hdelay] at h; cases h
    | error fault' =>
      rw [hdelay] at h
      cases h
      exact Policy.code?_of_delay hdelay

/-- With a policy within the range of doubles, there is a notice wherever the header is usable,
and nowhere else. -/
theorem exists_notice_iff (hranged : p.Ranged) :
    (∃ r, rules.notice p attempt error gen = .ok r) ↔
      RetryAfter.Usable rules.nowMs (rules.header error) := by
  cases hread : RetryAfter.read rules.nowMs (rules.header error) with
  | error fault =>
    rw [notice_of_error hread]
    constructor
    · rintro ⟨r, h⟩
      cases h
    · rintro ⟨asked, h, -⟩
      rw [hread] at h
      cases h
  | ok asked =>
    cases asked with
    | none =>
      obtain ⟨ms, hdelay⟩ := hranged attempt gen.draw.1 gen.draw_lt
      rw [notice_of_unasked hread]
      show (∃ r, (p.jitteredDelay attempt gen.draw.1).map _ = .ok r) ↔ _
      rw [hdelay]
      exact iff_of_true ⟨_, rfl⟩ ⟨none, hread, fun _ h => nomatch h⟩
    | some seconds =>
      rw [notice_of_asked hread]
      show (∃ r, ((Policy.wholeMs seconds).map _).map _ = .ok r) ↔ _
      constructor
      · rintro ⟨r, h⟩
        refine ⟨some seconds, hread, ?_⟩
        rintro _ ⟨⟩
        cases hwhole : Policy.wholeMs seconds with
        | error fault => rw [hwhole] at h; cases h
        | ok ms => exact ⟨ms, rfl⟩
      · rintro ⟨asked, hasked, hwhole⟩
        rw [hread] at hasked
        cases hasked
        obtain ⟨ms, hms⟩ := hwhole seconds rfl
        rw [hms]
        exact ⟨_, rfl⟩

end Rules

/-! ## Calls -/

variable {rules : Rules ε} {p : Policy} {script : Nat → Except ε α}

/-- The call fails with an error that is retried. -/
def Repeats (rules : Rules ε) (script : Nat → Except ε α) (i : Nat) : Prop :=
  ∃ error, script i = .error error ∧ rules.retryable error = true

/-- How the calls from number `first` on go that a report tells of, where `left` of them may be
repeated and `n` are. -/
structure Course (rules : Rules ε) (p : Policy) (script : Nat → Except ε α) (first left n : Nat)
    (report : Report ε α) : Prop where
  calls : report.calls = n + 1
  le : n ≤ left
  repeated : ∀ i < n, ∃ error gen r, script (first + i) = .error error ∧
    rules.retryable error = true ∧ rules.notice p (first + i + 1) error gen = .ok r
  returned : ∀ value, report.ending = .returned value → script (first + n) = .ok value
  raised : ∀ error, report.ending = .raised error →
    script (first + n) = .error error ∧ (rules.retryable error = true → n = left)
  broken : ∀ fault, report.ending = .broken fault →
    n < left ∧ ∃ error gen, script (first + n) = .error error ∧
      rules.retryable error = true ∧ rules.notice p (first + n + 1) error gen = .error fault

/-- One more call in front. -/
theorem Course.after {first left n : Nat} {report : Report ε α} {error : ε} {gen : Twister}
    {r : Notice ε × Twister} (h : Course rules p script (first + 1) left n report)
    (herror : script first = .error error) (hretryable : rules.retryable error = true)
    (hnotice : rules.notice p (first + 1) error gen = .ok r) (sleep : Float) :
    Course rules p script first (left + 1) (n + 1) (report.after r.1 sleep) where
  calls := congrArg (· + 1) h.calls
  le := Nat.succ_le_succ h.le
  repeated := by
    rintro (_ | i) hi
    · exact ⟨error, gen, r, herror, hretryable, hnotice⟩
    · have := h.repeated i (Nat.lt_of_succ_lt_succ hi)
      rwa [Nat.add_right_comm first 1 i] at this
  returned := by
    intro value hvalue
    have := h.returned value hvalue
    rwa [Nat.add_right_comm first 1 n] at this
  raised := by
    intro error' hraised
    obtain ⟨hlast, hleft⟩ := h.raised error' hraised
    rw [Nat.add_right_comm first 1 n] at hlast
    exact ⟨hlast, fun hretry => congrArg (· + 1) (hleft hretry)⟩
  broken := by
    intro fault hbroken
    obtain ⟨hlt, hlast⟩ := h.broken fault hbroken
    rw [Nat.add_right_comm first 1 n] at hlast
    exact ⟨Nat.succ_lt_succ hlt, hlast⟩

/-- A course of a single call. -/
theorem Course.single {first left : Nat} {report : Report ε α} (hcalls : report.calls = 1)
    (hreturned : ∀ value, report.ending = .returned value → script first = .ok value)
    (hraised : ∀ error, report.ending = .raised error →
      script first = .error error ∧ (rules.retryable error = true → left = 0))
    (hbroken : ∀ fault, report.ending = .broken fault → 0 < left ∧ ∃ error gen,
      script first = .error error ∧ rules.retryable error = true ∧
        rules.notice p (first + 1) error gen = .error fault) :
    Course rules p script first left 0 report where
  calls := hcalls
  le := Nat.zero_le _
  repeated := fun _ h => nomatch h
  returned := hreturned
  raised := fun error h => ⟨(hraised error h).1, fun hretry => ((hraised error h).2 hretry).symm⟩
  broken := hbroken

section Steps

variable {left first : Nat} {gen : Twister} {error : ε}

theorem attemptFrom_returned {value : α} (h : script first = .ok value) :
    attemptFrom rules p script left (first + 1) gen =
      { ending := .returned value, calls := 1 } := by
  unfold attemptFrom
  rw [Nat.add_sub_cancel, h]

theorem attemptFrom_raised (h : script first = .error error)
    (hstop : rules.retryable error = true → left = 0) :
    attemptFrom rules p script left (first + 1) gen = { ending := .raised error, calls := 1 } := by
  unfold attemptFrom
  rw [Nat.add_sub_cancel, h]
  dsimp only
  split
  · next hretry => exact nomatch hstop hretry
  · rfl

theorem attemptFrom_broken {fault : Fault} (h : script first = .error error)
    (hretry : rules.retryable error = true)
    (hnotice : rules.notice p (first + 1) error gen = .error fault) :
    attemptFrom rules p script (left + 1) (first + 1) gen =
      { ending := .broken fault, calls := 1 } := by
  unfold attemptFrom
  rw [Nat.add_sub_cancel, h]
  simp only [hretry, hnotice]

theorem attemptFrom_again {r : Notice ε × Twister} {sleep : Float}
    (h : script first = .error error) (hretry : rules.retryable error = true)
    (hnotice : rules.notice p (first + 1) error gen = .ok r)
    (hsleep : sleepSeconds r.1.delay = .ok sleep) :
    attemptFrom rules p script (left + 1) (first + 1) gen =
      (attemptFrom rules p script left (first + 1 + 1) r.2).after r.1 sleep := by
  conv_lhs => unfold attemptFrom
  rw [Nat.add_sub_cancel, h]
  simp only [hretry, hnotice, hsleep]

end Steps

/-- The calls that are made follow a course. -/
theorem exists_course (rules : Rules ε) (p : Policy) (script : Nat → Except ε α)
    (left first : Nat) (gen : Twister) :
    ∃ n, Course rules p script first left n (attemptFrom rules p script left (first + 1) gen) := by
  induction left generalizing first gen with
  | zero =>
    cases hcall : script first with
    | ok value =>
      rw [attemptFrom_returned hcall]
      exact ⟨0, .single rfl (by rintro _ ⟨⟩; exact hcall) nofun nofun⟩
    | error error =>
      rw [attemptFrom_raised hcall fun _ => rfl]
      exact ⟨0, .single rfl nofun (by rintro _ ⟨⟩; exact ⟨hcall, fun _ => rfl⟩) nofun⟩
  | succ left ih =>
    cases hcall : script first with
    | ok value =>
      rw [attemptFrom_returned hcall]
      exact ⟨0, .single rfl (by rintro _ ⟨⟩; exact hcall) nofun nofun⟩
    | error error =>
      cases hretry : rules.retryable error with
      | false =>
        have hstop : rules.retryable error = true → left + 1 = 0 := by simp [hretry]
        rw [attemptFrom_raised hcall hstop]
        exact ⟨0, .single rfl nofun (by rintro _ ⟨⟩; exact ⟨hcall, hstop⟩) nofun⟩
      | true =>
        cases hnotice : rules.notice p (first + 1) error gen with
        | error fault =>
          rw [attemptFrom_broken hcall hretry hnotice]
          refine ⟨0, .single rfl nofun nofun ?_⟩
          rintro _ ⟨⟩
          exact ⟨Nat.succ_pos _, error, gen, hcall, hretry, hnotice⟩
        | ok r =>
          obtain ⟨sleep, hsleep⟩ := Rules.exists_sleepSeconds hnotice
          obtain ⟨n, hcourse⟩ := ih (first + 1) r.2
          rw [attemptFrom_again hcall hretry hnotice hsleep]
          exact ⟨n + 1, hcourse.after hcall hretry hnotice sleep⟩

/-- The course of a run: of its attempts, all but the first may be repetitions. -/
theorem exists_course_run (rules : Rules ε) (p : Policy) (script : Nat → Except ε α) :
    ∃ n < p.attempts, Course rules p script 0 (p.attempts - 1) n (run rules p script) := by
  obtain ⟨n, hcourse⟩ :=
    exists_course rules p script (p.attempts - 1) 0 (Twister.ofSeed p.seed)
  have := p.attempts_pos
  have := hcourse.le
  exact ⟨n, by omega, hcourse⟩

/-- A run that returns does so with the value of its last call, and the calls before have failed
with errors that are retried. -/
theorem exists_of_returned {value : α} (h : (run rules p script).ending = .returned value) :
    ∃ n < p.attempts, (run rules p script).calls = n + 1 ∧ (∀ i < n, Repeats rules script i) ∧
      script n = .ok value := by
  obtain ⟨n, hn, hcourse⟩ := exists_course_run rules p script
  refine ⟨n, hn, hcourse.calls, fun i hi => ?_, ?_⟩
  · obtain ⟨error, _, _, herror, hretry, -⟩ := hcourse.repeated i hi
    rw [Nat.zero_add] at herror
    exact ⟨error, herror, hretry⟩
  · have hlast := hcourse.returned value h
    rwa [Nat.zero_add] at hlast

/-- A run ends with a fault of its own exactly if it has to repeat a call of which the error's
header is not usable. -/
theorem exists_broken_iff (hranged : p.Ranged) :
    (∃ fault, (run rules p script).ending = .broken fault) ↔
      ∃ n, n + 1 < p.attempts ∧ (∀ i ≤ n, Repeats rules script i) ∧
        ∃ error, script n = .error error ∧
          ¬RetryAfter.Usable rules.nowMs (rules.header error) := by
  obtain ⟨n, hn, hcourse⟩ := exists_course_run rules p script
  have hrepeated : ∀ i < n, ∃ error, script i = .error error ∧ rules.retryable error = true ∧
      RetryAfter.Usable rules.nowMs (rules.header error) := by
    intro i hi
    obtain ⟨error, gen, r, herror, hretry, hnotice⟩ := hcourse.repeated i hi
    rw [Nat.zero_add] at herror
    exact ⟨error, herror, hretry, (Rules.exists_notice_iff hranged).mp ⟨r, hnotice⟩⟩
  constructor
  · rintro ⟨fault, hbroken⟩
    obtain ⟨hlt, error, gen, herror, hretry, hnotice⟩ := hcourse.broken fault hbroken
    rw [Nat.zero_add] at herror
    refine ⟨n, by omega, fun i hi => ?_, error, herror, fun husable => ?_⟩
    · rcases Nat.lt_or_eq_of_le hi with hi | rfl
      · obtain ⟨error', herror', hretry', -⟩ := hrepeated i hi
        exact ⟨error', herror', hretry'⟩
      · exact ⟨error, herror, hretry⟩
    · obtain ⟨r, hr⟩ := (Rules.exists_notice_iff hranged).mpr husable
      rw [hr] at hnotice
      cases hnotice
  · rintro ⟨m, hm, hrepeats, error, herror, hunusable⟩
    -- the calls do not get past number `m`, and number `m` is not the last to be repeated
    have hle : n ≤ m := by
      by_contra hlt
      obtain ⟨error', herror', -, husable⟩ := hrepeated m (by omega)
      rw [herror] at herror'
      cases herror'
      exact hunusable husable
    obtain ⟨last, hlast, hretry⟩ := hrepeats n hle
    cases hending : (run rules p script).ending with
    | returned value =>
      have := hcourse.returned value hending
      rw [Nat.zero_add, hlast] at this
      cases this
    | raised error' =>
      obtain ⟨herror', hleft⟩ := hcourse.raised error' hending
      rw [Nat.zero_add, hlast] at herror'
      cases herror'
      have := hleft hretry
      omega
    | broken fault => exact ⟨fault, rfl⟩

/-- The fault of a run is none that the staking domain knows. -/
theorem code?_of_broken {fault : Fault} (h : (run rules p script).ending = .broken fault) :
    fault.code? = none := by
  obtain ⟨n, -, hcourse⟩ := exists_course_run rules p script
  obtain ⟨-, _, _, -, -, hnotice⟩ := hcourse.broken fault h
  exact Rules.code?_of_notice hnotice

end Retry

end StakeLedger
