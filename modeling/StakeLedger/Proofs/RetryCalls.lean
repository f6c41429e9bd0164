import StakeLedger.Proofs.Retries
import Mathlib.Data.List.Forall2

/-
  The calls of a retry loop, one by one.
  What a loop does is known from its script: the call that ends it, the delay that is due after
  each call before, and the draw that each delay of the policy's own takes, which is the next one
  of the seed as a delay that is asked for takes none (`delayDue`). As long as those delays can be
  computed, the loop follows this plan (`exists_conduct`, by induction on the attempts left), and
  whatever happens it ends before the numbers of its attempts run out (`attemptAll_eq`).
-/

namespace StakeLedger

/-- The generator after a number of draws. -/
def Twister.skip (t : Twister) : Nat → Twister
  | 0 => t
  | k + 1 => (t.skip k).draw.2

namespace Retry

variable {ε α : Type}

/-! ## Delays by the number of the call -/

/-- The call fails with an error whose header asks for no delay. -/
def asksNothing (rules : Rules ε) (script : Nat → Except ε α) (i : Nat) : Bool :=
  match script i with
  | .ok _ => false
  | .error error =>
    match RetryAfter.read rules.nowMs (rules.header error) with
    | .ok none => true
    | _ => false

/-- The generator when call number `i` has been made: one draw was taken for each call before it
that asked for no delay. -/
def generatorAt (rules : Rules ε) (p : Policy) (script : Nat → Except ε α) (i : Nat) : Twister :=
  (Twister.ofSeed p.seed).skip ((List.range i).countP (asksNothing rules script))

/-- The delay after call number `i` with its error, and whether it was asked for. -/
def delayDue (rules : Rules ε) (p : Policy) (script : Nat → Except ε α) (i : Nat) (error : ε) :
    Except Fault (Int × Bool) := do
  match ← RetryAfter.read rules.nowMs (rules.header error) with
  | some seconds => (p.delay (i + 1 : Nat) (some seconds) 0).map (·, true)
  | none => (p.delay (i + 1 : Nat) none (generatorAt rules p script i).draw.1).map (·, false)

/-- The notice told of call number `i`: its error, its attempt counted from one, and the delay that
is due. -/
structure Noticed (rules : Rules ε) (p : Policy) (script : Nat → Except ε α) (i : Nat)
    (notice : Notice ε) : Prop where
  error : script i = .error notice.error
  attempt : notice.attempt = i + 1
  delay : delayDue rules p script i notice.error = .ok (notice.delay, notice.fromHeader)

/-- No computation of a delay fails that the loop comes to. -/
def DelaysHold (rules : Rules ε) (p : Policy) (script : Nat → Except ε α) : Prop :=
  ∀ i error, i + 1 < p.attempts → (∀ j ≤ i, Repeats rules script j) →
    script i = .error error → ∃ due, delayDue rules p script i error = .ok due

variable {rules : Rules ε} {p : Policy} {script : Nat → Except ε α} {first left n i : Nat}
  {error : ε} {gen : Twister} {report : Report ε α}

theorem generatorAt_succ (rules : Rules ε) (p : Policy) (script : Nat → Except ε α) (i : Nat) :
    generatorAt rules p script (i + 1) =
      if asksNothing rules script i then (generatorAt rules p script i).draw.2
      else generatorAt rules p script i := by
  unfold generatorAt
  rw [List.range_succ, List.countP_append, List.countP_singleton]
  split <;> rfl

theorem delayDue_of_asked {seconds : Float}
    (h : RetryAfter.read rules.nowMs (rules.header error) = .ok (some seconds)) :
    delayDue rules p script i error = (p.delay (i + 1 : Nat) (some seconds) 0).map (·, true) := by
  simp only [delayDue, h, bind, Except.bind]

theorem delayDue_of_unasked (h : RetryAfter.read rules.nowMs (rules.header error) = .ok none) :
    delayDue rules p script i error =
      (p.delay (i + 1 : Nat) none (generatorAt rules p script i).draw.1).map (·, false) := by
  simp only [delayDue, h, bind, Except.bind]

/-- The loop's notice of a call is the one that is due, and leaves the generator of the next. -/
theorem notice_eq (rules : Rules ε) (p : Policy) (h : script i = .error error) :
    rules.notice p (i + 1) error (generatorAt rules p script i) =
      (delayDue rules p script i error).map fun due =>
        (⟨i + 1, due.1, due.2, error⟩, generatorAt rules p script (i + 1)) := by
  have hasks : asksNothing rules script i =
      match RetryAfter.read rules.nowMs (rules.header error) with
      | .ok none => true
      | _ => false := by
    unfold asksNothing
    rw [h]
  rw [generatorAt_succ, hasks]
  cases hread : RetryAfter.read rules.nowMs (rules.header error) with
  | error fault =>
    rw [Rules.notice_of_error hread, delayDue, hread]
    rfl
  | ok asked =>
    cases asked with
    | none =>
      rw [Rules.notice_of_unasked hread, delayDue_of_unasked hread]
      cases p.delay (i + 1 : Nat) none (generatorAt rules p script i).draw.1 <;> rfl
    | some seconds =>
      rw [Rules.notice_of_asked hread, delayDue_of_asked hread]
      cases p.delay (i + 1 : Nat) (some seconds) 0 <;> rfl

/-- With a policy within the range of doubles, the delays can be computed where all headers are
usable. -/
theorem delaysHold_of_usable (hranged : p.Ranged)
    (husable : ∀ i error, script i = .error error →
      RetryAfter.Usable rules.nowMs (rules.header error)) : DelaysHold rules p script := by
  intro i error _ _ hcall
  obtain ⟨r, hr⟩ := (Rules.exists_notice_iff hranged).mpr (husable i error hcall)
  rw [notice_eq rules p hcall] at hr
  cases hdue : delayDue rules p script i error with
  | ok due => exact ⟨due, rfl⟩
  | error fault =>
    rw [hdue] at hr
    cases hr

/-! ## The course of the calls -/

/-- The sleep lasts some milliseconds: its seconds are their double divided by a thousand. -/
def Lasts (sleep : Float) (ms : Int) : Prop :=
  ∃ x, Binary64.ofInt? ms = some x ∧ sleep = x / 1000

theorem lasts_of_sleepSeconds {ms : Int} {sleep : Float} (h : sleepSeconds ms = .ok sleep) :
    Lasts sleep ms := by
  unfold sleepSeconds at h
  split at h
  · cases h
  · next x hx =>
    cases h
    exact ⟨x, hx, rfl⟩

/-- How calls end with the last one. -/
def Ending.ofCall : Except ε α → Ending ε α
  | .ok value => .returned value
  | .error error => .raised error

/-- The calls from number `first` on, of which `n` are repeated: they end as the last one does, and
each of those before it has its notice, and a sleep that lasts the delay told of in it. -/
structure Conduct (rules : Rules ε) (p : Policy) (script : Nat → Except ε α) (first n : Nat)
    (report : Report ε α) : Prop where
  calls : report.calls = n + 1
  ending : report.ending = .ofCall (script (first + n))
  notices : List.Forall₂ (Noticed rules p script) (List.range' first n) report.notices
  sleeps : List.Forall₂ (fun notice sleep => Lasts sleep notice.delay) report.notices report.sleeps

/-- A call that is not to be repeated is the last one. -/
theorem attemptFrom_last (h : Repeats rules script first → left = 0) :
    attemptFrom rules p script left (first + 1) gen =
      { ending := .ofCall (script first), calls := 1 } := by
  cases hcall : script first with
  | ok value => exact attemptFrom_returned hcall
  | error error => exact attemptFrom_raised hcall fun hretry => h ⟨error, hcall, hretry⟩

theorem Conduct.single (rules : Rules ε) (p : Policy) (script : Nat → Except ε α) (first : Nat) :
    Conduct rules p script first 0 { ending := .ofCall (script first), calls := 1 } :=
  ⟨rfl, rfl, .nil, .nil⟩

/-- One more call in front, which is repeated. -/
theorem Conduct.after {notice : Notice ε} {sleep : Float}
    (h : Conduct rules p script (first + 1) n report)
    (hnotice : Noticed rules p script first notice)
    (hsleep : Lasts sleep notice.delay) :
    Conduct rules p script first (n + 1) (report.after notice sleep) where
  calls := congrArg (· + 1) h.calls
  ending := by
    have hending := h.ending
    rwa [Nat.add_right_comm] at hending
  notices := .cons hnotice h.notices
  sleeps := .cons hsleep h.sleeps

/-- The loop follows its plan up to a call that is not repeated, or to the last attempt. -/
theorem exists_conduct (hdue : DelaysHold rules p script) (left first : Nat)
    (hattempts : first + left + 1 = p.attempts) (hbefore : ∀ j < first, Repeats rules script j) :
    ∃ n ≤ left, (∀ j < first + n, Repeats rules script j) ∧
      (n < left → ¬Repeats rules script (first + n)) ∧
      Conduct rules p script first n (attemptFrom rules p script left (first + 1)
        (generatorAt rules p script first)) := by
  induction left generalizing first with
  | zero =>
    rw [attemptFrom_last fun _ => rfl]
    exact ⟨0, le_rfl, hbefore, fun h => absurd h (lt_irrefl _), .single ..⟩
  | succ left ih =>
    by_cases hrepeats : Repeats rules script first
    · have hbefore' : ∀ j < first + 1, Repeats rules script j := by
        intro j hj
        rcases Nat.lt_succ_iff_lt_or_eq.mp hj with hj | rfl
        · exact hbefore j hj
        · exact hrepeats
      obtain ⟨n, hn, hearlier, hends, hconduct⟩ := ih (first + 1) (by omega) hbefore'
      rw [Nat.add_right_comm, Nat.add_assoc] at hearlier hends
      obtain ⟨error, hcall, hretry⟩ := hrepeats
      obtain ⟨due, hdelay⟩ := hdue first error (by omega)
        (fun j hj => hbefore' j (Nat.lt_succ_of_le hj)) hcall
      have hnotice := notice_eq rules p hcall
      rw [hdelay] at hnotice
      obtain ⟨sleep, hsleep⟩ := Rules.exists_sleepSeconds hnotice
      rw [attemptFrom_again hcall hretry hnotice hsleep]
      exact ⟨n + 1, by omega, hearlier, fun h => hends (by omega),
        hconduct.after ⟨hcall, rfl, hdelay⟩ (lasts_of_sleepSeconds hsleep)⟩
    · rw [attemptFrom_last fun h => absurd h hrepeats]
      exact ⟨0, Nat.zero_le _, hbefore, fun _ => hrepeats, .single ..⟩

/-! ## The numbers of the attempts -/

/-- The attempts with the numbers of a list, one after another, and nothing if they run out. The
last one that may be made is known by its number. -/
def attemptAll (rules : Rules ε) (p : Policy) (script : Nat → Except ε α) :
    List Nat → Twister → Option (Report ε α)
  | [], _ => none
  | attempt :: rest, gen =>
    match script (attempt - 1) with
    | .ok value => some { ending := .returned value, calls := 1 }
    | .error error =>
      if !rules.retryable error || p.attempts ≤ attempt then
        some { ending := .raised error, calls := 1 }
      else
        match rules.notice p attempt error gen with
        | .error fault => some { ending := .broken fault, calls := 1 }
        | .ok (notice, gen) =>
          match sleepSeconds notice.delay with
          | .error fault => some { ending := .broken fault, calls := 1, notices := [notice] }
          | .ok sleep => (attemptAll rules p script rest gen).map (·.after notice sleep)

/-- The attempts do not run out: the last one returns or passes its error on. -/
theorem attemptAll_eq (rules : Rules ε) (script : Nat → Except ε α) (left first : Nat)
    (gen : Twister) (hattempts : first + left + 1 = p.attempts) :
    attemptAll rules p script (List.range' (first + 1) (left + 1)) gen =
      some (attemptFrom rules p script left (first + 1) gen) := by
  induction left generalizing first gen with
  | zero =>
    have hlast : p.attempts ≤ first + 1 := by omega
    rw [attemptFrom_last fun _ => rfl, List.range'_one]
    unfold attemptAll
    rw [Nat.add_sub_cancel]
    cases script first with
    | ok value => rfl
    | error error => simp [hlast, Ending.ofCall]
  | succ left ih =>
    have hmore : ¬p.attempts ≤ first + 1 := by omega
    rw [List.range'_succ]
    unfold attemptAll
    rw [Nat.add_sub_cancel]
    cases hcall : script first with
    | ok value => rw [attemptFrom_returned hcall]
    | error error =>
      cases hretry : rules.retryable error with
      | false =>
        rw [attemptFrom_raised hcall (by simp [hretry])]
        simp [hretry]
      | true =>
        simp only [hretry, hmore, Bool.not_true, Bool.false_or, decide_false, Bool.false_eq_true,
          if_false]
        cases hnotice : rules.notice p (first + 1) error gen with
        | error fault => rw [attemptFrom_broken hcall hretry hnotice]
        | ok r =>
          obtain ⟨sleep, hsleep⟩ := Rules.exists_sleepSeconds hnotice
          rw [attemptFrom_again hcall hretry hnotice hsleep]
          simp only [hsleep]
          rw [ih (first + 1) r.2 (by omega)]
          rfl

theorem attemptAll_run (rules : Rules ε) (p : Policy) (script : Nat → Except ε α) :
    attemptAll rules p script (List.range' 1 p.attempts) (Twister.ofSeed p.seed) =
      some (run rules p script) := by
  have hpos := p.attempts_pos
  have hlast : 0 + (p.attempts - 1) + 1 = p.attempts := by omega
  have hloop := attemptAll_eq rules script (p.attempts - 1) 0 (Twister.ofSeed p.seed) hlast
  rwa [Nat.sub_add_cancel hpos] at hloop

/-! ## The whole run -/

/-- How many calls are made: up to the first that is not to be repeated, if there is one, and no
more than the attempts. -/
structure CallCount (rules : Rules ε) (p : Policy) (script : Nat → Except ε α) (n : Nat) :
    Prop where
  stopped : ∀ i, (∀ j < i, Repeats rules script j) → ¬Repeats rules script i →
    n = min p.attempts (i + 1)
  unstopped : (∀ i, Repeats rules script i) → n = p.attempts

theorem callCount_of_last (hn : n + 1 ≤ p.attempts) (hearlier : ∀ j < n, Repeats rules script j)
    (hends : n + 1 < p.attempts → ¬Repeats rules script n) :
    CallCount rules p script (n + 1) where
  stopped := by
    intro i hbefore hstops
    have hle : n ≤ i := by
      by_contra hlt
      exact hstops (hearlier i (by omega))
    rcases Nat.lt_or_eq_of_le hle with hlt | rfl
    · have hall : ¬n + 1 < p.attempts := fun h => hends h (hbefore n hlt)
      omega
    · omega
  unstopped := by
    intro hrepeats
    have hall : ¬n + 1 < p.attempts := fun h => hends h (hrepeats n)
    omega

theorem attempts_of_noticed {calls : List Nat} {notices : List (Notice ε)}
    (h : List.Forall₂ (Noticed rules p script) calls notices) :
    notices.map (·.attempt) = calls.map (1 + ·) := by
  induction h with
  | nil => rfl
  | cons hnotice _ ih => rw [List.map_cons, List.map_cons, ih, hnotice.attempt, Nat.add_comm]

theorem exists_conduct_run (hdue : DelaysHold rules p script) :
    ∃ n, CallCount rules p script (n + 1) ∧ Conduct rules p script 0 n (run rules p script) := by
  have hpos := p.attempts_pos
  obtain ⟨n, hn, hearlier, hends, hconduct⟩ :=
    exists_conduct hdue (p.attempts - 1) 0 (by omega) (fun j hj => absurd hj (Nat.not_lt_zero j))
  rw [Nat.zero_add] at hearlier hends
  exact ⟨n, callCount_of_last (by omega) hearlier fun h => hends (by omega), hconduct⟩

/-- What a retry loop does, call by call, where the delays that it comes to can be computed. It
calls up to the first call that is not to be repeated, and as often as there are attempts at most,
and ends as its last call does. Each call before has one notice and one sleep, in order: the notice
has its error, its number and the delay that is due, for which the policy's own delays take one draw
each and the others none, and the sleep lasts that delay. In no case do the attempts run out. -/
theorem run_conduct (rules : Rules ε) (p : Policy) (script : Nat → Except ε α)
    (hdue : DelaysHold rules p script) :
    ∃ n, CallCount rules p script (n + 1) ∧
      (run rules p script).calls = n + 1 ∧
      (run rules p script).ending = .ofCall (script n) ∧
      (run rules p script).notices.length = n ∧ (run rules p script).sleeps.length = n ∧
      (run rules p script).notices.map (·.attempt) = List.range' 1 n ∧
      List.Forall₂ (Noticed rules p script) (List.range n) (run rules p script).notices ∧
      List.Forall₂ (fun notice sleep => Lasts sleep notice.delay)
        (run rules p script).notices (run rules p script).sleeps ∧
      attemptAll rules p script (List.range' 1 p.attempts) (Twister.ofSeed p.seed) =
        some (run rules p script) := by
  obtain ⟨n, hcount, hcalls, hending, hnotices, hsleeps⟩ := exists_conduct_run hdue
  rw [Nat.zero_add] at hending
  rw [← List.range_eq_range'] at hnotices
  have hlength : (run rules p script).notices.length = n :=
    hnotices.length_eq.symm.trans List.length_range
  refine ⟨n, hcount, hcalls, hending, hlength, hsleeps.length_eq.symm.trans hlength, ?_, hnotices,
    hsleeps, attemptAll_run rules p script⟩
  rw [attempts_of_noticed hnotices, List.range_eq_range', List.map_add_range']

/-- An error without a header, one that asks for two seconds, one without again, and then a value. -/
def falteringScript : Nat → Except (Option String) Nat
  | 0 => .error none
  | 1 => .error (some "2")
  | 2 => .error none
  | _ => .ok 7

/-- Every error is retried; it is its own header. -/
def falteringRules : Rules (Option String) := { retryable := fun _ => true, header := id }

theorem usable_two : RetryAfter.Usable 0 (some "2") := by
  have hread : (RetryAfter.read 0 (some "2")).toOption.map (·.map (Policy.wholeMs · |>.toOption)) =
      some (some (some 2000)) := by decide +kernel
  cases hasked : RetryAfter.read 0 (some "2") with
  | error fault =>
    rw [hasked] at hread
    cases hread
  | ok asked =>
    refine ⟨asked, hasked, ?_⟩
    rintro seconds rfl
    rw [hasked] at hread
    cases hwhole : Policy.wholeMs seconds with
    | ok ms => exact ⟨ms, rfl⟩
    | error fault => simp [Except.toOption, hwhole] at hread

theorem delaysHold_faltering : DelaysHold falteringRules .standard falteringScript := by
  refine delaysHold_of_usable Policy.ranged_standard ?_
  rintro (_ | _ | _ | i) error ⟨⟩
  · exact RetryAfter.usable_none 0
  · exact usable_two
  · exact RetryAfter.usable_none 0

theorem repeats_faltering (i : Nat) (h : i < 3) : Repeats falteringRules falteringScript i := by
  rcases i with _ | _ | _ | i
  · exact ⟨none, rfl, rfl⟩
  · exact ⟨some "2", rfl, rfl⟩
  · exact ⟨none, rfl, rfl⟩
  · omega

theorem eq_two_of_lasts {sleep : Float} (h : Lasts sleep 2000) : sleep = 2 := by
  have hseconds : (Binary64.ofInt? 2000).map (· / 1000) = some 2 := by decide +kernel
  obtain ⟨x, hx, rfl⟩ := h
  rw [hx] at hseconds
  exact Option.some.inj hseconds

/-- The second call's error asks for two seconds. -/
theorem asked_of_noticed {notice : Notice (Option String)}
    (h : Noticed falteringRules .standard falteringScript 1 notice) :
    notice.delay = 2000 ∧ notice.fromHeader = true := by
  have hdelay : (delayDue falteringRules .standard falteringScript 1 (some "2")).toOption =
      some (2000, true) := by decide +kernel
  have hdue := h.delay
  rw [← Except.error.inj h.error] at hdue
  rw [hdue] at hdelay
  exact Prod.mk.inj (Option.some.inj hdelay)

/-- The third call's error asks for nothing, and of the calls before it one has taken a draw. -/
theorem drawn_of_noticed {notice : Notice (Option String)}
    (h : Noticed falteringRules .standard falteringScript 2 notice) :
    Policy.standard.delay 3 none ((Twister.ofSeed 0).skip 1).draw.1 = .ok notice.delay ∧
      notice.fromHeader = false := by
  have hdraws : (List.range 2).countP (asksNothing falteringRules falteringScript) = 1 := by
    decide +kernel
  have hdue := h.delay
  rw [← Except.error.inj h.error, delayDue_of_unasked rfl, generatorAt, hdraws] at hdue
  change (Policy.standard.delay 3 none ((Twister.ofSeed 0).skip 1).draw.1).map _ = _ at hdue
  cases hown : Policy.standard.delay 3 none ((Twister.ofSeed 0).skip 1).draw.1 with
  | error fault =>
    rw [hown] at hdue
    cases hdue
  | ok ms =>
    rw [hown] at hdue
    obtain ⟨hms, hunasked⟩ := Prod.mk.inj (Except.ok.inj hdue)
    exact ⟨congrArg Except.ok hms, hunasked.symm⟩

/-- The faltering script takes the usual policy all of its four attempts. The delay after the second
is the one that is asked for, of two seconds, and that after the third has the second draw. -/
theorem run_conduct_faltering :
    DelaysHold falteringRules .standard falteringScript ∧
      (run falteringRules .standard falteringScript).calls = 4 ∧
      (run falteringRules .standard falteringScript).ending = .returned 7 ∧
      ∃ one two three first last,
        (run falteringRules .standard falteringScript).notices = [one, two, three] ∧
        (run falteringRules .standard falteringScript).sleeps = [first, 2, last] ∧
        two.delay = 2000 ∧ two.fromHeader = true ∧
        Policy.standard.delay 3 none ((Twister.ofSeed 0).skip 1).draw.1 = .ok three.delay ∧
        three.fromHeader = false ∧ Lasts last three.delay := by
  obtain ⟨n, hcount, hcalls, hending, -, -, -, hnotices, hsleeps, -⟩ :=
    run_conduct falteringRules .standard falteringScript delaysHold_faltering
  have hstops : ¬Repeats falteringRules falteringScript 3 := fun ⟨_, hcall, _⟩ => nomatch hcall
  obtain rfl : n = 3 := Nat.succ.inj (hcount.stopped 3 repeats_faltering hstops)
  refine ⟨delaysHold_faltering, hcalls, hending, ?_⟩
  generalize (run falteringRules .standard falteringScript).notices = notices at hnotices hsleeps ⊢
  generalize (run falteringRules .standard falteringScript).sleeps = sleeps at hsleeps ⊢
  rcases hnotices with _ | ⟨-, _ | ⟨htwo, _ | ⟨hthree, _ | _⟩⟩⟩
  rcases hsleeps with _ | ⟨-, _ | ⟨hslept, _ | ⟨hlast, _ | _⟩⟩⟩
  obtain ⟨htwoSeconds, hasked⟩ := asked_of_noticed htwo
  obtain ⟨hdrawn, hunasked⟩ := drawn_of_noticed hthree
  rw [htwoSeconds] at hslept
  obtain rfl := eq_two_of_lasts hslept
  exact ⟨_, _, _, _, _, rfl, rfl, htwoSeconds, hasked, hdrawn, hunasked, hlast⟩

end Retry

end StakeLedger
