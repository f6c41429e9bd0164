import StakeLedger.Proofs.Calls
import StakeLedger.Proofs.Updates

/-
  Faults of updates in the services that send them.
  A client with a place for the trigger fails with a fault of the scheduler only, unless it is
  misled by a header: then the fault is one that the staking domain does not know, and neither a
  processing nor a sweep makes a result of it. A client that no header can mislead
  (`TriggerClient.Dependable`) remains so from visit to visit, and a sweep that it serves ends
  early only where there is no pool or a decision cannot be taken.
-/

namespace StakeLedger

/-- The result is a fault that the staking domain does not know if the client is misled, and has no
fault but those of the scheduler otherwise. -/
def TypedUnless {α : Type} (misled : Prop) (result : Except Fault α) : Prop :=
  (misled → ∃ fault, result = .error fault ∧ fault.code? = none) ∧
    (¬misled → ∀ fault, result = .error fault → fault.code? = some .scheduler)

namespace TriggerClient

variable {c : TriggerClient} {key : String} {address : Address}

/-- The outcome of an update is typed, unless the client is misled. -/
theorem Placed.typed (h : c.Placed key address) (hranged : c.policy.Ranged) :
    TypedUnless c.Misled (c.outcome key (c.update address key).ending) := by
  have hbroken := h.exists_broken_iff hranged
  refine ⟨fun hmisled => ?_, fun hmisled fault hfault => ?_⟩
  · obtain ⟨fault, hending⟩ := hbroken.mpr hmisled
    exact ⟨fault, by rw [hending]; rfl, Retry.code?_of_broken hending⟩
  · cases hending : (c.update address key).ending with
    | returned u => rw [hending] at hfault; cases hfault
    | broken fault' => exact absurd (hbroken.mp ⟨fault', hending⟩) hmisled
    | raised error =>
      rw [hending] at hfault
      cases error with
      | inconclusive header =>
        cases hfault
        rfl
      | refused fault' =>
        cases hfault
        obtain ⟨n, -, hcourse⟩ := Retry.exists_course_run c.rules c.policy
          fun n => (c.nextAnswer n).verdict address key
        exact h.code?_of_refused (hcourse.raised _ hending).1

/-- No header can mislead the client, and every trigger has a place. -/
structure Dependable (c : TriggerClient) : Prop where
  placed : ∀ position index, ∃ address, c.Placed (Trigger.key position index) address
  ranged : c.policy.Ranged
  usable : ∀ n, (c.answers n).isConclusive = false →
    RetryAfter.Usable c.nowMs (c.answers n).header

theorem Dependable.not_misled (h : c.Dependable) : ¬c.Misled := by
  rintro ⟨n, -, hinconclusive, hheader⟩
  exact hheader (h.usable _ (hinconclusive n le_rfl))

/-- A client remains dependable. -/
theorem Dependable.after (h : c.Dependable) (address : Address) (expression : String)
    (report : Retry.Report UpdateFailure Unit) :
    (c.after address expression report).Dependable where
  placed := by
    intro position index
    obtain ⟨there, hplaced⟩ := h.placed position index
    exact ⟨there, hplaced.address_eq, hplaced.hasScheme, hplaced.noLoneBracket⟩
  ranged := h.ranged
  usable := h.usable

/-- A client of a service on the same machine, under the usual policy, is dependable if the
service asks for no delays. -/
theorem dependable_of_unasked (hbase : c.base = .ofThisMachine) (hpolicy : c.policy = .standard)
    (hunasked : ∀ n, (c.answers n).header = none) : c.Dependable where
  placed := fun position index => ⟨_, placed_ofThisMachine hbase position index⟩
  ranged := hpolicy ▸ Retry.Policy.ranged_standard
  usable := fun n _ => hunasked n ▸ RetryAfter.usable_none _

end TriggerClient

namespace Service

open Work Purge

variable {books mid : Books Partners} {client : TriggerClient} {key expression id : String}
  {address : Address} {p : Position} {r : Reschedule}

/-- Sending is typed, unless the client is misled. -/
theorem typed_send (hplaced : client.Placed key address) (hranged : client.policy.Ranged)
    (expression : String) (books : Books Partners) :
    TypedUnless client.Misled ((Scheduling.send client key expression).runOn books).1 := by
  rw [(runOn_send hplaced.address_eq expression books).1]
  exact hplaced.typed hranged

/-- The key of a trigger that is to be moved is the key of its position. -/
theorem key_of_judge (h : (judge id).runOn books = (.ok (p, .reschedule r), mid)) :
    r.key = Trigger.key p.id p.index := by
  obtain ⟨_, _, -, -, -, hdecision, -, -⟩ := runOn_judge_ok h
  obtain ⟨-, -, -, hkey, -, -⟩ := decision_eq_reschedule_iff.mp hdecision
  exact hkey

/-- A fault that the staking domain does not know ends a visit. -/
theorem runOn_processSafely_of_none {fault : Fault}
    (h : (process id).runOn books = (.error fault, mid)) (hcode : fault.code? = none) :
    (processSafely id).runOn books = (.error fault, mid) := by
  unfold processSafely
  rw [runOn_tryCatch, h]
  simp only [hcode]
  rfl

/-- A visit tells of any other. -/
theorem runOn_processSafely_of_code {fault : Fault} {code : FaultCode}
    (h : (process id).runOn books = (.error fault, mid)) (hcode : fault.code? = some code) :
    ((processSafely id).runOn books).1 = .ok ⟨id, .failed code⟩ := by
  unfold processSafely
  rw [runOn_tryCatch, h]
  simp only [hcode]
  rfl

/-- Telling of a fault is nothing to the partners. -/
theorem outside_processSafely (books : Books Partners) (id : String) :
    ((processSafely id).runOn books).2.outside = ((process id).runOn books).2.outside := by
  unfold processSafely
  rw [runOn_tryCatch]
  rcases (process id).runOn books with ⟨result, after⟩
  cases result with
  | ok r => rfl
  | error fault =>
    dsimp only
    cases fault.code? with
    | none => rfl
    | some code => rfl

/-- A visit that is to move a trigger tells of it or of a fault of the scheduler, unless the
client is misled: then it ends with a fault. -/
theorem visit_of_judge (hscheduler : books.outside.scheduler = .remote client)
    (hjudge : (judge id).runOn books = (.ok (p, .reschedule r), mid))
    (hplaced : client.Placed r.key address) (hranged : client.policy.Ranged) :
    (client.Misled → ∃ fault, ((processSafely id).runOn books).1 = .error fault ∧
      fault.code? = none) ∧
    (¬client.Misled → ∃ outcome, ((processSafely id).runOn books).1 = .ok ⟨id, outcome⟩ ∧
      (outcome = .rescheduled r ∨ outcome = .failed .scheduler)) := by
  obtain ⟨hbroken, htyped⟩ := hplaced.typed hranged
  obtain ⟨last, hrun, -⟩ := runOn_process_of_remote hscheduler hjudge hplaced.address_eq
  obtain ⟨_, _, hp, -⟩ := runOn_judge_ok hjudge
  rw [Store.id_of_position? hp] at hrun
  cases hresult : client.outcome r.key (client.update address r.key).ending with
  | ok u =>
    rw [hresult] at hrun hbroken
    refine ⟨fun hmisled => ?_, fun _ => ⟨.rescheduled r, ?_, .inl rfl⟩⟩
    · obtain ⟨_, ⟨⟩, -⟩ := hbroken hmisled
    · rw [runOn_processSafely_of_ok hrun]
  | error fault =>
    rw [hresult] at hrun hbroken htyped
    refine ⟨fun hmisled => ?_, fun hmisled => ?_⟩
    · obtain ⟨_, ⟨⟩, hcode⟩ := hbroken hmisled
      exact ⟨fault, by rw [runOn_processSafely_of_none hrun hcode], hcode⟩
    · exact ⟨.failed .scheduler, runOn_processSafely_of_code hrun (htyped hmisled fault rfl),
        .inr rfl⟩

/-- A visit with a dependable client leaves one, and it ends early only where a decision cannot
be taken. -/
theorem visit_of_dependable (hscheduler : books.outside.scheduler = .remote client)
    (hdependable : client.Dependable) (id : String) :
    ∃ later, later.Dependable ∧
      ((processSafely id).runOn books).2.outside.scheduler = .remote later ∧
      ((∃ outcome, ((processSafely id).runOn books).1 = .ok ⟨id, outcome⟩) ∨
        ∃ fault, ((processSafely id).runOn books).1 = .error fault ∧
          ((judge id).runOn books).1 = .error fault ∧ fault.code? = none) := by
  have hprocess : (process id).runOn books = (judge id >>= conclude id).runOn books := by
    rw [process_eq]
  rw [outside_processSafely]
  rcases hjudge : (judge id).runOn books with ⟨result, mid⟩
  rw [runOn_bind, hjudge] at hprocess
  cases result with
  | error fault =>
    obtain ⟨-, houtside⟩ := restores_judge id books fault mid hjudge
    refine ⟨client, hdependable, by rw [hprocess, houtside, hscheduler], ?_⟩
    cases hcode : fault.code? with
    | none => exact .inr ⟨fault, by rw [runOn_processSafely_of_none hprocess hcode], rfl, hcode⟩
    | some code => exact .inl ⟨_, runOn_processSafely_of_code hprocess hcode⟩
  | ok decided =>
    obtain ⟨p, d⟩ := decided
    obtain ⟨_, _, -, -, -, -, -, houtside⟩ := runOn_judge_ok hjudge
    cases d with
    | finalize f =>
      refine ⟨client, hdependable, ?_, .inl ⟨.finalized f.pool, ?_⟩⟩
      · rw [hprocess, ← hscheduler, ← houtside]
        rfl
      · rw [runOn_processSafely_of_ok hprocess]
    | reschedule r =>
      obtain ⟨address, hplaced⟩ := hdependable.placed p.id p.index
      rw [← key_of_judge hjudge] at hplaced
      obtain ⟨outcome, hvisit, -⟩ :=
        (visit_of_judge hscheduler hjudge hplaced hdependable.ranged).2 hdependable.not_misled
      obtain ⟨last, hrun, hlast⟩ := runOn_process_of_remote hscheduler hjudge hplaced.address_eq
      exact ⟨_, hdependable.after address r.expression.text (client.update address r.key),
        by rw [hrun, hlast], .inl ⟨outcome, hvisit⟩⟩

/-- Visits one after another end early with a fault, at a visit whose decision cannot be taken. -/
def EndsEarly (books : Books Partners) (ids : List String) (fault : Fault) : Prop :=
  ∃ done id rest, ids = done ++ id :: rest ∧ fault.code? = none ∧
    ((judge id).runOn ((done.mapM processSafely).runOn books).2).1 = .error fault

theorem EndsEarly.cons {result : Result} {rest : List String} {fault : Fault}
    (h : EndsEarly mid rest fault) (hvisit : (processSafely id).runOn books = (.ok result, mid)) :
    EndsEarly books (id :: rest) fault := by
  obtain ⟨done, last, others, rfl, hcode, hjudge⟩ := h
  refine ⟨id :: done, last, others, rfl, hcode, ?_⟩
  rw [List.mapM_cons, runOn_bind, hvisit]
  dsimp only
  rw [runOn_bind_pure]
  exact hjudge

/-- With a dependable client, all visits are told of, unless they end early. -/
theorem visits_of_dependable (hscheduler : books.outside.scheduler = .remote client)
    (hdependable : client.Dependable) (ids : List String) :
    (∃ rs, ((ids.mapM processSafely).runOn books).1 = .ok rs ∧ rs.map (·.position) = ids) ∨
      ∃ fault, ((ids.mapM processSafely).runOn books).1 = .error fault ∧
        EndsEarly books ids fault := by
  induction ids generalizing books client with
  | nil => exact .inl ⟨[], rfl, rfl⟩
  | cons id rest ih =>
    obtain ⟨later, hlater, hnext, hvisit⟩ := visit_of_dependable hscheduler hdependable id
    rw [List.mapM_cons, runOn_bind]
    rcases hrun : (processSafely id).runOn books with ⟨result, after⟩
    rw [hrun] at hnext hvisit
    rcases hvisit with ⟨outcome, ⟨⟩⟩ | ⟨fault, ⟨⟩, hjudge, hcode⟩
    · dsimp only
      rw [runOn_bind_pure]
      rcases ih hnext hlater with ⟨rs, hrs, hids⟩ | ⟨fault, hfault, hearly⟩
      · exact .inl ⟨⟨id, outcome⟩ :: rs, by rw [hrs]; rfl, congrArg (id :: ·) hids⟩
      · exact .inr ⟨fault, by rw [hfault]; rfl, hearly.cons hrun⟩
    · exact .inr ⟨fault, rfl, [], id, rest, rfl, hcode, hjudge⟩

/-- A sweep with a dependable client has a result for each position that it goes through, unless
there is no pool to go through or the visits end early. -/
theorem sweep_of_dependable (hscheduler : books.outside.scheduler = .remote client)
    (hdependable : client.Dependable) (pool : String) :
    match (listed pool).runOn books with
    | (.error fault, _) => ((sweep pool).runOn books).1 = .error fault
    | (.ok ids, mid) =>
      (∃ rs, ((sweep pool).runOn books).1 = .ok rs ∧ rs.map (·.position) = ids) ∨
        ∃ fault, ((sweep pool).runOn books).1 = .error fault ∧ EndsEarly mid ids fault := by
  have houtside : ((listed pool).runOn books).2.outside = books.outside :=
    (Session.readsOnly_listed pool books).2
  rw [sweep_eq, runOn_bind]
  rcases hlisted : (listed pool).runOn books with ⟨result, mid⟩
  rw [hlisted] at houtside
  cases result with
  | error fault => rfl
  | ok ids => exact visits_of_dependable (houtside ▸ hscheduler) hdependable ids

/-! ## Faults of updates -/

/-- Whatever a service answers, the update of a trigger fails with faults of the scheduler only. -/
def FailsTyped : Prop :=
  ∀ (client : TriggerClient) (position : String) (index : Int) (expression : String)
    (address : Address) (books : Books Partners) (fault : Fault),
    client.Placed (Trigger.key position index) address → client.policy.Ranged →
    ((Scheduling.send client (Trigger.key position index) expression).runOn books).1 =
      .error fault → fault.code? = some .scheduler

/-- A date in a year that no machine's calendar has. -/
def farDate : String := "Tue, 14 Nov 99999999999 22:13:20 GMT"

/-- An answer that settles nothing and asks to wait for that date. -/
def farAnswer : ServiceAnswer := .response 503 "" (some farDate)

theorem misled_farAnswer : (clientOf farAnswer).Misled := by
  refine ⟨0, by decide, fun _ _ => rfl, ?_⟩
  rintro ⟨asked, hread, -⟩
  have hfar : RetryAfter.read 0 (some farDate) = .error (.dateFieldTooLarge false false) := rfl
  cases hfar.symm.trans hread

/-- A service that asks to wait for a date in such a year is not taken for one that asks for no
delay. -/
theorem not_failsTyped : ¬FailsTyped := by
  intro h
  have hplaced := TriggerClient.placed_ofThisMachine (c := clientOf farAnswer) rfl "held" 0
  obtain ⟨fault, hfault, hcode⟩ := (typed_send hplaced Retry.Policy.ranged_standard
    "0 2 0 1 1 * 1970" idleBooks).1 misled_farAnswer
  rw [h _ _ _ _ _ _ _ hplaced Retry.Policy.ranged_standard hfault] at hcode
  cases hcode

/-- The update of a trigger that has a place, under a policy within the range of doubles, fails
with faults of the scheduler only, and a visit that is to move the trigger tells of them, unless
the client is misled: then the update fails with a fault that the staking domain does not know,
and the visit with it. So with a client that no header can mislead a sweep tells of every failure
of the scheduler. -/
theorem typedUnless_misled (client : TriggerClient) (books : Books Partners) :
    (∀ (key expression : String) (address : Address),
      client.Placed key address → client.policy.Ranged →
      TypedUnless client.Misled ((Scheduling.send client key expression).runOn books).1) ∧
    (∀ (id : String) (p : Position) (r : Reschedule) (address : Address) (mid : Books Partners),
      books.outside.scheduler = .remote client →
      (judge id).runOn books = (.ok (p, .reschedule r), mid) →
      client.Placed r.key address → client.policy.Ranged →
      (client.Misled → ∃ fault, ((processSafely id).runOn books).1 = .error fault ∧
        fault.code? = none) ∧
      (¬client.Misled → ∃ outcome, ((processSafely id).runOn books).1 = .ok ⟨id, outcome⟩ ∧
        (outcome = .rescheduled r ∨ outcome = .failed .scheduler))) ∧
    ∀ pool : String, books.outside.scheduler = .remote client → client.Dependable →
      match (listed pool).runOn books with
      | (.error fault, _) => ((sweep pool).runOn books).1 = .error fault
      | (.ok ids, mid) =>
        (∃ rs, ((sweep pool).runOn books).1 = .ok rs ∧ rs.map (·.position) = ids) ∨
          ∃ fault, ((sweep pool).runOn books).1 = .error fault ∧ EndsEarly mid ids fault := by
  refine ⟨?_, ?_, ?_⟩
  · exact fun key expression address hplaced hranged =>
      typed_send hplaced hranged expression books
  · exact fun id p r address mid => visit_of_judge
  · exact fun pool hscheduler hdependable => sweep_of_dependable hscheduler hdependable pool

/-- The far date ends the visit to the held position; without it, a sweep tells of the visit. -/
theorem typedUnless_misled_held :
    (∃ fault, ((Scheduling.send (clientOf farAnswer) (Trigger.key "held" 0)
        "0 2 0 1 1 * 1970").runOn idleBooks).1 = .error fault ∧ fault.code? = none) ∧
      (∃ fault, ((processSafely "held").runOn (heldBooks (clientOf farAnswer))).1 =
        .error fault ∧ fault.code? = none) ∧
      ∃ rs, ((sweep "pool").runOn (heldBooks (clientOf (.response 503 "" none)))).1 = .ok rs ∧
        rs.map (·.position) = ["held"] := by
  obtain ⟨hsend, -, -⟩ := typedUnless_misled (clientOf farAnswer) idleBooks
  obtain ⟨-, hvisit, -⟩ := typedUnless_misled (clientOf farAnswer) (heldBooks (clientOf farAnswer))
  obtain ⟨-, -, hsweep⟩ := typedUnless_misled (clientOf (.response 503 "" none))
    (heldBooks (clientOf (.response 503 "" none)))
  have hfar := TriggerClient.placed_ofThisMachine (c := clientOf farAnswer) rfl "held" 0
  obtain ⟨r, mid, hjudge, hkey⟩ := runOn_judge_heldBooks (clientOf farAnswer)
  refine ⟨?_, ?_, ?_⟩
  · exact (hsend _ _ _ hfar Retry.Policy.ranged_standard).1 misled_farAnswer
  · rw [← hkey] at hfar
    exact (hvisit "held" _ _ _ _ rfl hjudge hfar Retry.Policy.ranged_standard).1 misled_farAnswer
  · have hdependable : (clientOf (.response 503 "" none)).Dependable :=
      TriggerClient.dependable_of_unasked rfl rfl fun _ => rfl
    have hlisted : (listed "pool").runOn (heldBooks (clientOf (.response 503 "" none))) =
        (.ok ["held"], heldBooks (clientOf (.response 503 "" none))) := rfl
    have hresults := hsweep "pool" rfl hdependable
    rw [hlisted] at hresults
    rcases hresults with hresults | ⟨fault, -, done, id, rest, hids, -, hjudge⟩
    · exact hresults
    · -- the decision on the position can be taken
      obtain ⟨rfl, rfl, rfl⟩ : done = [] ∧ id = "held" ∧ rest = [] := by
        cases done with
        | nil => simpa [eq_comm] using hids
        | cons first others => simp at hids
      obtain ⟨r, mid, hdecided, -⟩ :=
        runOn_judge_heldBooks (clientOf (.response 503 "" none))
      rw [List.mapM_nil, runOn_pure, hdecided] at hjudge
      cases hjudge

end Service

end StakeLedger
