import StakeLedger.Proofs.Firing
import StakeLedger.Proofs.Retries
import StakeLedger.Proofs.TriggerAddresses
import StakeLedger.Proofs.WriteSets

/-
  Updates of triggers at a trigger service.
  An update is the course of a retry loop whose errors are the answers that settle nothing. It is
  broken only by a header that asks for a delay that cannot be computed
  (`Placed.exists_broken_iff`). It ends well only with a response below 400 (`Settles`), which is
  one of acceptance if the service sends no response that is provisional or points elsewhere:
  those count as well (`settles_of_rescheduled`).
-/

namespace StakeLedger

namespace ServiceAnswer

/-- Does the answer settle an update? -/
def isConclusive : ServiceAnswer → Bool
  | .unreachable => false
  | .response status _ _ => status ≠ 429 && status < 500

/-- The header that asks for a delay. -/
def header : ServiceAnswer → Option String
  | .unreachable => none
  | .response _ _ retryAfter => retryAfter

/-- The answer says that the request was accepted. -/
def Accepts (answer : ServiceAnswer) : Prop :=
  ∃ status body retryAfter, answer = .response status body retryAfter ∧
    200 ≤ status ∧ status < 300

variable {answer : ServiceAnswer} {address : Address} {key : String}

/-- An address without a place for cookies refuses a response; any other leaves it to its status. -/
theorem verdict_response (address : Address) (key : String) (status : Int) (body : String)
    (retryAfter : Option String) :
    (∃ fault, (response status body retryAfter).verdict address key = .error (.refused fault)) ∨
      (response status body retryAfter).verdict address key =
        verdictOf key status body retryAfter := by
  unfold verdict
  dsimp only
  split
  · exact .inl ⟨_, rfl⟩
  · split
    · exact .inl ⟨_, rfl⟩
    · exact .inr rfl

/-- Whatever the address, only a response below 400 is taken for a stored trigger. -/
theorem exists_of_verdict_ok {u : Unit} (h : answer.verdict address key = .ok u) :
    ∃ status body retryAfter, answer = .response status body retryAfter ∧ status < 400 := by
  cases answer with
  | unreachable => cases h
  | response status body retryAfter =>
    refine ⟨status, body, retryAfter, rfl, ?_⟩
    rcases verdict_response address key status body retryAfter with ⟨fault, hrefused⟩ | hverdict
    · rw [hrefused] at h
      cases h
    · rw [hverdict, verdictOf] at h
      split at h
      · cases h
      · split at h
        · cases h
        · omega

/-- An inconclusive answer asks for the delay of its header. -/
theorem header_of_verdict {header : Option String}
    (h : answer.verdict address key = .error (.inconclusive header)) :
    answer.isConclusive = false ∧ answer.header = header := by
  cases answer with
  | unreachable =>
    cases h
    exact ⟨rfl, rfl⟩
  | response status body retryAfter =>
    rcases verdict_response address key status body retryAfter with ⟨fault, hrefused⟩ | hverdict
    · rw [hrefused] at h
      cases h
    · rw [hverdict, verdictOf] at h
      split at h
      · next hstatus =>
        cases h
        refine ⟨?_, rfl⟩
        simp only [isConclusive, Bool.and_eq_false_iff, decide_eq_false_iff_not, not_lt]
        omega
      · split at h <;> cases h

end ServiceAnswer

namespace TriggerClient

variable {c : TriggerClient} {key : String} {address : Address}

/-- The answer to the request number `i` that is to come. -/
def nextAnswer (c : TriggerClient) (i : Nat) : ServiceAnswer := c.answers (c.requests.length + i)

/-- The answer to the last request. -/
def lastAnswer (c : TriggerClient) : ServiceAnswer := c.answers (c.requests.length - 1)

/-- The later client has got a response below 400 for its last request, and no answer since the
earlier one had settled anything. -/
def Settles (c later : TriggerClient) : Prop :=
  ∃ n < c.policy.attempts, later.requests.length = c.requests.length + (n + 1) ∧
    later.lastAnswer = c.nextAnswer n ∧ (∀ i < n, (c.nextAnswer i).isConclusive = false) ∧
    ∃ status body retryAfter,
      later.lastAnswer = .response status body retryAfter ∧ status < 400

/-- Where cookies have a place, the verdict on an answer is that on its status. -/
theorem Placed.verdict (h : c.Placed key address) (answer : ServiceAnswer) :
    answer.verdict address key =
      match answer with
      | .unreachable => .error (.inconclusive none)
      | .response status body retryAfter => verdictOf key status body retryAfter := by
  cases answer with
  | unreachable => rfl
  | response status body retryAfter =>
    simp [ServiceAnswer.verdict, h.hasScheme, h.noLoneBracket]

theorem repeats_iff_header (c : TriggerClient) (address : Address) (key : String) (i : Nat) :
    Retry.Repeats c.rules (fun n => (c.nextAnswer n).verdict address key) i ↔
      ∃ header, (c.nextAnswer i).verdict address key = .error (.inconclusive header) := by
  constructor
  · rintro ⟨error, herror, hretry⟩
    cases error with
    | inconclusive header => exact ⟨header, herror⟩
    | refused fault => cases hretry
  · rintro ⟨header, hverdict⟩
    exact ⟨_, hverdict, rfl⟩

/-- Where cookies have a place, a request is repeated exactly if its answer settles nothing. -/
theorem Placed.verdict_of_inconclusive (h : c.Placed key address) {answer : ServiceAnswer}
    (hanswer : answer.isConclusive = false) :
    answer.verdict address key = .error (.inconclusive answer.header) := by
  rw [h.verdict]
  cases answer with
  | unreachable => rfl
  | response status body retryAfter =>
    simp only [ServiceAnswer.isConclusive, Bool.and_eq_false_iff, decide_eq_false_iff_not,
      not_lt] at hanswer
    show verdictOf key status body retryAfter = _
    unfold verdictOf
    rw [if_pos (by omega)]
    rfl

/-- A refusal is a fault of the scheduler. -/
theorem Placed.code?_of_refused (h : c.Placed key address) {answer : ServiceAnswer} {fault : Fault}
    (hverdict : answer.verdict address key = .error (.refused fault)) :
    fault.code? = some .scheduler := by
  rw [h.verdict] at hverdict
  cases answer with
  | unreachable => cases hverdict
  | response status body retryAfter =>
    dsimp only at hverdict
    unfold verdictOf at hverdict
    split at hverdict
    · cases hverdict
    · split at hverdict
      · cases hverdict
        rfl
      · cases hverdict

/-- The client is misled by a header: an answer that settles nothing, and is not the last that
the policy allows, has one that is not usable, and no answer before it has settled the update. -/
def Misled (c : TriggerClient) : Prop :=
  ∃ n, n + 1 < c.policy.attempts ∧ (∀ i ≤ n, (c.nextAnswer i).isConclusive = false) ∧
    ¬RetryAfter.Usable c.nowMs (c.nextAnswer n).header

/-- The course of an update is broken exactly if the client is misled. -/
theorem Placed.exists_broken_iff (h : c.Placed key address) (hranged : c.policy.Ranged) :
    (∃ fault, (c.update address key).ending = .broken fault) ↔ c.Misled := by
  have hupdate : c.update address key =
      Retry.run c.rules c.policy fun n => (c.nextAnswer n).verdict address key := rfl
  rw [hupdate, Retry.exists_broken_iff hranged]
  refine exists_congr fun n => and_congr_right fun _ => ?_
  constructor
  · rintro ⟨hrepeats, error, herror, husable⟩
    refine ⟨fun i hi => ?_, ?_⟩
    · obtain ⟨header, hverdict⟩ := (c.repeats_iff_header address key i).mp (hrepeats i hi)
      exact (ServiceAnswer.header_of_verdict hverdict).1
    · obtain ⟨header, hverdict⟩ := (c.repeats_iff_header address key n).mp (hrepeats n le_rfl)
      cases herror.symm.trans hverdict
      rw [(ServiceAnswer.header_of_verdict hverdict).2]
      exact husable
  · rintro ⟨hinconclusive, husable⟩
    refine ⟨fun i hi => ?_, _, h.verdict_of_inconclusive (hinconclusive n le_rfl), husable⟩
    exact (c.repeats_iff_header address key i).mpr
      ⟨_, h.verdict_of_inconclusive (hinconclusive i hi)⟩

/-- An update that ends well has settled the matter. -/
theorem settles_of_returned {u : Unit} (h : (c.update address key).ending = .returned u)
    (expression : String) : c.Settles (c.after address expression (c.update address key)) := by
  obtain ⟨n, hn, hcalls, hrepeats, hlast⟩ := Retry.exists_of_returned h
  have hlength : (c.after address expression (c.update address key)).requests.length =
      c.requests.length + (n + 1) := by
    show (c.requests ++ List.replicate (c.update address key).calls _).length = _
    rw [List.length_append, List.length_replicate]
    exact congrArg _ hcalls
  have hanswer : (c.after address expression (c.update address key)).lastAnswer =
      c.nextAnswer n := by
    show c.answers ((c.after address expression (c.update address key)).requests.length - 1) = _
    rw [hlength]
    rfl
  have hbelow := ServiceAnswer.exists_of_verdict_ok hlast
  refine ⟨n, hn, hlength, hanswer, fun i hi => ?_, hanswer ▸ hbelow⟩
  obtain ⟨header, hverdict⟩ := (c.repeats_iff_header address key i).mp (hrepeats i hi)
  exact (ServiceAnswer.header_of_verdict hverdict).1

/-- A first response below 400 ends an update well. -/
theorem Placed.update_of_response (h : c.Placed key address) {status : Int} {body : String}
    {retryAfter : Option String} (hanswer : c.nextAnswer 0 = .response status body retryAfter)
    (hstatus : status < 400) : (c.update address key).ending = .returned () := by
  have hverdict : (c.nextAnswer 0).verdict address key = .ok () := by
    rw [h.verdict, hanswer]
    dsimp only
    unfold verdictOf
    rw [if_neg (by omega), if_neg (by omega)]
  unfold update Retry.run
  rw [Retry.attemptFrom_returned hverdict]

end TriggerClient

namespace Service

open Work

variable {books after : Books Partners} {client : TriggerClient} {key expression : String}
  {address : Address}

/-- The record of a request that is repeated. -/
def retryRecord (context : Log.Context) (key : String) (notice : Retry.Notice UpdateFailure) :
    Log.Record :=
  { level := Log.Level.warning
    logger := Scheduling.logger
    message := "scheduler_retry"
    extra := [("trigger_key", .text key), ("attempt", .int notice.attempt),
      ("delay_ms", .int notice.delay), ("error_type", .text "_RetryableSchedulerError")]
    context := context }

/-- The record of a trigger that is stored. -/
def upsertedRecord (context : Log.Context) (key expression : String) : Log.Record :=
  { level := Log.Level.info
    logger := Scheduling.logger
    message := "trigger_upserted"
    extra := [("trigger_key", .text key), ("schedule", .text expression)]
    context := context }

/-- What an update writes at its end: that the trigger is stored, if it is. -/
def endRecords (context : Log.Context) (key expression : String) :
    Except Fault Unit → List Log.Record
  | .ok _ => [upsertedRecord context key expression]
  | .error _ => []

/-- Records of repetitions are only written. -/
theorem runOn_logRetries (notices : List (Retry.Notice UpdateFailure)) (books : Books Partners) :
    (notices.forM (Scheduling.logRetry key)).runOn books =
      (.ok (), { books with log := books.log ++ notices.map (retryRecord books.context key) }) := by
  induction notices generalizing books with
  | nil => rw [List.map_nil, List.append_nil]; rfl
  | cons notice rest ih =>
    have hrest := ih { books with log := books.log ++ [retryRecord books.context key notice] }
    rw [List.append_assoc] at hrest
    exact hrest

/-- What sending an update comes to: how its course ends, the records of it, and the client after
it. -/
theorem runOn_send_eq (haddress : client.address key = .ok address) (expression : String)
    (books : Books Partners) :
    (Scheduling.send client key expression).runOn books =
      (client.outcome key (client.update address key).ending, { books with
        log := books.log ++
          (client.update address key).notices.map (retryRecord books.context key) ++
          endRecords books.context key expression
            (client.outcome key (client.update address key).ending)
        outside := { books.outside with
          scheduler :=
            .remote (client.after address expression (client.update address key)) } }) := by
  have hcheck : (check (client.address key) : Service Address).runOn books =
      (.ok address, books) := by
    rw [haddress]
    rfl
  have hset : (setScheduler (.remote (client.after address expression
      (client.update address key)))).runOn books = (.ok (), { books with outside :=
        { books.outside with scheduler := .remote (client.after address expression
            (client.update address key)) } }) := rfl
  unfold Scheduling.send
  rw [runOn_bind, hcheck]
  dsimp only
  rw [runOn_bind, hset]
  dsimp only
  rw [runOn_bind, runOn_logRetries]
  dsimp only
  rw [runOn_bind]
  cases client.outcome key (client.update address key).ending with
  | error fault =>
    rw [endRecords, List.append_nil]
    rfl
  | ok u => rfl

/-- An update that is sent ends as its course does. -/
theorem runOn_send (haddress : client.address key = .ok address) (expression : String)
    (books : Books Partners) :
    ((Scheduling.send client key expression).runOn books).1 =
        client.outcome key (client.update address key).ending ∧
      ((Scheduling.send client key expression).runOn books).2.outside = { books.outside with
        scheduler := .remote (client.after address expression (client.update address key)) } := by
  rw [runOn_send_eq haddress]
  exact ⟨rfl, rfl⟩

/-- What is stored by sending has been settled. -/
theorem settles_of_send {u : Unit}
    (h : (Scheduling.send client key expression).runOn books = (.ok u, after)) :
    ∃ later, after.outside.scheduler = .remote later ∧ later.answers = client.answers ∧
      client.Settles later := by
  obtain ⟨address, haddress, houtside⟩ := runOn_send_ok h
  have hresult := (runOn_send haddress expression books).1
  rw [h] at hresult
  refine ⟨client.after address expression (client.update address key), by rw [houtside], rfl, ?_⟩
  cases hending : (client.update address key).ending with
  | returned u => exact TriggerClient.settles_of_returned hending expression
  | broken fault => rw [hending] at hresult; cases hresult
  | raised error => rw [hending] at hresult; cases error <;> cases hresult

theorem runOn_upsert_of_remote (hscheduler : books.outside.scheduler = .remote client) :
    (upsert key expression).runOn books =
      (Scheduling.send client key expression).runOn books := by
  rw [upsert, runOn_bind, show (partners : Service Partners).runOn books =
    (.ok books.outside, books) from rfl]
  dsimp only
  rw [hscheduler]

/-- Moving a trigger ends as its update does. -/
theorem runOn_move_of_remote {p : Position} {r : Purge.Reschedule}
    (hscheduler : books.outside.scheduler = .remote client)
    (haddress : client.address r.key = .ok address) :
    ∃ after, (Purges.move p r).runOn books =
        (client.outcome r.key (client.update address r.key).ending, after) ∧
      after.outside = { books.outside with
        scheduler := .remote
          (client.after address r.expression.text (client.update address r.key)) } := by
  have hinside : ∀ inside : Books Partners, inside.outside = books.outside → ∃ after,
      (do
        upsert r.key r.expression.text
        Purges.log "purge_rescheduled"
          [("expiry_ts", .int r.expiry), ("schedule", .text r.expression.text)]
        : Service Unit).runOn inside =
          (client.outcome r.key (client.update address r.key).ending, after) ∧
        after.outside = { books.outside with
          scheduler := .remote
            (client.after address r.expression.text (client.update address r.key)) } := by
    intro inside hpartners
    obtain ⟨hresult, houtside⟩ := runOn_send haddress r.expression.text inside
    rw [runOn_bind, runOn_upsert_of_remote (hpartners ▸ hscheduler), ← hpartners]
    generalize (Scheduling.send client r.key r.expression.text).runOn inside = run at *
    obtain ⟨result, after⟩ := run
    dsimp only at hresult houtside ⊢
    rw [← hresult]
    cases result with
    | error fault => exact ⟨_, rfl, houtside⟩
    | ok u => exact ⟨_, rfl, houtside⟩
  obtain ⟨after, hrun, houtside⟩ := hinside (Books.mk books.store (books.context.bind _)
    books.log books.outside) rfl
  unfold Purges.move within
  rw [runOn_ofRun]
  dsimp only
  rw [hrun]
  exact ⟨_, rfl, houtside⟩

/-- A processing that is to move a trigger ends as the update does. -/
theorem runOn_process_of_remote {id : String} {p : Position} {r : Purge.Reschedule}
    (hscheduler : books.outside.scheduler = .remote client)
    (hjudge : (judge id).runOn books = (.ok (p, .reschedule r), after))
    (haddress : client.address r.key = .ok address) :
    ∃ last, (process id).runOn books =
        ((client.outcome r.key (client.update address r.key).ending).map fun _ =>
          ⟨p.id, .rescheduled r⟩, last) ∧
      last.outside = { books.outside with
        scheduler := .remote
          (client.after address r.expression.text (client.update address r.key)) } := by
  obtain ⟨_, _, -, -, -, -, -, houtside⟩ := runOn_judge_ok hjudge
  obtain ⟨last, hmove, hlast⟩ :=
    runOn_move_of_remote (p := p) (houtside ▸ hscheduler) haddress
  refine ⟨last, ?_, houtside ▸ hlast⟩
  rw [process_eq, runOn_bind, hjudge]
  dsimp only [conclude]
  rw [runOn_bind, hmove]
  cases client.outcome r.key (client.update address r.key).ending <;> rfl

/-- A processing that tells of a moved trigger has moved it. -/
theorem exists_send_of_rescheduled {id position : String} {r : Purge.Reschedule}
    (hscheduler : books.outside.scheduler = .remote client)
    (h : (process id).runOn books = (.ok ⟨position, .rescheduled r⟩, after)) :
    ∃ mid inner, (Scheduling.send client r.key r.expression.text).runOn mid = (.ok (), inner) ∧
      inner.outside = after.outside := by
  rw [process_eq] at h
  obtain ⟨⟨p, d⟩, mid, hjudge, hconclude⟩ := runOn_bind_ok_iff.mp h
  obtain ⟨_, _, -, -, -, -, -, houtside⟩ := runOn_judge_ok hjudge
  cases d with
  | finalize f => cases (runOn_pure_ok_iff.mp hconclude).1
  | reschedule r' =>
    obtain ⟨u, last, hmove, hpure⟩ := runOn_bind_ok_iff.mp hconclude
    obtain ⟨hresult, rfl⟩ := runOn_pure_ok_iff.mp hpure
    cases hresult
    simp only [Purges.move, runOn_within_ok_iff, runOn_bind_ok_iff, Purges.log,
      runOn_emit_ok_iff] at hmove
    obtain ⟨_, ⟨⟨⟩, inner, hupsert, rfl⟩, rfl⟩ := hmove
    obtain ⟨present, _, hpartners, hsend⟩ := runOn_bind_ok_iff.mp hupsert
    obtain ⟨rfl, rfl⟩ := runOn_partners_ok_iff.mp hpartners
    rw [houtside, hscheduler] at hsend
    exact ⟨_, inner, hsend, rfl⟩

/-! ## Triggers that count as stored -/

/-- A trigger counts as stored only if the last answer was one of acceptance. -/
def StoredOnlyIfAccepted : Prop :=
  ∀ (client : TriggerClient) (key expression : String) (books after : Books Partners),
    (Scheduling.send client key expression).runOn books = (.ok (), after) →
    ∃ later, after.outside.scheduler = .remote later ∧ later.lastAnswer.Accepts

/-- A client of a service on the same machine that gives one answer to everything. -/
def clientOf (answer : ServiceAnswer) : TriggerClient where
  policy := .standard
  answers := fun _ => answer

/-- The books without a scheduler of their own. -/
def idleBooks : Books Partners := { outside := {} }

/-- A service that answers an update with a response below 400 has it counted as stored. -/
theorem exists_send_clientOf (status : Int) (hstatus : status < 400) (position : String)
    (index : Int) (expression : String) :
    ∃ after, (Scheduling.send (clientOf (.response status "" none)) (Trigger.key position index)
      expression).runOn idleBooks = (.ok (), after) := by
  have hplaced := TriggerClient.placed_ofThisMachine
    (c := clientOf (.response status "" none)) rfl position index
  have hresult := (runOn_send hplaced.address_eq expression idleBooks).1
  rw [hplaced.update_of_response rfl hstatus] at hresult
  generalize (Scheduling.send _ _ _).runOn idleBooks = run at hresult
  obtain ⟨result, after⟩ := run
  exact ⟨after, congrArg (·, after) hresult⟩

/-- A service that sends the request elsewhere is taken to have stored the trigger. -/
theorem not_storedOnlyIfAccepted : ¬StoredOnlyIfAccepted := by
  intro h
  obtain ⟨after, hsend⟩ := exists_send_clientOf 307 (by decide) "a" 0 "0 0 0 1 1 * 1970"
  obtain ⟨later, hlater, status, body, retryAfter, hanswer, hleast, hmost⟩ := h _ _ _ _ _ hsend
  obtain ⟨later', hlater', hanswers, -⟩ := settles_of_send hsend
  cases hlater.symm.trans hlater'
  unfold TriggerClient.lastAnswer at hanswer
  rw [hanswers] at hanswer
  cases hanswer
  omega

/-- A trigger counts as stored, after sending as in a processing that tells of it, only if the
last answer was a response below 400 and no answer before it had settled anything. That is a
response of acceptance, if the service sends none that is provisional or points elsewhere. -/
theorem settles_of_rescheduled (client : TriggerClient) :
    (∀ (key expression : String) (books after : Books Partners),
      (Scheduling.send client key expression).runOn books = (.ok (), after) →
      ∃ later, after.outside.scheduler = .remote later ∧ later.answers = client.answers ∧
        client.Settles later) ∧
    (∀ (id position : String) (r : Purge.Reschedule) (books after : Books Partners),
      books.outside.scheduler = .remote client →
      (process id).runOn books = (.ok ⟨position, .rescheduled r⟩, after) →
      ∃ later, after.outside.scheduler = .remote later ∧ later.answers = client.answers ∧
        client.Settles later) ∧
    ∀ later : TriggerClient, client.Settles later →
      (∀ (status : Int) (body : String) (retryAfter : Option String),
        later.lastAnswer = .response status body retryAfter → ¬status < 200 ∧
          ¬(300 ≤ status ∧ status < 400)) →
      later.lastAnswer.Accepts := by
  refine ⟨fun key expression books after h => settles_of_send h, ?_, ?_⟩
  · intro id position r books after hscheduler h
    obtain ⟨mid, inner, hsend, houtside⟩ := exists_send_of_rescheduled hscheduler h
    rw [← houtside]
    exact settles_of_send hsend
  · rintro later ⟨n, -, -, -, -, status, body, retryAfter, hanswer, hstatus⟩ hplain
    have := hplain status body retryAfter hanswer
    exact ⟨status, body, retryAfter, hanswer, by omega, by omega⟩

/-- The books of a held position, in the hands of a client. -/
def heldBooks (client : TriggerClient) : Books Partners where
  store := ((({} : Ledger).putPool "pool" Purge.heldPool).putPosition Purge.heldPosition).store
  outside :=
    { registrar :=
        { clock := { set := some 0 }
          lockups := .kept (.put {} ("held", 0) Purge.heldLockup) }
      scheduler := .remote client }

/-- The trigger of the held position is to be moved. -/
theorem runOn_judge_heldBooks (client : TriggerClient) :
    ∃ r mid, (judge "held").runOn (heldBooks client) =
      (.ok (Purge.heldPosition, .reschedule r), mid) ∧ r.key = Trigger.key "held" 0 :=
  ⟨_, _, rfl, rfl⟩

/-- A service that has no content to answer with has accepted the trigger of the held position,
sent by itself as well as in a processing. -/
theorem settles_of_rescheduled_held :
    (∃ after later,
      (Scheduling.send (clientOf (.response 204 "" none)) (Trigger.key "held" 0)
        "0 2 0 1 1 * 1970").runOn idleBooks = (.ok (), after) ∧
      after.outside.scheduler = .remote later ∧ later.lastAnswer.Accepts) ∧
    ∃ r after later,
      (process "held").runOn (heldBooks (clientOf (.response 204 "" none))) =
        (.ok ⟨"held", .rescheduled r⟩, after) ∧
      after.outside.scheduler = .remote later ∧ later.lastAnswer.Accepts := by
  obtain ⟨hsend, hprocess, haccepts⟩ := settles_of_rescheduled (clientOf (.response 204 "" none))
  have hplain : ∀ later : TriggerClient, later.answers = (fun _ => .response 204 "" none) →
      ∀ (status : Int) (body : String) (retryAfter : Option String),
        later.lastAnswer = .response status body retryAfter →
          ¬status < 200 ∧ ¬(300 ≤ status ∧ status < 400) := by
    intro later hanswers status body retryAfter hanswer
    rw [TriggerClient.lastAnswer, hanswers] at hanswer
    cases hanswer
    decide
  constructor
  · obtain ⟨after, hrun⟩ := exists_send_clientOf 204 (by decide) "held" 0 "0 2 0 1 1 * 1970"
    obtain ⟨later, hlater, hanswers, hsettles⟩ := hsend _ _ _ _ hrun
    exact ⟨after, later, hrun, hlater, haccepts later hsettles (hplain later hanswers)⟩
  · have hplaced := TriggerClient.placed_ofThisMachine
      (c := clientOf (.response 204 "" none)) rfl "held" 0
    obtain ⟨r, mid, hjudge, hkey⟩ := runOn_judge_heldBooks (clientOf (.response 204 "" none))
    obtain ⟨after, hrun, -⟩ :=
      runOn_process_of_remote rfl hjudge (hkey ▸ hplaced.address_eq)
    rw [hkey, hplaced.update_of_response rfl (by decide)] at hrun
    obtain ⟨later, hlater, hanswers, hsettles⟩ := hprocess _ _ _ _ _ rfl hrun
    exact ⟨r, after, later, hrun, hlater, haccepts later hsettles (hplain later hanswers)⟩

end Service

end StakeLedger
