import StakeLedger.Proofs.PathsBelow
import StakeLedger.Proofs.RetryCalls
import StakeLedger.Proofs.Updates

/-
  The requests of an update, one by one.
  The calls of the retry loop are the requests, and they are repeated as long as the answers settle
  nothing (`Placed.repeats_iff`). So the answers tell how many requests there are
  (`Placed.requestCount`) and what becomes of the update (`Placed.ends`), and the loop's notices
  and sleeps are those of the requests that are repeated. What is written of all this is known to
  the last record (`runOn_send_eq`).
-/

namespace StakeLedger

/-- The request puts an expression under a path, never to be left out. -/
structure TriggerRequest.Puts (r : TriggerRequest) (path expression : String) : Prop where
  method_eq : TriggerRequest.method = "PUT"
  path_eq : r.path = path
  body_eq : r.body = .object [("schedule", .text expression), ("skippable", .bool false)]

namespace TriggerClient

variable {c : TriggerClient} {key : String} {address : Address} {n : Nat}

/-- What the answers to come mean for the update of a trigger, by the numbers of the requests. -/
def verdicts (c : TriggerClient) (address : Address) (key : String) (i : Nat) :
    Except UpdateFailure Unit :=
  (c.nextAnswer i).verdict address key

/-- No computation of a delay fails that the update comes to. -/
def DelaysHold (c : TriggerClient) (address : Address) (key : String) : Prop :=
  Retry.DelaysHold c.rules c.policy (c.verdicts address key)

/-- How many requests an update takes: up to the first answer that settles it, if there is one, and
no more than the attempts. -/
structure RequestCount (c : TriggerClient) (n : Nat) : Prop where
  settled : ∀ i, (∀ j < i, (c.nextAnswer j).isConclusive = false) →
    (c.nextAnswer i).isConclusive = true → n = min c.policy.attempts (i + 1)
  unsettled : (∀ i, (c.nextAnswer i).isConclusive = false) → n = c.policy.attempts

/-- What becomes of an update with answer number `n` as its last. -/
structure Ends (c : TriggerClient) (key : String) (n : Nat) (result : Except Fault Unit) :
    Prop where
  stored : ∀ status body header, c.nextAnswer n = .response status body header →
    (c.nextAnswer n).isConclusive = true → status < 400 → result = .ok ()
  refused : ∀ status body header, c.nextAnswer n = .response status body header →
    (c.nextAnswer n).isConclusive = true → 400 ≤ status →
    result = .error (.triggerRejected key status (String.ofList (body.toList.take 512)))
  unanswered : (c.nextAnswer n).isConclusive = false →
    n + 1 = c.policy.attempts ∧ result = .error (.triggerUnanswered key c.policy.attempts)

theorem Placed.repeats_iff (h : c.Placed key address) (i : Nat) :
    Retry.Repeats c.rules (c.verdicts address key) i ↔ (c.nextAnswer i).isConclusive = false := by
  refine (c.repeats_iff_header address key i).trans ?_
  constructor
  · rintro ⟨header, hverdict⟩
    exact (ServiceAnswer.header_of_verdict hverdict).1
  · intro hinconclusive
    exact ⟨_, h.verdict_of_inconclusive hinconclusive⟩

theorem Placed.requestCount (h : c.Placed key address)
    (hcount : Retry.CallCount c.rules c.policy (c.verdicts address key) n) : c.RequestCount n where
  settled := by
    intro i hearlier hconclusive
    refine hcount.stopped i (fun j hj => (h.repeats_iff j).mpr (hearlier j hj)) ?_
    rw [h.repeats_iff, hconclusive]
    decide
  unsettled := fun hall => hcount.unstopped fun i => (h.repeats_iff i).mpr (hall i)

theorem exists_first_conclusive (h : ¬∀ i, (c.nextAnswer i).isConclusive = false) :
    ∃ i, (c.nextAnswer i).isConclusive = true ∧
      ∀ j < i, (c.nextAnswer j).isConclusive = false := by
  obtain ⟨i, hi⟩ := not_forall.mp h
  have hsettles : ∃ i, (c.nextAnswer i).isConclusive = true := ⟨i, Bool.of_not_eq_false hi⟩
  refine ⟨Nat.find hsettles, Nat.find_spec hsettles, fun j hj => ?_⟩
  exact Bool.eq_false_iff.mpr (Nat.find_min hsettles hj)

/-- If the last answer settles nothing, the attempts are used up. -/
theorem RequestCount.attempts_eq (h : c.RequestCount (n + 1))
    (hlast : (c.nextAnswer n).isConclusive = false) : n + 1 = c.policy.attempts := by
  by_cases hall : ∀ i, (c.nextAnswer i).isConclusive = false
  · exact h.unsettled hall
  · -- the first answer that settles the update is not waited for
    obtain ⟨first, hfirst, hearlier⟩ := exists_first_conclusive hall
    have hcount := h.settled first hearlier hfirst
    have hne : n ≠ first := by
      rintro rfl
      rw [hfirst] at hlast
      cases hlast
    omega

theorem Placed.verdicts_of_response (h : c.Placed key address) {status : Int} {body : String}
    {header : Option String} (hanswer : c.nextAnswer n = .response status body header) :
    c.verdicts address key n = verdictOf key status body header := by
  rw [verdicts, hanswer]
  exact h.verdict _

/-- The last answer decides what becomes of an update. -/
theorem Placed.ends (h : c.Placed key address) (hcount : c.RequestCount (n + 1)) :
    c.Ends key n (c.outcome key (.ofCall (c.verdicts address key n))) where
  stored := by
    intro status body header hanswer hconclusive hstatus
    rw [hanswer] at hconclusive
    simp only [ServiceAnswer.isConclusive, Bool.and_eq_true, decide_eq_true_eq] at hconclusive
    rw [h.verdicts_of_response hanswer, verdictOf, if_neg (by omega), if_neg (by omega)]
    rfl
  refused := by
    intro status body header hanswer hconclusive hstatus
    rw [hanswer] at hconclusive
    simp only [ServiceAnswer.isConclusive, Bool.and_eq_true, decide_eq_true_eq] at hconclusive
    rw [h.verdicts_of_response hanswer, verdictOf, if_neg (by omega), if_pos hstatus]
    rfl
  unanswered := by
    intro hinconclusive
    refine ⟨hcount.attempts_eq hinconclusive, ?_⟩
    rw [verdicts, h.verdict_of_inconclusive hinconclusive]
    rfl

/-- An update fails with a fault of the scheduler only. -/
theorem Ends.label_of_error {fault : Fault} (h : c.Ends key n (.error fault)) :
    fault.label = "SchedulerUnavailableError" := by
  cases hconclusive : (c.nextAnswer n).isConclusive with
  | false =>
    cases (h.unanswered hconclusive).2
    rfl
  | true =>
    cases hanswer : c.nextAnswer n with
    | unreachable =>
      rw [hanswer] at hconclusive
      cases hconclusive
    | response status body header =>
      rcases Int.lt_or_le status 400 with hstatus | hstatus
      · cases h.stored status body header hanswer hconclusive hstatus
      · cases h.refused status body header hanswer hconclusive hstatus
        rfl

/-- With a policy within the range of doubles, the delays can be computed where the headers of all
answers that settle nothing are usable. -/
theorem delaysHold_of_usable (hranged : c.policy.Ranged)
    (husable : ∀ i, (c.nextAnswer i).isConclusive = false →
      RetryAfter.Usable c.nowMs (c.nextAnswer i).header) : c.DelaysHold address key := by
  refine Retry.delaysHold_of_usable hranged fun i error hverdict => ?_
  cases error with
  | refused fault => exact RetryAfter.usable_none c.nowMs
  | inconclusive header =>
    obtain ⟨hinconclusive, hheader⟩ := ServiceAnswer.header_of_verdict hverdict
    have hasked := husable i hinconclusive
    rw [hheader] at hasked
    exact hasked

end TriggerClient

namespace Service

open Work

/-- What sending an update does, request by request, where the delays that it comes to can be
computed. It sends requests up to the first answer that settles the update, and as many as there
are attempts at most. They are all one request, which puts the expression under the path of the
trigger. The last answer decides what becomes of the update, which fails with a fault of the
scheduler only. Each request before has one notice, which is written, and one sleep. At the end it
is written that the trigger is stored, if it is. -/
theorem send_requests (client : TriggerClient) (position : String) (index : Int)
    (expression : String) (address : Address) (books : Books Partners)
    (hplaced : client.Placed (Trigger.key position index) address)
    (hdue : client.DelaysHold address (Trigger.key position index)) :
    ∃ n request notices sleeps result,
      client.RequestCount (n + 1) ∧
      request.Puts address.shownPath expression ∧
      client.Ends (Trigger.key position index) n result ∧
      (∀ fault, result = .error fault → fault.label = "SchedulerUnavailableError") ∧
      notices.length = n ∧ sleeps.length = n ∧
      List.Forall₂ (Retry.Noticed client.rules client.policy
        (client.verdicts address (Trigger.key position index))) (List.range n) notices ∧
      List.Forall₂ (fun notice sleep => Retry.Lasts sleep notice.delay) notices sleeps ∧
      (Scheduling.send client (Trigger.key position index) expression).runOn books =
        (result, { books with
          log := books.log ++
            notices.map (retryRecord books.context (Trigger.key position index)) ++
            endRecords books.context (Trigger.key position index) expression result
          outside := { books.outside with
            scheduler := .remote { client with
              requests := client.requests ++ List.replicate (n + 1) request
              sleeps := client.sleeps ++ sleeps } } }) ∧
      ∀ url, Address.readBase url = .ok client.base → client.base.query = none →
        request.path = client.base.shownPath ++ "triggers/" ++ Trigger.key position index := by
  obtain ⟨n, hcount, hcalls, hending, hnotices, hsleeps⟩ := Retry.exists_conduct_run hdue
  rw [Nat.zero_add] at hending
  rw [← List.range_eq_range'] at hnotices
  have hrequests := hplaced.requestCount hcount
  have hends := hplaced.ends hrequests
  have hlength := hnotices.length_eq.symm.trans List.length_range
  have hupdate : client.update address (Trigger.key position index) = Retry.run client.rules
      client.policy (client.verdicts address (Trigger.key position index)) := rfl
  refine ⟨n, ⟨address.shownPath, expression⟩, _, _, _, hrequests, ⟨rfl, rfl, rfl⟩, hends, ?_,
    hlength, hsleeps.length_eq.symm.trans hlength, hnotices, hsleeps, ?_, ?_⟩
  · intro fault hresult
    exact (hresult ▸ hends).label_of_error
  · rw [runOn_send_eq hplaced.address_eq, hupdate, hending, TriggerClient.after, hcalls]
  · intro url hbase hquery
    exact TriggerClient.shownPath_of_address hplaced.address_eq hbase hquery

/-- A service that is overloaded, then out of reach, then busy for two seconds, and then refuses. -/
def falteringAnswers : Nat → ServiceAnswer
  | 0 => .response 503 "" none
  | 1 => .unreachable
  | 2 => .response 429 "" (some "2")
  | _ => .response 422 "bad schedule" none

/-- A client of that service on the same machine. -/
def falteringClient : TriggerClient where
  policy := .standard
  answers := falteringAnswers

theorem delaysHold_falteringClient (address : Address) (key : String) :
    falteringClient.DelaysHold address key := by
  refine TriggerClient.delaysHold_of_usable Retry.Policy.ranged_standard ?_
  rintro (_ | _ | _ | i) h
  · exact RetryAfter.usable_none 0
  · exact RetryAfter.usable_none 0
  · exact Retry.usable_two
  · exact RetryAfter.usable_none 0

/-- The usual policy has just the four attempts that the refusal takes. -/
theorem send_requests_falteringClient :
    ∃ request after later,
      (Scheduling.send falteringClient (Trigger.key "held" 0) "0 2 0 1 1 * 1970").runOn idleBooks =
        (.error (.triggerRejected (Trigger.key "held" 0) 422 "bad schedule"), after) ∧
      after.outside.scheduler = .remote later ∧ later.requests = List.replicate 4 request ∧
      request.path = "/triggers/" ++ Trigger.key "held" 0 ∧
      later.sleeps.length = 3 ∧ after.log.length = 3 := by
  have hplaced := TriggerClient.placed_ofThisMachine (c := falteringClient) rfl "held" 0
  obtain ⟨n, request, notices, sleeps, result, hcount, -, hends, -, hnotices, hsleeps, -, -, hrun,
    hpath⟩ := send_requests falteringClient "held" 0 "0 2 0 1 1 * 1970" _ idleBooks hplaced
      (delaysHold_falteringClient _ _)
  have hearlier : ∀ i < 3, (falteringClient.nextAnswer i).isConclusive = false := by decide
  obtain rfl : n = 3 := Nat.succ.inj (hcount.settled 3 hearlier rfl)
  have hresult := hends.refused 422 "bad schedule" none rfl rfl (by decide)
  have hbase : Address.readBase "http://localhost/" = .ok falteringClient.base := by decide +kernel
  have hroot : falteringClient.base.shownPath ++ "triggers/" = "/triggers/" := by decide +kernel
  have hrequest := hpath "http://localhost/" hbase rfl
  rw [hroot] at hrequest
  rw [hresult] at hrun
  refine ⟨request, _, _, hrun, rfl, rfl, hrequest, hsleeps, ?_⟩
  show ([] ++ notices.map _ ++ []).length = 3
  rw [List.append_nil, List.nil_append, List.length_map, hnotices]

end Service

end StakeLedger
