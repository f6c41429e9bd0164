import StakeLedger.Proofs.Services
import StakeLedger.Session

/-
  The steps of a session as changes of a ledger.
  Every step but a processing or a sweep is at most one posting. A sweep processes positions
  one after another and may end early, so it is some sequence of processings (`Processed`);
  what the scheduler does meanwhile touches neither store nor registrar. `exists_lands` puts the
  cases together: a step on the store of a ledger ends on the store of a ledger, by what
  `Posted` says of the step.
-/

namespace StakeLedger

/-- A ledger is reached by processing positions. -/
def Processed (registrar : Registrar) (policy : Purge.Policy) : Ledger → Ledger → Prop :=
  Relation.ReflTransGen fun g g' => ∃ id, g' = (Posting.process registrar policy id).after g

/-- What is kept by every processing is kept by them all. -/
theorem Processed.induction {registrar : Registrar} {policy : Purge.Policy} {g g' : Ledger}
    {P : Ledger → Prop} (h : Processed registrar policy g g') (hg : P g)
    (hstep : ∀ g id, P g → P ((Posting.process registrar policy id).after g)) : P g' := by
  induction h with
  | refl => exact hg
  | tail _ hlast ih =>
    obtain ⟨id, rfl⟩ := hlast
    exact hstep _ id ih

namespace Work

/-- The work does nothing to a ledger but process positions; the registrar and the rules for
purges stay what they are. -/
def Follows {α : Type} (registrar : Registrar) (policy : Purge.Policy) (work : Service α) : Prop :=
  ∀ (books : Books Partners) (g : Ledger), books.outside.registrar = registrar →
    books.outside.policy = policy → books.store = g.store →
    ∃ g', (work.runOn books).2.store = g'.store ∧
      (work.runOn books).2.outside.registrar = registrar ∧
      (work.runOn books).2.outside.policy = policy ∧ Processed registrar policy g g'

variable {α β : Type} {registrar : Registrar} {policy : Purge.Policy} {work : Service α}
  {next : α → Service β} {t : Posting α}

/-- Work that leaves store, registrar and rules alone. -/
theorem follows_of_same (h : ∀ books, (work.runOn books).2.store = books.store ∧
    (work.runOn books).2.outside.registrar = books.outside.registrar ∧
    (work.runOn books).2.outside.policy = books.outside.policy) :
    Follows registrar policy work := by
  intro books g hregistrar hpolicy hstore
  obtain ⟨hstore', hregistrar', hpolicy'⟩ := h books
  exact ⟨g, hstore'.trans hstore, hregistrar'.trans hregistrar, hpolicy'.trans hpolicy, .refl⟩

theorem Follows.bind (h : Follows registrar policy work)
    (hnext : ∀ a, Follows registrar policy (next a)) :
    Follows registrar policy (work >>= next) := by
  intro books g hregistrar hpolicy hstore
  obtain ⟨g₁, hstore₁, hregistrar₁, hpolicy₁, hprocessed₁⟩ := h books g hregistrar hpolicy hstore
  rw [runOn_bind]
  cases hrun : work.runOn books with
  | mk result after =>
    rw [hrun] at hstore₁ hregistrar₁ hpolicy₁
    cases result with
    | error fault => exact ⟨g₁, hstore₁, hregistrar₁, hpolicy₁, hprocessed₁⟩
    | ok a =>
      obtain ⟨g₂, hstore₂, hregistrar₂, hpolicy₂, hprocessed₂⟩ :=
        hnext a after g₁ hregistrar₁ hpolicy₁ hstore₁
      exact ⟨g₂, hstore₂, hregistrar₂, hpolicy₂, hprocessed₁.trans hprocessed₂⟩

/-- Work that performs a posting in whatever company of the registrar and the rules. -/
theorem follows_of_performs
    (h : ∀ outside : Partners, outside.registrar = registrar → outside.policy = policy →
      Performs outside work t)
    (hprocessed : ∀ g, Processed registrar policy g (t.after g)) :
    Follows registrar policy work := by
  intro books g hregistrar hpolicy hstore
  obtain ⟨log, hrun⟩ := h books.outside hregistrar hpolicy books g rfl hstore
  rw [hrun]
  exact ⟨t.after g, rfl, hregistrar, hpolicy, hprocessed g⟩

theorem runOn_tryCatch (work : Service α) (handler : Fault → Service α) (books : Books Partners) :
    (tryCatch work handler).runOn books =
      match work.runOn books with
      | (.ok a, after) => (.ok a, after)
      | (.error fault, after) => (handler fault).runOn after := by
  unfold runOn ExceptT.run StateT.run
  simp only [tryCatch, tryCatchThe, MonadExceptOf.tryCatch, ExceptT.tryCatch, ExceptT.mk, bind,
    StateT.bind]
  cases work books with
  | mk result after => cases result <;> rfl

theorem Follows.tryCatch {handler : Fault → Service α} (h : Follows registrar policy work)
    (hhandler : ∀ fault, Follows registrar policy (handler fault)) :
    Follows registrar policy (tryCatch work handler) := by
  intro books g hregistrar hpolicy hstore
  obtain ⟨g₁, hstore₁, hregistrar₁, hpolicy₁, hprocessed₁⟩ := h books g hregistrar hpolicy hstore
  rw [runOn_tryCatch]
  cases hrun : work.runOn books with
  | mk result after =>
    rw [hrun] at hstore₁ hregistrar₁ hpolicy₁
    cases result with
    | ok a => exact ⟨g₁, hstore₁, hregistrar₁, hpolicy₁, hprocessed₁⟩
    | error fault =>
      obtain ⟨g₂, hstore₂, hregistrar₂, hpolicy₂, hprocessed₂⟩ :=
        hhandler fault after g₁ hregistrar₁ hpolicy₁ hstore₁
      exact ⟨g₂, hstore₂, hregistrar₂, hpolicy₂, hprocessed₁.trans hprocessed₂⟩

theorem Follows.within (frame : Log.Context) (h : Follows registrar policy work) :
    Follows registrar policy (Work.within frame work) := fun books g hregistrar hpolicy hstore =>
  h { books with context := books.context.bind frame } g hregistrar hpolicy hstore

theorem Follows.mapM {items : List β} {each : β → Service α}
    (h : ∀ b, Follows registrar policy (each b)) : Follows registrar policy (items.mapM each) := by
  induction items with
  | nil => exact follows_of_same fun _ => ⟨rfl, rfl, rfl⟩
  | cons b rest ih =>
    rw [List.mapM_cons]
    exact (h b).bind fun _ => ih.bind fun _ => follows_of_same fun _ => ⟨rfl, rfl, rfl⟩

end Work

namespace Service

open Posting Work

variable {outside : Partners} {registrar : Registrar} {policy : Purge.Policy}

theorem performs_decideAt (id : String) (lockup : Lockup.View) (time : Int) :
    Performs outside (Purges.decideAt id lockup time)
      (Posting.decideAt outside.policy id lockup time) := by
  have hpartners : ∀ {α : Type} {next : Partners → Service α} {t : Posting α},
      Carries outside (next outside) t → Carries outside (partners >>= next) t := by
    intro α next t h books g hbooks hstore
    subst hbooks
    exact h books g rfl hstore
  have hstore : ∀ p f, Carries outside (Purges.store p time f) (Posting.store p f) := by
    intro p f
    refine (carries_savePool p.pool f.pool).bind fun _ => ?_
    rw [← bind_pure (Posting.savePosition f.position)]
    refine (carries_savePosition f.position).bind fun _ => ?_
    exact (performs_emit _ _ _ _ _).carries
  refine Carries.unit ?_
  refine (performs_loadPosition id).carries.bind fun p => Carries.within _ ?_
  refine (performs_loadPool p.pool).carries.bind fun pool => hpartners ?_
  refine (performs_check _).carries.bind fun decision => ?_
  cases decision with
  | finalize f => exact (hstore p f).bind fun _ => (performs_pure _).carries
  | reschedule r => exact (performs_pure _).carries

/-- Moving a trigger is nothing to the ledger. -/
theorem follows_move (p : Position) (r : Purge.Reschedule) :
    Follows registrar policy (Purges.move p r) := by
  refine Follows.within _ (Follows.bind ?_ fun _ => follows_of_same fun _ => ⟨rfl, rfl, rfl⟩)
  refine Follows.bind (follows_of_same fun _ => ⟨rfl, rfl, rfl⟩) fun present => ?_
  cases present.scheduler with
  | kept triggers updates => exact follows_of_same fun _ => ⟨rfl, rfl, rfl⟩
  | remote client =>
    have hretries : ∀ notices : List (Retry.Notice UpdateFailure),
        Follows registrar policy (notices.forM (Scheduling.logRetry r.key)) := by
      intro notices
      induction notices with
      | nil => exact follows_of_same fun _ => ⟨rfl, rfl, rfl⟩
      | cons notice rest ih => exact (follows_of_same fun _ => ⟨rfl, rfl, rfl⟩).bind fun _ => ih
    refine Follows.bind (follows_of_same fun _ => ⟨rfl, rfl, rfl⟩) fun address => ?_
    refine Follows.bind (follows_of_same fun _ => ⟨rfl, rfl, rfl⟩) fun _ => ?_
    refine (hretries _).bind fun _ => ?_
    refine Follows.bind (follows_of_same fun _ => ⟨rfl, rfl, rfl⟩) fun _ => ?_
    exact follows_of_same fun _ => ⟨rfl, rfl, rfl⟩

/-- The first part of processing a position: all that may write to the store. -/
def judge (id : String) : Service (Position × Purge.Decision) := do
  let p ← Work.unit (Work.loadPosition id)
  let l ← lockup id p.index
  let time ← now
  Purges.decideAt id l.view time

/-- The second part of processing a position. -/
def conclude (id : String) : Position × Purge.Decision → Service Purge.Result
  | (_, .finalize f) => pure ⟨id, .finalized f.pool⟩
  | (p, .reschedule r) => do
    Purges.move p r
    pure ⟨p.id, .rescheduled r⟩

theorem process_eq (id : String) : process id = judge id >>= conclude id := by
  simp only [process, judge, bind_assoc]
  refine bind_congr fun p => bind_congr fun l => bind_congr fun time => bind_congr fun r => ?_
  obtain ⟨p, _ | _⟩ := r <;> rfl

theorem performs_judge (id : String) :
    Performs outside (judge id) (Posting.process outside.registrar outside.policy id) := by
  refine (performs_loadPosition id).carries.unit.bind_of_look (looks_loadPosition id) fun p => ?_
  refine (performs_lockup id p.index).bind_of_look (looks_findLockup _ _ _) fun l => ?_
  exact performs_now (performs_decideAt id l.view _)

theorem follows_process (id : String) : Follows registrar policy (process id) := by
  have hjudge : Follows registrar policy (judge id) := by
    refine follows_of_performs (t := Posting.process registrar policy id) ?_
      fun g => .single ⟨id, rfl⟩
    rintro outside rfl rfl
    exact performs_judge id
  rw [process_eq]
  refine hjudge.bind fun ⟨p, decision⟩ => ?_
  cases decision with
  | finalize f => exact follows_of_same fun _ => ⟨rfl, rfl, rfl⟩
  | reschedule r => exact (follows_move p r).bind fun _ => follows_of_same fun _ => ⟨rfl, rfl, rfl⟩

/-- The ids of the positions that a sweep of a pool goes through. -/
def listed (pool : String) : Service (List String) := Work.unit do
  let _ ← Work.loadPool pool
  pure ((← Work.readStore (·.openPositions pool)).map (·.id))

theorem sweep_eq (pool : String) :
    sweep pool = listed pool >>= fun ids => ids.mapM processSafely := rfl

theorem performs_listed (pool : String) :
    Performs outside (listed pool) (Posting.listed pool) := by
  refine Carries.unit ((performs_loadPool pool).carries.bind fun _ => ?_)
  refine (performs_readStore fun _ => rfl).carries.bind fun found => ?_
  exact (performs_pure _).carries

theorem follows_sweep (pool : String) : Follows registrar policy (sweep pool) := by
  have hids : Follows registrar policy (listed pool) := by
    refine follows_of_performs (fun outside _ _ => performs_listed pool) fun g => ?_
    rw [looks_listed pool g]
    exact .refl
  refine hids.bind fun ids => Follows.mapM fun id => ?_
  refine (follows_process id).tryCatch fun fault => ?_
  cases fault.code? with
  | none => exact follows_of_same fun _ => ⟨rfl, rfl, rfl⟩
  | some code => exact follows_of_same fun _ => ⟨rfl, rfl, rfl⟩

theorem performs_status (id : String) :
    Performs outside (status id) (Posting.status id outside.registrar.clock.now) := by
  refine (performs_loadPool id).carries.unit.bind_of_look (looks_loadPool id) fun pool => ?_
  exact performs_now (performs_check _)

end Service

namespace Session

/-- A posting happens, and the answer shows its result. -/
def Posts {α : Type} (t : Posting α) (tell : α → Answer) (answer : Except Fault Answer)
    (g g' : Ledger) : Prop :=
  answer = (t.result g).map tell ∧ g' = t.after g

/-- A posting fails and leaves the ledger, or it ends well. -/
theorem Posts.cases {α : Type} {t : Posting α} {tell : α → Answer} {answer : Except Fault Answer}
    {g g' : Ledger} (h : Posts t tell answer g g') :
    (∃ fault, answer = .error fault ∧ g' = g) ∨
      ∃ a, answer = .ok (tell a) ∧ t.run g = .ok (a, g') := by
  obtain ⟨rfl, rfl⟩ := h
  cases hresult : t.result g with
  | error fault => exact Or.inl ⟨fault, rfl, Posting.after_of_error hresult⟩
  | ok a => exact Or.inr ⟨a, rfl, Posting.run_of_result hresult⟩

/-- What a step may do to a ledger, given the registrar and the rules for purges. -/
def Posted (registrar : Registrar) (policy : Purge.Policy) :
    Step → Except Fault Answer → Ledger → Ledger → Prop
  | .storeLockup position index l =>
    Posts (Posting.saveLockup position index l) fun _ => .done
  | .createPool id time => Posts (Posting.createPool id (time.getD registrar.clock.now)) .pool
  | .openPosition p amount l _ =>
    Posts (Posting.openPosition registrar.clock.now p amount l) .pool
  | .closePosition id amount => Posts (Posting.closePosition registrar id amount) .pool
  | .rollForward id => Posts (Posting.rollForward id registrar.clock.now) .pool
  | .process _ | .sweep _ => fun _ => Processed registrar policy
  | .findLockup position index => Posts (Posting.findLockup registrar position index) .lockup
  | .poolStatus id => Posts (Posting.status id registrar.clock.now) .pool
  | .setClock _ | .advanceClock _ | .readClock | .registerLockup _ _ _ | .fail _ =>
    fun _ g g' => g' = g

/-- A step ends on the store of a ledger that was reached as `Posted` says, under the same
rules and with lockups looked up in the same place. -/
structure Lands (books : Books Partners) (s : Step) (g g' : Ledger) : Prop where
  store_eq : (step books s).books.store = g'.store
  posted : Posted books.outside.registrar books.outside.policy s (step books s).answer g g'
  policy_eq : (step books s).books.outside.policy = books.outside.policy
  stored : books.outside.registrar.lockups = .stored →
    (step books s).books.outside.registrar.lockups = .stored

variable {books : Books Partners} {g : Ledger} {s : Step}

/-- The end of a step: it answers, and changes at most the registrar. -/
def Answers {α : Type} (next : Service Answer) (tell : α → Answer) (a : α) : Prop :=
  ∀ books, ∃ registrar,
    next.runOn books =
      (.ok (tell a), { books with outside := { books.outside with registrar := registrar } }) ∧
    (books.outside.registrar.lockups = .stored → registrar.lockups = .stored)

theorem answers_pure {α : Type} (tell : α → Answer) (a : α) : Answers (pure (tell a)) tell a :=
  fun books => ⟨books.outside.registrar, rfl, id⟩

/-- A registrar without a table of its own gets none. -/
theorem stored_put {registrar : Registrar} (h : registrar.lockups = .stored) (position : String)
    (index : Int) (l : Lockup) : (registrar.put position index l).lockups = .stored := by
  unfold Registrar.put
  rw [h]
  exact h

theorem answers_register {α : Type} (position : String) (index : Int) (l : Lockup)
    (tell : α → Answer) (a : α) :
    Answers (do register position index l; pure (tell a)) tell a := by
  intro books
  exact ⟨books.outside.registrar.put position index l, rfl, fun h => stored_put h position index l⟩

/-- A step that performs a posting and then answers with its result. -/
theorem lands_of_performs {α : Type} {service : Service α} {t : Posting α} {tell : α → Answer}
    {next : α → Service Answer} (hstore : books.store = g.store)
    (h : Work.Performs books.outside service t) (hrun : s.run = service >>= next)
    (hnext : ∀ a, Answers (next a) tell a)
    (hposted : ∀ answer g', Posts t tell answer g g' →
      Posted books.outside.registrar books.outside.policy s answer g g') :
    ∃ g', Lands books s g g' := by
  obtain ⟨log, hservice⟩ := h (fresh books) g rfl hstore
  cases hresult : t.result g with
  | error fault =>
    have hstep : step books s = ⟨.error fault, { fresh books with
        store := (t.after g).store, log := (fresh books).log ++ log }⟩ := by
      rw [step, hrun, Work.runOn_bind, hservice, hresult]
    refine ⟨t.after g, ?_, ?_, ?_, ?_⟩ <;> rw [hstep]
    · exact hposted _ _ ⟨by rw [hresult]; rfl, rfl⟩
    · rfl
    · exact id
  | ok a =>
    obtain ⟨registrar, hanswer, hkeeps⟩ := hnext a { fresh books with
      store := (t.after g).store, log := (fresh books).log ++ log }
    have hstep : step books s = ⟨.ok (tell a), { fresh books with
        store := (t.after g).store, log := (fresh books).log ++ log,
        outside := { books.outside with registrar := registrar } }⟩ := by
      rw [step, hrun, Work.runOn_bind, hservice, hresult]
      dsimp only
      rw [hanswer]
      rfl
    refine ⟨t.after g, ?_, ?_, ?_, ?_⟩ <;> rw [hstep]
    · exact hposted _ _ ⟨by rw [hresult]; rfl, rfl⟩
    · exact hkeeps

theorem lands_of_follows {α : Type} {service : Service α} {tell : α → Answer}
    (hstore : books.store = g.store)
    (h : Work.Follows books.outside.registrar books.outside.policy service)
    (hrun : s.run = service >>= fun a => pure (tell a))
    (hposted : ∀ answer g', Processed books.outside.registrar books.outside.policy g g' →
      Posted books.outside.registrar books.outside.policy s answer g g') :
    ∃ g', Lands books s g g' := by
  have hbind : Work.Follows books.outside.registrar books.outside.policy s.run := by
    rw [hrun]
    exact h.bind fun _ => Work.follows_of_same fun _ => ⟨rfl, rfl, rfl⟩
  obtain ⟨g', hstore', hregistrar, hpolicy, hprocessed⟩ := hbind (fresh books) g rfl rfl hstore
  refine ⟨g', hstore', hposted _ _ hprocessed, hpolicy, fun hstored => ?_⟩
  show ((s.run.runOn (fresh books)).2).outside.registrar.lockups = .stored
  rw [hregistrar, hstored]

/-- Every step on the store of a ledger lands on the store of a ledger. -/
theorem exists_lands (hstore : books.store = g.store) (s : Step) : ∃ g', Lands books s g g' := by
  cases s with
  | setClock time => exact ⟨g, hstore, rfl, rfl, id⟩
  | advanceClock seconds => exact ⟨g, hstore, rfl, rfl, id⟩
  | readClock => exact ⟨g, hstore, rfl, rfl, id⟩
  | fail fault => exact ⟨g, hstore, rfl, rfl, id⟩
  | registerLockup position index l =>
    exact ⟨g, hstore, rfl, rfl, fun h => stored_put h position index l⟩
  | storeLockup position index l =>
    exact lands_of_performs hstore (Work.carries_saveLockup position index l).unit rfl
      (answers_pure _) fun _ _ h => h
  | findLockup position index =>
    exact lands_of_performs hstore (Service.performs_lockup position index) rfl
      (answers_pure _) fun _ _ h => h
  | createPool id time =>
    exact lands_of_performs hstore (Service.performs_createPool id time) rfl
      (answers_pure _) fun _ _ h => h
  | openPosition p amount l registered =>
    -- the lockup is registered after the unit of work, and outside the store
    cases registered with
    | false =>
      exact lands_of_performs hstore (Service.performs_openPosition p amount l) rfl
        (answers_pure _) fun _ _ h => h
    | true =>
      exact lands_of_performs hstore (Service.performs_openPosition p amount l) rfl
        (answers_register p.id p.index l _) fun _ _ h => h
  | closePosition id amount =>
    exact lands_of_performs hstore (Service.performs_closePosition id amount) rfl
      (answers_pure _) fun _ _ h => h
  | poolStatus id =>
    exact lands_of_performs hstore (Service.performs_status id) rfl
      (answers_pure _) fun _ _ h => h
  | rollForward id =>
    exact lands_of_performs hstore (Service.performs_rollForward id) rfl
      (answers_pure _) fun _ _ h => h
  | process id =>
    exact lands_of_follows hstore (Service.follows_process id) rfl fun _ _ h => h
  | sweep id => exact lands_of_follows hstore (Service.follows_sweep id) rfl fun _ _ h => h

/-- A property of ledgers that every step keeps holds of the ledger after every step. -/
theorem forall_course {P : Ledger → Prop} {steps : List Step}
    (hstep : ∀ s ∈ steps, ∀ books g g', P g → Lands books s g g' → P g')
    (hstore : books.store = g.store) (hg : P g) :
    ∀ entry ∈ course books steps, ∃ g', entry.books.store = g'.store ∧ P g' := by
  induction steps generalizing books g with
  | nil => exact fun _ h => absurd h List.not_mem_nil
  | cons s rest ih =>
    intro entry hentry
    obtain ⟨g', hlands⟩ := exists_lands hstore s
    have hg' : P g' := hstep s List.mem_cons_self books g g' hg hlands
    rcases List.mem_cons.mp hentry with rfl | hrest
    · exact ⟨g', hlands.store_eq, hg'⟩
    · exact ih (fun s' hs' => hstep s' (List.mem_cons_of_mem s hs')) hlands.store_eq hg' entry hrest

/-- A property of ledgers that every step keeps holds of the ledger after all steps. -/
theorem exists_after {P : Ledger → Prop} {steps : List Step}
    (hstep : ∀ s ∈ steps, ∀ books g g', P g → Lands books s g g' → P g')
    (hstore : books.store = g.store) (hg : P g) :
    ∃ g', (booksAfter books steps).store = g'.store ∧ P g' := by
  induction steps generalizing books g with
  | nil => exact ⟨g, hstore, hg⟩
  | cons s rest ih =>
    obtain ⟨g₁, hlands⟩ := exists_lands hstore s
    have hg₁ : P g₁ := hstep s List.mem_cons_self books g g₁ hg hlands
    exact ih (fun s' hs' => hstep s' (List.mem_cons_of_mem s hs')) hlands.store_eq hg₁

/-! ## Steps that end well -/

/-- Every step ends well. -/
def Succeeds (books : Books Partners) (steps : List Step) : Prop :=
  ∀ entry ∈ course books steps, entry.answer.isOk = true

instance (books : Books Partners) (steps : List Step) : Decidable (Succeeds books steps) :=
  inferInstanceAs (Decidable (∀ _ ∈ _, _))

theorem isOk_iff {α : Type} {r : Except Fault α} : r.isOk = true ↔ ∃ a, r = .ok a := by
  cases r <;> simp [Except.isOk, Except.toBool]

theorem succeeds_cons {s : Step} {rest : List Step} :
    Succeeds books (s :: rest) ↔
      (∃ answer, (step books s).answer = .ok answer) ∧ Succeeds (step books s).books rest := by
  unfold Succeeds
  rw [course, List.forall_mem_cons, isOk_iff]

theorem succeeds_append {first second : List Step} :
    Succeeds books (first ++ second) ↔
      Succeeds books first ∧ Succeeds (booksAfter books first) second := by
  induction first generalizing books with
  | nil => simp [Succeeds, course, booksAfter]
  | cons s rest ih =>
    rw [List.cons_append, succeeds_cons, succeeds_cons, ih, and_assoc]
    rfl

/-- A step that answers with what a service gives. -/
theorem step_eq {α : Type} {service : Service α} {tell : α → Answer}
    (hrun : s.run = service >>= fun a => pure (tell a)) :
    step books s =
      ⟨(service.runOn (fresh books)).1.map tell, (service.runOn (fresh books)).2⟩ := by
  unfold step
  rw [hrun, Work.runOn_bind_pure]

theorem step_answer_eq_ok_iff {α : Type} {service : Service α} {tell : α → Answer}
    (hrun : s.run = service >>= fun a => pure (tell a)) {answer : Answer} :
    (step books s).answer = .ok answer ↔
      ∃ a, service.runOn (fresh books) = (.ok a, (step books s).books) ∧ answer = tell a := by
  rw [step_eq hrun]
  rcases service.runOn (fresh books) with ⟨result, after⟩
  cases result with
  | error fault => simp [Except.map]
  | ok a => simp [Except.map, eq_comm]

theorem step_of_runOn {α : Type} {service : Service α} {tell : α → Answer} {a : α}
    {after : Books Partners} (hrun : s.run = service >>= fun a => pure (tell a))
    (h : service.runOn (fresh books) = (.ok a, after)) : step books s = ⟨.ok (tell a), after⟩ := by
  rw [step_eq hrun, h]
  rfl

theorem booksAfter_append (books : Books Partners) (first second : List Step) :
    booksAfter books (first ++ second) = booksAfter (booksAfter books first) second :=
  List.foldl_append

/-- The books that steps reach from an empty store, in the hands of other partners. -/
def reached (partners : Partners) (steps : List Step) (outside : Partners) : Books Partners :=
  { booksAfter (start {} partners) steps with outside := outside }

/-- Starting the purges changes neither the store nor the partners. -/
theorem start_eq (store : Store) (partners : Partners) :
    (start store partners).store = store ∧ (start store partners).outside = partners := by
  unfold start Service.startPurges
  rw [Work.runOn_bind, show (Service.partners : Service Partners).runOn _ = (.ok partners, _) from
    rfl]
  dsimp only
  split <;> exact ⟨rfl, rfl⟩

end Session

end StakeLedger
