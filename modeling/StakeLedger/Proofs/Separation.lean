import StakeLedger.Proofs.Confinement

/-
  Pools do not interfere.
  A session is run twice, the second time without the steps on other pools and on positions that
  are assigned elsewhere. The books of the two runs are alike for the pool throughout
  (`Session.Alike`): a step that stays is taken on both sides, with one answer
  (`Session.alike_step`), and a step that goes leaves them alike
  (`Session.alike_step_left`). One kind of step stays that can tell of another pool: looking up
  the lockup of a position that is assigned elsewhere, which opening it has stored
  (`not_poolsSeparate`).
-/

namespace StakeLedger

variable {home : String → String} {own : String}

/-- What the services of two runs work with beside the store is alike for a pool, and both
schedulers keep their triggers. -/
structure Partners.Alike (home : String → String) (own : String) (o o' : Partners) : Prop where
  registrar : o.registrar.Alike home own o'.registrar
  policy_eq : o.policy = o'.policy
  keeps : o.scheduler.Keeps
  keeps' : o'.scheduler.Keeps

namespace Partners.Alike

variable {o o' : Partners} {r r' : Registrar}

/-- Both sides take registrars that are alike. -/
theorem withRegistrar (h : o.Alike home own o') (hr : r.Alike home own r') :
    ({ o with registrar := r } : Partners).Alike home own { o' with registrar := r' } :=
  ⟨hr, h.policy_eq, h.keeps, h.keeps'⟩

/-- One side takes a registrar that is like that of the other. -/
theorem withRegistrar_left (h : o.Alike home own o') (hr : r.Alike home own o'.registrar) :
    ({ o with registrar := r } : Partners).Alike home own o' :=
  ⟨hr, h.policy_eq, h.keeps, h.keeps'⟩

/-- Triggers are moved on both sides. -/
theorem moved (h : o.Alike home own o') (us us' : List (String × String)) :
    ({ o with scheduler := o.scheduler.moved us } : Partners).Alike home own
      { o' with scheduler := o'.scheduler.moved us' } :=
  ⟨h.registrar, h.policy_eq, h.keeps.moved us, h.keeps'.moved us'⟩

/-- Triggers are moved on one side. -/
theorem moved_left (h : o.Alike home own o') (us : List (String × String)) :
    ({ o with scheduler := o.scheduler.moved us } : Partners).Alike home own o' :=
  ⟨h.registrar, h.policy_eq, h.keeps.moved us, h.keeps'⟩

end Partners.Alike

namespace Session

open Work Service

/-- The books of two runs are alike for a pool. -/
structure Alike (home : String → String) (own : String) (books books' : Books Partners) :
    Prop where
  stores : ∃ g h : Ledger, books.store = g.store ∧ books'.store = h.store ∧ g.Alike home own h
  outside : books.outside.Alike home own books'.outside

/-! ## What a step does exactly -/

section Steps

variable {books : Books Partners} {g : Ledger} {s : Step}

/-- A step that performs a posting and answers with its result changes nothing but the store. -/
theorem step_of_performs {α : Type} {service : Service α} {t : Posting α} {tell : α → Answer}
    (hstore : books.store = g.store) (h : Performs books.outside service t)
    (hrun : s.run = service >>= fun a => pure (tell a)) :
    (step books s).answer = (t.result g).map tell ∧
      (step books s).books.store = (t.after g).store ∧
      (step books s).books.outside = books.outside := by
  obtain ⟨log, hservice⟩ := h (fresh books) g rfl hstore
  rw [step_eq hrun, hservice]
  exact ⟨rfl, rfl, rfl⟩

/-- An opening that ends well may give the registrar the lockup as well. -/
theorem step_open_registered (hstore : books.store = g.store) (p : Position) (amount : Int)
    (l : Lockup) :
    (step books (.openPosition p amount l true)).answer =
        ((Posting.openPosition books.outside.registrar.clock.now p amount l).result g).map .pool ∧
      (step books (.openPosition p amount l true)).books.store =
        ((Posting.openPosition books.outside.registrar.clock.now p amount l).after g).store ∧
      (step books (.openPosition p amount l true)).books.outside =
        match (Posting.openPosition books.outside.registrar.clock.now p amount l).result g with
        | .ok _ => { books.outside with registrar := books.outside.registrar.put p.id p.index l }
        | .error _ => books.outside := by
  obtain ⟨log, hservice⟩ := performs_openPosition p amount l (fresh books) g rfl hstore
  have hrun : (Step.openPosition p amount l true).run = Service.openPosition p amount l >>=
      fun pool => register p.id p.index l >>= fun _ => pure (.pool pool) := rfl
  unfold step
  rw [hrun, runOn_bind, hservice]
  -- the outcome decides whether the lockup is registered
  have houtside : (fresh books).outside = books.outside := rfl
  rw [houtside]
  cases (Posting.openPosition books.outside.registrar.clock.now p amount l).result g with
  | error fault => exact ⟨rfl, rfl, rfl⟩
  | ok pool => exact ⟨rfl, rfl, rfl⟩

theorem step_process (hstore : books.store = g.store) (hkept : books.outside.scheduler.Keeps)
    (id : String) :
    (step books (.process id)).answer =
        ((Posting.process books.outside.registrar books.outside.policy id).result g).map
          (fun r => .result ⟨id, r.2.outcome⟩) ∧
      (step books (.process id)).books.store =
        ((Posting.process books.outside.registrar books.outside.policy id).after g).store ∧
      ∃ us, (step books (.process id)).books.outside =
        { books.outside with scheduler := books.outside.scheduler.moved us } := by
  have hfresh : (fresh books).store = g.store := hstore
  have hprocess := runOn_process_of_kept hfresh hkept id
  rw [step_eq (s := .process id) rfl]
  have houtside : (fresh books).outside = books.outside := rfl
  rw [houtside] at hprocess
  cases hresult : (Posting.process books.outside.registrar books.outside.policy id).result g with
  | error fault =>
    rw [hresult] at hprocess
    obtain ⟨after, hrun, hsame, houtside⟩ := hprocess
    rw [hrun]
    refine ⟨rfl, ?_, [], ?_⟩
    · rw [Posting.after_of_error hresult]
      exact hsame
    · rw [Scheduler.moved_nil]
      exact houtside
  | ok r =>
    rw [hresult] at hprocess
    obtain ⟨after, hrun, hstore', houtside⟩ := hprocess
    rw [hrun]
    exact ⟨rfl, hstore', _, houtside⟩

end Steps

/-! ## Steps of two runs -/

/-- Does a step stay? It does if it is on the pool or on a position that is assigned to it, or if
it is on no pool and on no position: on the clock, or on lockups alone. -/
def Step.stays (home : String → String) (own : String) : Step → Bool
  | .createPool id _ | .poolStatus id | .rollForward id | .sweep id => id = own
  | .openPosition p _ _ _ => home p.id = own
  | .closePosition id _ | .process id => home id = own
  | .setClock _ | .advanceClock _ | .readClock | .registerLockup _ _ _ | .storeLockup _ _ _
  | .findLockup _ _ | .fail _ => true

/-- Does a step tell of nothing but the pool? Looking up a lockup tells of its position. -/
def Step.tellsHome (home : String → String) (own : String) : Step → Bool
  | .findLockup position _ => home position = own
  | _ => true

/-- Is what the step opens, if anything, assigned to the pool that it names? -/
def Step.opensHome (home : String → String) : Step → Bool
  | .openPosition p _ _ _ => p.pool = home p.id
  | _ => true

/-- A step is taken in both runs: it has one answer, and leaves books that are alike. -/
structure Together (home : String → String) (own : String) (books books' : Books Partners)
    (s : Step) : Prop where
  answer_eq : (step books s).answer = (step books' s).answer
  alike : Alike home own (step books s).books (step books' s).books

section Pairs

variable {books books' : Books Partners} {s : Step} {id : String}

/-- A step that performs postings which match is taken on both sides. -/
theorem together_of_performs {α : Type} {service : Service α} {t t' : Posting α} {tell : α → Answer}
    (halike : Alike home own books books') (h : Performs books.outside service t)
    (h' : Performs books'.outside service t') (ht : Posting.Matches home own t t')
    (hrun : s.run = service >>= fun a => pure (tell a)) : Together home own books books' s := by
  obtain ⟨⟨g, g', hg, hg', hledgers⟩, houtside⟩ := halike
  obtain ⟨hanswer, hstore, hsame⟩ := step_of_performs hg h hrun
  obtain ⟨hanswer', hstore', hsame'⟩ := step_of_performs hg' h' hrun
  obtain ⟨hresult, hafter⟩ := ht g g' hledgers
  refine ⟨by rw [hanswer, hanswer', hresult], ⟨_, _, hstore, hstore', hafter⟩, ?_⟩
  rw [hsame, hsame']
  exact houtside

/-- A step that performs a posting which may be left out is taken on one side only. -/
theorem alike_left_of_performs {α : Type} {service : Service α} {t : Posting α}
    {tell : α → Answer} (halike : Alike home own books books')
    (h : Performs books.outside service t) (ht : t.Spares home own)
    (hrun : s.run = service >>= fun a => pure (tell a)) :
    Alike home own (step books s).books books' := by
  obtain ⟨⟨g, g', hg, hg', hledgers⟩, houtside⟩ := halike
  obtain ⟨-, hstore, hsame⟩ := step_of_performs hg h hrun
  refine ⟨⟨_, g', hstore, hg', (ht g').after hledgers⟩, ?_⟩
  rw [hsame]
  exact houtside

theorem together_openPosition (halike : Alike home own books books') {p : Position}
    (hid : home p.id = own) (hp : p.pool = own) (amount : Int) (l : Lockup) (registered : Bool) :
    Together home own books books' (.openPosition p amount l registered) := by
  have hmatch : Posting.Matches home own
      (Posting.openPosition books.outside.registrar.clock.now p amount l)
      (Posting.openPosition books'.outside.registrar.clock.now p amount l) := by
    rw [halike.outside.registrar.clock_eq]
    exact Posting.matches_openPosition hid hp _ amount l
  cases registered with
  | false =>
    exact together_of_performs halike (performs_openPosition p amount l)
      (performs_openPosition p amount l) hmatch rfl
  | true =>
    obtain ⟨⟨g, g', hg, hg', hledgers⟩, houtside⟩ := halike
    obtain ⟨hanswer, hstore, hpartners⟩ := step_open_registered hg p amount l
    obtain ⟨hanswer', hstore', hpartners'⟩ := step_open_registered hg' p amount l
    obtain ⟨hresult, hafter⟩ := hmatch g g' hledgers
    refine ⟨by rw [hanswer, hanswer', hresult], ⟨_, _, hstore, hstore', hafter⟩, ?_⟩
    rw [hpartners, hpartners', hresult]
    cases (Posting.openPosition books'.outside.registrar.clock.now p amount l).result g' with
    | error fault => exact houtside
    | ok pool =>
      exact houtside.withRegistrar (houtside.registrar.put p.id p.index l)

theorem together_process (halike : Alike home own books books') (hid : home id = own) :
    Together home own books books' (.process id) := by
  obtain ⟨⟨g, g', hg, hg', hledgers⟩, houtside⟩ := halike
  obtain ⟨hanswer, hstore, us, hpartners⟩ := step_process hg houtside.keeps id
  obtain ⟨hanswer', hstore', us', hpartners'⟩ := step_process hg' houtside.keeps' id
  have hmatch : Posting.Matches home own
      (Posting.process books.outside.registrar books.outside.policy id)
      (Posting.process books'.outside.registrar books'.outside.policy id) := by
    rw [houtside.policy_eq]
    exact Posting.matches_process houtside.registrar _ hid
  obtain ⟨hresult, hafter⟩ := hmatch g g' hledgers
  refine ⟨by rw [hanswer, hanswer', hresult], ⟨_, _, hstore, hstore', hafter⟩, ?_⟩
  rw [hpartners, hpartners']
  exact houtside.moved us us'

/-- A sweep of the pool is the same round on both sides. -/
theorem together_sweep (halike : Alike home own books books') :
    Together home own books books' (.sweep own) := by
  obtain ⟨⟨g, g', hg, hg', hledgers⟩, houtside⟩ := halike
  cases hpool : g.pools.get? own with
  | none =>
    obtain ⟨hanswer, hstore, hpartners⟩ := step_sweep_of_none hg hpool
    obtain ⟨hanswer', hstore', hpartners'⟩ :=
      step_sweep_of_none hg' (hledgers.pool.symm.trans hpool)
    refine ⟨by rw [hanswer, hanswer'], ⟨g, g', hstore, hstore', hledgers⟩, ?_⟩
    rw [hpartners, hpartners']
    exact houtside
  | some pool =>
    have hpool₁ : g.pools.get? own ≠ none := by
      rw [hpool]
      exact Option.some_ne_none pool
    have hpool₂ : g'.pools.get? own ≠ none := by
      rw [← hledgers.pool]
      exact hpool₁
    obtain ⟨rs, fault?, after, hround⟩ := Purge.exists_round books.outside.registrar
      books.outside.policy g ((g.openPositions own).map (·.id))
    obtain ⟨after', hround', hafter⟩ := hround.matched houtside.registrar
      (fun _ => hledgers.housed.home_of_mem) hledgers
    rw [hledgers.openPositions_eq, houtside.policy_eq] at hround'
    obtain ⟨hanswer, hstore, hpartners⟩ := step_sweep hg houtside.keeps hpool₁ hround
    obtain ⟨hanswer', hstore', hpartners'⟩ := step_sweep hg' houtside.keeps' hpool₂ hround'
    refine ⟨by rw [hanswer, hanswer'], ⟨after, after', hstore, hstore', hafter⟩, ?_⟩
    rw [hpartners, hpartners']
    exact houtside.moved _ _

theorem alike_findLockup (halike : Alike home own books books') (position : String)
    (index : Int) :
    (home position = own → (step books (.findLockup position index)).answer =
        (step books' (.findLockup position index)).answer) ∧
      Alike home own (step books (.findLockup position index)).books
        (step books' (.findLockup position index)).books := by
  refine ⟨fun hid => ?_, ?_⟩
  · exact (together_of_performs halike (performs_lockup position index)
      (performs_lockup position index)
      (Posting.matches_findLockup halike.outside.registrar hid index) rfl).answer_eq
  · obtain ⟨⟨g, g', hg, hg', hledgers⟩, houtside⟩ := halike
    obtain ⟨-, hstore, hsame⟩ := step_of_performs hg (performs_lockup position index)
      (s := .findLockup position index) rfl
    obtain ⟨-, hstore', hsame'⟩ := step_of_performs hg' (performs_lockup position index)
      (s := .findLockup position index) rfl
    rw [Posting.looks_findLockup _ _ _ g] at hstore
    rw [Posting.looks_findLockup _ _ _ g'] at hstore'
    refine ⟨⟨g, g', hstore, hstore', hledgers⟩, ?_⟩
    rw [hsame, hsame']
    exact houtside

theorem together_setClock (halike : Alike home own books books') (time : Int) :
    Together home own books books' (.setClock time) :=
  ⟨rfl, halike.stores, halike.outside.withRegistrar (halike.outside.registrar.setTo rfl)⟩

theorem together_advanceClock (halike : Alike home own books books') (seconds : Int) :
    Together home own books books' (.advanceClock seconds) := by
  have htime : books.outside.registrar.clock.now + seconds =
      books'.outside.registrar.clock.now + seconds := by
    rw [halike.outside.registrar.clock_eq]
  exact ⟨congrArg (fun time => Except.ok (Answer.time time)) htime, halike.stores,
    halike.outside.withRegistrar (halike.outside.registrar.setTo htime)⟩

theorem together_readClock (halike : Alike home own books books') :
    Together home own books books' .readClock :=
  ⟨congrArg (fun clock : Clock => Except.ok (Answer.time clock.now))
      halike.outside.registrar.clock_eq,
    halike.stores, halike.outside⟩

theorem together_registerLockup (halike : Alike home own books books') (position : String)
    (index : Int) (l : Lockup) :
    Together home own books books' (.registerLockup position index l) :=
  ⟨rfl, halike.stores,
    halike.outside.withRegistrar (halike.outside.registrar.put position index l)⟩

theorem together_storeLockup (halike : Alike home own books books') (position : String)
    (index : Int) (l : Lockup) : Together home own books books' (.storeLockup position index l) :=
  together_of_performs halike (carries_saveLockup position index l).unit
    (carries_saveLockup position index l).unit (Posting.matches_saveLockup position index l) rfl

theorem together_createPool (halike : Alike home own books books') (time : Option Int) :
    Together home own books books' (.createPool own time) := by
  refine together_of_performs halike (performs_createPool own time)
    (performs_createPool own time) ?_ rfl
  rw [halike.outside.registrar.clock_eq]
  exact Posting.matches_createPool own _

theorem together_closePosition (halike : Alike home own books books') (hid : home id = own)
    (amount : Int) : Together home own books books' (.closePosition id amount) :=
  together_of_performs halike (performs_closePosition id amount)
    (performs_closePosition id amount)
    (Posting.matches_closePosition halike.outside.registrar hid amount) rfl

theorem together_poolStatus (halike : Alike home own books books') :
    Together home own books books' (.poolStatus own) := by
  refine together_of_performs halike (performs_status own) (performs_status own) ?_ rfl
  rw [halike.outside.registrar.clock_eq]
  exact Posting.matches_status own _

theorem together_rollForward (halike : Alike home own books books') :
    Together home own books books' (.rollForward own) := by
  refine together_of_performs halike (performs_rollForward own) (performs_rollForward own) ?_ rfl
  rw [halike.outside.registrar.clock_eq]
  exact Posting.matches_rollForward own _

/-- A step that stays is taken on both sides, and but for lookups of lockups that belong elsewhere
it has one answer. -/
theorem alike_step (halike : Alike home own books books') (hstays : s.stays home own = true)
    (hopens : s.opensHome home = true) :
    (s.tellsHome home own = true → (step books s).answer = (step books' s).answer) ∧
      Alike home own (step books s).books (step books' s).books := by
  have hboth : Together home own books books' s →
      (s.tellsHome home own = true → (step books s).answer = (step books' s).answer) ∧
        Alike home own (step books s).books (step books' s).books :=
    fun h => ⟨fun _ => h.answer_eq, h.alike⟩
  cases s with
  | setClock time => exact hboth (together_setClock halike time)
  | advanceClock seconds => exact hboth (together_advanceClock halike seconds)
  | readClock => exact hboth (together_readClock halike)
  | registerLockup position index l => exact hboth (together_registerLockup halike position index l)
  | storeLockup position index l => exact hboth (together_storeLockup halike position index l)
  | findLockup position index =>
    obtain ⟨hanswer, hafter⟩ := alike_findLockup halike position index
    exact ⟨fun htells => hanswer (of_decide_eq_true htells), hafter⟩
  | createPool id time =>
    obtain rfl : id = own := of_decide_eq_true hstays
    exact hboth (together_createPool halike time)
  | openPosition p amount l registered =>
    have hid : home p.id = own := of_decide_eq_true hstays
    have hp : p.pool = home p.id := of_decide_eq_true hopens
    exact hboth (together_openPosition halike hid (hp.trans hid) amount l registered)
  | closePosition id amount =>
    exact hboth (together_closePosition halike (of_decide_eq_true hstays) amount)
  | poolStatus id =>
    obtain rfl : id = own := of_decide_eq_true hstays
    exact hboth (together_poolStatus halike)
  | rollForward id =>
    obtain rfl : id = own := of_decide_eq_true hstays
    exact hboth (together_rollForward halike)
  | process id => exact hboth (together_process halike (of_decide_eq_true hstays))
  | sweep id =>
    obtain rfl : id = own := of_decide_eq_true hstays
    exact hboth (together_sweep halike)
  | fail fault => exact hboth ⟨rfl, halike.stores, halike.outside⟩

/-- A purge of a position that is assigned elsewhere is taken on one side only. -/
theorem alike_left_process (halike : Alike home own books books') (hid : home id ≠ own) :
    Alike home own (step books (.process id)).books books' := by
  obtain ⟨⟨g, g', hg, hg', hledgers⟩, houtside⟩ := halike
  obtain ⟨-, hstore, us, hpartners⟩ := step_process hg houtside.keeps id
  have hspares : (Posting.process books.outside.registrar books.outside.policy id).Spares
      home own := Posting.spares_process hid _ _
  refine ⟨⟨_, g', hstore, hg', (hspares g').after hledgers⟩, ?_⟩
  rw [hpartners]
  exact houtside.moved_left us

/-- A sweep of another pool is taken on one side only. -/
theorem alike_left_sweep (halike : Alike home own books books') {pool : String}
    (hpool : pool ≠ own) : Alike home own (step books (.sweep pool)).books books' := by
  obtain ⟨⟨g, g', hg, hg', hledgers⟩, houtside⟩ := halike
  by_cases hexists : g.pools.get? pool = none
  · obtain ⟨-, hstore, hpartners⟩ := step_sweep_of_none hg hexists
    refine ⟨⟨g, g', hstore, hg', hledgers⟩, ?_⟩
    rw [hpartners]
    exact houtside
  · obtain ⟨rs, fault?, after, hround⟩ := Purge.exists_round books.outside.registrar
      books.outside.policy g ((g.openPositions pool).map (·.id))
    obtain ⟨-, hstore, hpartners⟩ := step_sweep hg houtside.keeps hexists hround
    have hids : ∀ id ∈ (g.openPositions pool).map (·.id), home id ≠ own := by
      intro id hid
      rw [hledgers.housed.home_of_mem hid]
      exact hpool
    refine ⟨⟨after, g', hstore, hg', hround.spared hids hledgers⟩, ?_⟩
    rw [hpartners]
    exact houtside.moved_left _

/-- An opening of a position that is assigned elsewhere is taken on one side only. -/
theorem alike_left_openPosition (halike : Alike home own books books') {p : Position}
    (hid : home p.id ≠ own) (hp : p.pool = home p.id) (amount : Int) (l : Lockup)
    (registered : Bool) :
    Alike home own (step books (.openPosition p amount l registered)).books books' := by
  have hspares : (Posting.openPosition books.outside.registrar.clock.now p amount l).Spares
      home own := Posting.spares_openPosition hid hp _ amount l
  cases registered with
  | false => exact alike_left_of_performs halike (performs_openPosition p amount l) hspares rfl
  | true =>
    obtain ⟨⟨g, g', hg, hg', hledgers⟩, houtside⟩ := halike
    obtain ⟨-, hstore, hpartners⟩ := step_open_registered hg p amount l
    refine ⟨⟨_, g', hstore, hg', (hspares g').after hledgers⟩, ?_⟩
    rw [hpartners]
    split
    · exact houtside.withRegistrar_left (houtside.registrar.put_left hid p.index l)
    · exact houtside

/-- A step that goes is taken on one side only. -/
theorem alike_step_left (halike : Alike home own books books') (hgoes : s.stays home own = false)
    (hopens : s.opensHome home = true) : Alike home own (step books s).books books' := by
  cases s with
  | setClock | advanceClock | readClock | registerLockup | storeLockup | findLockup | fail =>
    cases hgoes
  | createPool id time =>
    exact alike_left_of_performs halike (performs_createPool id time)
      (Posting.spares_createPool (of_decide_eq_false hgoes) _) rfl
  | openPosition p amount l registered =>
    exact alike_left_openPosition halike (of_decide_eq_false hgoes) (of_decide_eq_true hopens)
      amount l registered
  | closePosition id amount =>
    exact alike_left_of_performs halike (performs_closePosition id amount)
      (Posting.spares_closePosition (of_decide_eq_false hgoes) _ amount) rfl
  | poolStatus id =>
    exact alike_left_of_performs halike (performs_status id)
      (fun _ => (Posting.looks_status id _).preserves _) rfl
  | rollForward id =>
    exact alike_left_of_performs halike (performs_rollForward id)
      (Posting.spares_rollForward (of_decide_eq_false hgoes) _) rfl
  | process id => exact alike_left_process halike (of_decide_eq_false hgoes)
  | sweep id => exact alike_left_sweep halike (of_decide_eq_false hgoes)

end Pairs

/-! ## Two runs -/

/-- The answers to those of some steps that are picked out. -/
def answersTo (picked : Step → Bool) (books : Books Partners) (steps : List Step) :
    List (Except Fault Answer) :=
  ((steps.zip (course books steps)).filter fun turn => picked turn.1).map fun turn =>
    turn.2.answer

theorem answersTo_cons (picked : Step → Bool) (books : Books Partners) (s : Step)
    (rest : List Step) :
    answersTo picked books (s :: rest) =
      if picked s then (step books s).answer :: answersTo picked (step books s).books rest
      else answersTo picked (step books s).books rest := by
  unfold answersTo
  rw [course, List.zip_cons_cons, List.filter_cons]
  cases picked s <;> rfl

/-- The runs are alike at their ends, and give the same answers to the steps that stay. -/
theorem alike_course {books books' : Books Partners} {steps : List Step}
    (halike : Alike home own books books') (hopens : ∀ s ∈ steps, s.opensHome home = true) :
    answersTo (fun s => s.stays home own && s.tellsHome home own) books steps =
        answersTo (fun s => s.tellsHome home own) books'
          (steps.filter fun s => s.stays home own) ∧
      Alike home own (booksAfter books steps)
        (booksAfter books' (steps.filter fun s => s.stays home own)) := by
  induction steps generalizing books books' with
  | nil => exact ⟨rfl, halike⟩
  | cons s rest ih =>
    obtain ⟨hopen, hothers⟩ := List.forall_mem_cons.mp hopens
    rw [answersTo_cons]
    cases hstays : s.stays home own with
    | false =>
      obtain ⟨hanswers, hafter⟩ := ih (alike_step_left halike hstays hopen) hothers
      rw [List.filter_cons_of_neg (by simp [hstays])]
      exact ⟨hanswers, hafter⟩
    | true =>
      obtain ⟨hanswer, hnext⟩ := alike_step halike hstays hopen
      obtain ⟨hanswers, hafter⟩ := ih hnext hothers
      rw [List.filter_cons_of_pos hstays, answersTo_cons, hanswers]
      refine ⟨?_, hafter⟩
      cases htells : s.tellsHome home own with
      | false => rfl
      | true => rw [Bool.true_and, if_pos rfl, if_pos rfl, hanswer htells]

/-- Without the steps on other pools and on the positions assigned to them, the steps that stay
and are picked out have the same answers, and the rows of the pool, of its positions and of their
lockups are in the end the same. -/
structure Separate (picked : Step → Bool) (home : String → String) (own : String)
    (books : Books Partners) (steps : List Step) : Prop where
  answers : answersTo (fun s => s.stays home own && picked s) books steps =
    answersTo picked books (steps.filter fun s => s.stays home own)
  pool : (booksAfter books steps).store.pools.get? own =
    (booksAfter books (steps.filter fun s => s.stays home own)).store.pools.get? own
  positions : ∀ id, home id = own → (booksAfter books steps).store.positions.get? id =
    (booksAfter books (steps.filter fun s => s.stays home own)).store.positions.get? id
  lockups : ∀ key : LockupKey, home key.1 = own →
    (booksAfter books steps).store.lockups.get? key =
      (booksAfter books (steps.filter fun s => s.stays home own)).store.lockups.get? key

/-- In every session on an empty store, in which positions are opened in the pools that their ids
are assigned to and the scheduler keeps its triggers, a pool is separate from all others: no
answer tells of them but those about lockups of their own positions. -/
theorem pools_separate (partners : Partners) (steps : List Step) (home : String → String)
    (own : String) (hkept : partners.scheduler.Keeps)
    (hopens : ∀ s ∈ steps, s.opensHome home = true) :
    Separate (Step.tellsHome home own) home own (start {} partners) steps := by
  obtain ⟨hstore, houtside⟩ := start_eq {} partners
  have hempty : Ledger.Housed home {} := fun _ _ h => by cases h
  have hlockups : partners.registrar.lockups.Alike home own partners.registrar.lockups := by
    cases partners.registrar.lockups with
    | kept table => exact .kept fun _ _ => rfl
    | stored => exact .stored
  have hstart : Alike home own (start {} partners) (start {} partners) := by
    refine ⟨⟨{}, {}, hstore, hstore, .refl hempty⟩, ?_⟩
    rw [houtside]
    exact ⟨⟨rfl, hlockups⟩, rfl, hkept, hkept⟩
  obtain ⟨hanswers, ⟨g, g', hg, hg', halike⟩, -⟩ := alike_course hstart hopens
  refine ⟨hanswers, ?_, fun id hid => ?_, fun key hkey => ?_⟩
  · rw [hg, hg', g.get?_pools_store, g'.get?_pools_store, halike.pool]
  · rw [hg, hg', g.get?_positions_store, g'.get?_positions_store, halike.positions id hid]
  · rw [hg, hg']
    exact halike.get?_lockups_store hkey

/-- The position "left" belongs to the pool "west", all others to the pool "east". -/
def twoHomes (id : String) : String := if id = "left" then "west" else "east"

/-- Partners with a registrar that looks lockups up in the store. -/
def partnersOnStore : Partners where
  registrar := { clock := { set := some 0 }, lockups := .stored }

/-- Two pools with a position each; the clock passes the end of both lockups, and both pools are
swept. The lockup of the western position is looked up as well. -/
def twoPools : List Step :=
  [.createPool "west" (some 0), .createPool "east" (some 0),
    .openPosition (.running "left" "west" 0 5) 500 (.lasting .cliff 0 20) false,
    .openPosition (.running "right" "east" 0 10) 1000 (.lasting .cliff 0 20) false,
    .setClock 30, .sweep "west", .findLockup "left" 0, .sweep "east"]

/-- Without the west the eastern pool is created, its position opened and finalized as before. -/
theorem pools_separate_twoPools :
    partnersOnStore.scheduler.Keeps ∧ (∀ s ∈ twoPools, s.opensHome twoHomes = true) ∧
      (twoPools.filter fun s => s.stays twoHomes "east").length = 5 ∧
      answersTo (·.tellsHome twoHomes "east") (start {} partnersOnStore)
          (twoPools.filter fun s => s.stays twoHomes "east") =
        [.ok (.pool (.empty 0)), .ok (.pool ⟨.capped 1000, .capped 10, 0⟩), .ok .done,
          .ok (.results [⟨"right", .finalized ⟨.capped 800, .capped 0, 30⟩⟩])] ∧
      Separate (Step.tellsHome twoHomes "east") twoHomes "east" (start {} partnersOnStore)
        twoPools := by
  have hkept : partnersOnStore.scheduler.Keeps := ⟨{}, [], rfl⟩
  exact ⟨hkept, by decide, by decide, by decide +kernel,
    pools_separate partnersOnStore twoPools twoHomes "east" hkept (by decide)⟩

/-- Every pool is separate from all others: no answer tells of them. -/
def PoolsSeparate : Prop :=
  ∀ (partners : Partners) (steps : List Step) (home : String → String) (own : String),
    partners.scheduler.Keeps → (∀ s ∈ steps, s.opensHome home = true) →
    Separate (fun _ => true) home own (start {} partners) steps

/-- Whether the lockup of a western position is known tells if it has been opened. -/
theorem not_poolsSeparate : ¬PoolsSeparate := by
  intro h
  have hseparate := h partnersOnStore twoPools twoHomes "east" ⟨{}, [], rfl⟩ (by decide)
  have hfound : (answersTo (fun s => s.stays twoHomes "east" && true) (start {} partnersOnStore)
      twoPools)[3]? = some (.ok (.lockup (.lasting .cliff 0 20))) := by decide +kernel
  have hunknown : (answersTo (fun _ => true) (start {} partnersOnStore)
      (twoPools.filter fun s => s.stays twoHomes "east"))[3]? =
        some (.error (.unknownLockup "left" 0)) := by decide +kernel
  rw [hseparate.answers, hunknown] at hfound
  cases hfound

end Session

end StakeLedger
