import StakeLedger.Proofs.Changes

/-
  Whether a closing takes from a pool the rate that the opening has added.
  An opening adds the rate of its position in whatever phase that is; a closing takes the rate of
  a position that still runs, unless a purge has taken it before. The rate of the pool beside what
  the position contributes to it as long as it runs is the same all the way
  (`Store.Changes.rateBeside`). So the rate comes back to what it was exactly for a position that
  is opened running, or does not fall.
-/

namespace StakeLedger

namespace Store

variable {s s' : Store} {id key : String} {rest : Int}

/-- A pool falls at a given rate beside what a position of it contributes. -/
def RateBeside (s : Store) (id key : String) (rest : Int) : Prop :=
  ∃ pool p, s.pool? key = .ok (some pool) ∧ s.position? id = .ok (some p) ∧ p.pool = key ∧
    pool.rate.val = rest + p.runningRate

/-- Of the positions of a pool that are found in the end all but one were there at first, in the
state in which they are now: none of them has been opened, purged or closed. -/
def OthersSame (s s' : Store) (id key : String) : Prop :=
  ∀ other q, other ≠ id → s'.position? other = .ok (some q) → q.pool = key →
    s.position? other = .ok (some q)

/-- Nothing but the row of the one position has been put. -/
theorem othersSame_of_put (row : PositionRow) (h : s'.positions = s.positions.put id row)
    (key : String) : s.OthersSame s' id key := by
  intro other q hother hq _
  unfold position? at hq ⊢
  rw [h, Table.get?_put, if_neg hother] at hq
  exact hq

/-- One change: the position may end, and no other of the pool opens or ends. -/
theorem Change.rateBeside (h : Change s s') (hothers : s.OthersSame s' id key)
    (hrate : s.RateBeside id key rest) : s'.RateBeside id key rest := by
  obtain ⟨pool, p, hpool, hp, hkey, hsum⟩ := hrate
  cases h with
  | lockup => exact ⟨pool, p, hpool, hp, hkey, hsum⟩
  | @created other asOf hnone =>
    have hne : key ≠ other := by
      rintro rfl
      rw [pool?_eq_none_iff.mpr hnone] at hpool
      cases hpool
    exact ⟨pool, p, (pool?_putPool_of_ne hne s _).trans hpool, hp, hkey, hsum⟩
  | @rolled other time old rolled hold hroll =>
    by_cases hother : key = other
    · subst hother
      cases found_unique hpool hold
      obtain ⟨-, -, -, hsame, -⟩ := Pool.rollForward_eq_ok_iff.mp hroll
      exact ⟨rolled, p, pool?_putPool s _ rolled, hp, hkey, hsame ▸ hsum⟩
    · exact ⟨pool, p, (pool?_putPool_of_ne hother s _).trans hpool, hp, hkey, hsum⟩
  | @opened q l time amount old changed hnone hold hchanged =>
    have hid : id ≠ q.id := ne_of_unused hp hnone
    have hne : key ≠ q.pool := by
      intro hsame
      have hfound := hothers q.id q hid.symm (position?_putPosition _ q) hsame.symm
      exact ne_of_unused hfound hnone rfl
    exact ⟨pool, p, (pool?_putPool_of_ne hne s _).trans hpool,
      (position?_putPosition_of_ne hid _).trans hp, hkey, hsum⟩
  | @ended q phase time delta old changed hq hprecedes hphase hold hchanged hdelta =>
    by_cases hid : id = q.id
    · subst hid
      cases found_unique hp hq
      subst hkey
      cases found_unique hpool hold
      obtain ⟨-, -, -, hsum', -, -⟩ := Pool.applyDelta_eq_ok_iff.mp hchanged
      have hnothing : ({ p with phase := phase } : Position).runningRate = 0 :=
        if_neg (hprecedes.not_running hphase)
      refine ⟨changed, { p with phase := phase }, pool?_putPool s _ changed,
        position?_putPosition _ { p with phase := phase }, rfl, ?_⟩
      rw [hnothing, hsum', hdelta, hsum]
      ring
    · have hne : key ≠ q.pool := by
        intro hsame
        have hfound := hothers q.id { q with phase := phase } (Ne.symm hid)
          (position?_putPosition _ { q with phase := phase }) hsame.symm
        have hq' : q = { q with phase := phase } := found_unique hq hfound
        exact hphase (congrArg Position.phase hq').symm
      exact ⟨pool, p, (pool?_putPool_of_ne hne s _).trans hpool,
        (position?_putPosition_of_ne (p := { q with phase := phase }) hid _).trans hp, hkey, hsum⟩

/-- What is the same at the ends of some changes is the same in between. -/
theorem OthersSame.between (h : s.OthersSame s'' id key) (hfirst : s.Keeps s')
    (hsecond : s'.Keeps s'') : s.OthersSame s' id key ∧ s'.OthersSame s'' id key := by
  constructor
  · intro other q hother hq hkey
    obtain ⟨q', hq', hprecedes⟩ := hsecond other q hq
    have hbefore := h other q' hother hq' (hprecedes.pool_eq.trans hkey)
    have hbetween := hfirst.between hsecond hbefore hq'
    cases found_unique hq hbetween
    exact hbefore
  · intro other q hother hq hkey
    exact hfirst.between hsecond (h other q hother hq hkey) hq

/-- Any changes. -/
theorem Changes.rateBeside (h : Changes s s') (hothers : s.OthersSame s' id key)
    (hrate : s.RateBeside id key rest) : s'.RateBeside id key rest := by
  -- from the front, so that what is the same in the end can be brought back to the first change
  induction h using Relation.ReflTransGen.head_induction_on with
  | refl => exact hrate
  | head hfirst hrest ih =>
    obtain ⟨hnow, hlater⟩ := hothers.between hfirst.keeps (Changes.keeps hrest)
    exact ih hlater (hfirst.rateBeside hnow hrate)

end Store

namespace Session

variable {books : Books Partners} {id key : String} {rest left : Int} {closed : Pool}

/-- An opening adds the rate of its position, whether or not the position runs. -/
theorem rateBeside_of_opened {p : Position} {amount : Int} {l : Lockup} {registered : Bool}
    {before : Pool} (hbefore : books.store.pool? p.pool = .ok (some before))
    (h : (step books (.openPosition p amount l registered)).answer.isOk = true) :
    (step books (.openPosition p amount l registered)).books.store.RateBeside p.id p.pool
      (before.rate.val + p.rate.val - p.runningRate) := by
  obtain ⟨answer, hanswer⟩ := isOk_iff.mp h
  obtain ⟨old, opened, -, hold, hstake, hstore, -⟩ := step_openPosition_ok hanswer
  cases found_unique hbefore hold
  obtain ⟨-, -, -, hadded, -, -⟩ := Pool.applyDelta_eq_ok_iff.mp hstake
  rw [hstore]
  refine ⟨opened, p, Store.pool?_putPool _ _ opened, Store.position?_putPosition _ p, rfl, ?_⟩
  rw [hadded, sub_add_cancel]
  rfl

/-- A closing leaves what the pool falls at beside its position. -/
theorem rate_of_closed (hrate : books.store.RateBeside id key rest)
    (h : (step books (.closePosition id left)).answer = .ok (.pool closed)) :
    (step books (.closePosition id left)).books.store.pool? key = .ok (some closed) ∧
      closed.rate.val = rest := by
  obtain ⟨pool, p, hpool, hp, rfl, hsum⟩ := hrate
  obtain ⟨_, hclosing, hr⟩ := (step_answer_eq_ok_iff rfl).mp h
  cases hr
  obtain ⟨q, l, delta, old, hq, -, -, hdelta, hold, hchanged, -, hlast, -⟩ :=
    Service.exists_runOn_closePosition_iff.mp ⟨_, hclosing, rfl, rfl⟩
  cases found_unique hp hq
  cases found_unique hpool hold
  obtain ⟨-, -, -, htaken, -, -⟩ := Pool.applyDelta_eq_ok_iff.mp hchanged
  refine ⟨?_, ?_⟩
  · rw [hlast]
    exact Store.pool?_putPool _ _ closed
  · rw [htaken, Service.Pools.rate_of_closingDelta hdelta, hsum, add_neg_cancel_right]

/-- A position is opened and, after some steps, closed with an amount that is left of it; the
closing answers with a pool. Whatever the steps between are, no other position of the pool is
opened, purged or closed by them. -/
structure OpenedAndClosed (books : Books Partners) (p : Position) (amount : Int) (l : Lockup)
    (registered : Bool) (steps : List Step) (left : Int) (closed : Pool) : Prop where
  opened : (step books (.openPosition p amount l registered)).answer.isOk = true
  others : (step books (.openPosition p amount l registered)).books.store.OthersSame
    (booksAfter books (.openPosition p amount l registered :: steps)).store p.id p.pool
  closed : (step (booksAfter books (.openPosition p amount l registered :: steps))
    (.closePosition p.id left)).answer = .ok (.pool closed)

/-- The rate of a pool after one of its positions has been opened and closed is what it was
before, and that of the position if it did not run when it was opened. It is what it was before
exactly if the position was opened running, or does not fall. -/
theorem rate_of_openedAndClosed (books : Books Partners) (p : Position) (amount : Int) (l : Lockup)
    (registered : Bool) (steps : List Step) (left : Int) (before closed : Pool)
    (hbefore : books.store.pool? p.pool = .ok (some before))
    (h : OpenedAndClosed books p amount l registered steps left closed) :
    (booksAfter books (.openPosition p amount l registered :: steps ++
        [.closePosition p.id left])).store.pool? p.pool = .ok (some closed) ∧
      closed.rate.val = before.rate.val + (if p.phase = .running then 0 else p.rate.val) ∧
      (closed.rate = before.rate ↔ p.phase = .running ∨ p.rate.val = 0) := by
  obtain ⟨hopened, hothers, hclosed⟩ := h
  have hrun : Store.Changes (step books (.openPosition p amount l registered)).books.store
      (booksAfter books (.openPosition p amount l registered :: steps)).store := changes_run _ steps
  obtain ⟨hstored, hleft⟩ :=
    rate_of_closed (hrun.rateBeside hothers (rateBeside_of_opened hbefore hopened)) hclosed
  have hsum : closed.rate.val =
      before.rate.val + (if p.phase = .running then 0 else p.rate.val) := by
    rw [hleft, Position.runningRate]
    split <;> ring
  refine ⟨?_, hsum, ?_⟩
  · rw [booksAfter_append]
    exact hstored
  · rw [Amount.ext_iff, hsum]
    split <;> simp [*]

/-- A pool with one position, which falls by 5 up to time 100; the time is zero, and lockups are
looked up in the store. -/
def steadyBooks : Books Partners where
  store :=
    { pools := ⟨[("pool", ⟨"2000", "5", .int 0⟩)]⟩
      positions := ⟨[("steady", ⟨"pool", .int 0, "5", .int 0, .int 0⟩)]⟩
      lockups := ⟨[(("steady", .int 0), ⟨"cliff", .int 0, .int 100⟩)]⟩ }
  outside := { registrar := { lockups := .stored } }

/-- The steps between: the other position is rescheduled, and the one purged; a second purge of it
is refused. -/
def purgedBetween : List Step :=
  [.poolStatus "pool", .setClock 30, .process "steady", .rollForward "pool", .process "brief",
    .process "brief"]

/-- A position that falls by 10 up to 20 is opened running, purged, and closed: the pool falls by 5
before and after. -/
theorem rate_of_openedAndClosed_steady :
    steadyBooks.store.pool? "pool" = .ok (some ⟨.capped 2000, .capped 5, 0⟩) ∧
      OpenedAndClosed steadyBooks (.running "brief" "pool" 1 10) 900 (.lasting .cliff 0 20) false
        purgedBetween 700 ⟨.capped 1850, .capped 5, 30⟩ ∧
      (booksAfter steadyBooks (.openPosition (.running "brief" "pool" 1 10) 900
        (.lasting .cliff 0 20) false :: purgedBetween ++ [.closePosition "brief" 700])).store.pool?
          "pool" = .ok (some ⟨.capped 1850, .capped 5, 30⟩) := by
  have hbefore : steadyBooks.store.pool? "pool" = .ok (some ⟨.capped 2000, .capped 5, 0⟩) := by
    decide +kernel
  have hclosed : OpenedAndClosed steadyBooks (.running "brief" "pool" 1 10) 900
      (.lasting .cliff 0 20) false purgedBetween 700 ⟨.capped 1850, .capped 5, 30⟩ := by
    refine ⟨by decide +kernel, ?_, by decide +kernel⟩
    exact Store.othersSame_of_put ⟨"pool", .int 1, "10", .int 1, .int 0⟩ (by decide +kernel) _
  exact ⟨hbefore, hclosed, (rate_of_openedAndClosed steadyBooks (.running "brief" "pool" 1 10) 900
    (.lasting .cliff 0 20) false purgedBetween 700 _ _ hbefore hclosed).1⟩

/-- Whatever position is opened and closed, with any looking, rolling forward and processing in
between: the rate of the pool is what it was before. -/
def RatesCancel : Prop :=
  ∀ (books : Books Partners) (p : Position) (amount : Int) (l : Lockup) (registered : Bool)
    (steps : List Step) (left : Int) (before closed : Pool),
    (∀ s ∈ steps, ∃ id, s = .poolStatus id ∨ s = .rollForward id ∨ s = .process id) →
    books.store.pool? p.pool = .ok (some before) →
    OpenedAndClosed books p amount l registered steps left closed → closed.rate = before.rate

/-- A position that falls by 10 is opened as already finalized, and closed: the pool falls by 5
before and by 15 after. -/
theorem not_ratesCancel : ¬RatesCancel := by
  intro h
  have hbefore : steadyBooks.store.pool? "pool" = .ok (some ⟨.capped 2000, .capped 5, 0⟩) := by
    decide +kernel
  have hclosed : OpenedAndClosed steadyBooks
      { Position.running "spent" "pool" 1 10 with phase := .finalized } 900 (.lasting .cliff 0 20)
      false [.rollForward "pool"] 900 ⟨.capped 2000, .capped 15, 0⟩ := by
    refine ⟨by decide +kernel, ?_, by decide +kernel⟩
    exact Store.othersSame_of_put ⟨"pool", .int 1, "10", .int 1, .int 0⟩ (by decide +kernel) _
  have hrate := h steadyBooks _ 900 _ false [.rollForward "pool"] 900 _ _ (by simp) hbefore hclosed
  exact absurd (congrArg Amount.val hrate) (by decide)

end Session

end StakeLedger
