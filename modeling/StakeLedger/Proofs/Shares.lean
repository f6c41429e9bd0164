import StakeLedger.Proofs.PoolPositions
import StakeLedger.Proofs.Steps

/-
  The shares of positions in their pools.
  A pool charges its decay in one sum, late, and for positions that no longer fall; a position
  has its own reckoning, from the amount and the time of its opening. In a session in which
  every closing takes out what the position's own reckoning says, the two agree at all times:
  the pool's outlook is the sum of its positions' shares, as functions of the time
  (`Agrees.outlook_eq`). Opening, closing and finalizing change both by the same function
  (`Agrees.exchange`), and rolling forward changes neither.
-/

namespace StakeLedger

/-! ## Openings -/

/-- What is known of a position from its opening. -/
structure Opening where
  rate : Int
  amount : Int
  time : Int
  lockup : Lockup
  deriving DecidableEq, Repr

namespace Opening

/-- The lockup does not stop before the opening, and a constant one has a period. -/
def Fair (o : Opening) : Prop :=
  (o.lockup.kind = .constant ∧ 0 < o.lockup.period) ∨
    (o.lockup.kind ≠ .constant ∧ o.time ≤ o.lockup.stop)

instance (o : Opening) : Decidable o.Fair := inferInstanceAs (Decidable (_ ∨ _))

/-- The end of the position's fall, seen from a time: a constant lockup does not stop it. -/
def fallEnd (o : Opening) (time : Int) : Int :=
  if o.lockup.kind = .constant then time else min time o.lockup.stop

/-- What is left of the amount at a time. -/
def left (o : Opening) (time : Int) : Int := o.amount - o.rate * (o.fallEnd time - o.time)

/-- The share of a position in its pool at a time. While it runs it falls on after its lockup's
stop, as the pool does; once finalized it is what was left at the stop. -/
def share (o : Opening) (phase : Phase) (time : Int) : Int :=
  match phase with
  | .running => o.amount - o.rate * (time - o.time)
  | .finalized => o.amount - o.rate * (o.lockup.stop - o.time)
  | .closed => 0

/-- A fall ends at a time, or as many seconds before it as the lockup has been expired. -/
theorem fallEnd_add_secondsSinceExpiry {o : Opening} (h : o.Fair) (time : Int) :
    o.fallEnd time + o.lockup.secondsSinceExpiry time = time := by
  unfold fallEnd
  rcases h with ⟨hkind, hperiod⟩ | ⟨hkind, -⟩
  · have hrunning : o.lockup.isExpired time = false := by
      rw [Bool.eq_false_iff, ne_eq, Lockup.isExpired_constant hkind]
      omega
    rw [if_pos hkind, Lockup.secondsSinceExpiry_of_running hrunning, add_zero]
  · rw [if_neg hkind]
    by_cases hstop : o.lockup.stop ≤ time
    · rw [Lockup.secondsSinceExpiry_of_stop_le hkind hstop]
      omega
    · have hrunning : o.lockup.isExpired time = false := by
        rw [Bool.eq_false_iff, ne_eq, Lockup.isExpired_iff hkind]
        exact hstop
      rw [Lockup.secondsSinceExpiry_of_running hrunning]
      omega

/-- A lockup of a fair opening that is expired has a stop, and that is over. -/
theorem Fair.of_isExpired {o : Opening} (h : o.Fair) {time : Int}
    (hexpired : o.lockup.isExpired time = true) :
    o.lockup.kind ≠ .constant ∧ o.lockup.stop ≤ time := by
  rcases h with ⟨hkind, hperiod⟩ | ⟨hkind, -⟩
  · rw [Lockup.isExpired_constant hkind] at hexpired
    omega
  · exact ⟨hkind, (Lockup.isExpired_iff hkind).mp hexpired⟩

end Opening

/-- The openings of positions, by their ids. -/
abbrev Openings : Type := Table String Opening

/-- The share of a position in its pool at a time, by its opening. -/
def Openings.share (openings : Openings) (p : Position) (time : Int) : Int :=
  (openings.get? p.id).elim 0 fun o => o.share p.phase time

theorem Openings.share_congr {openings openings' : Openings} {p : Position}
    (h : openings'.get? p.id = openings.get? p.id) (time : Int) :
    openings'.share p time = openings.share p time := by
  rw [share, share, h]

theorem Openings.share_of_get? {openings : Openings} {p : Position} {o : Opening}
    (h : openings.get? p.id = some o) (time : Int) :
    openings.share p time = o.share p.phase time := by
  rw [share, h, Option.elim_some]

/-! ## Ledgers that agree with the openings -/

/-- An opening says what the ledger shows of a position, and a finalized position does not fall
any more. -/
structure Opening.Describes (o : Opening) (g : Ledger) (p : Position) : Prop where
  fair : o.Fair
  rate_eq : o.rate = p.rate.val
  lockup_eq : g.lockups.get? (p.id, p.index) = some o.lockup
  stopped : p.phase = .finalized → o.lockup.kind ≠ .constant ∧
    ∀ pool, g.pools.get? p.pool = some pool → o.lockup.stop ≤ pool.asOf

namespace Ledger

/-- All positions have openings, and the outlook of each pool is the sum of the shares of its
positions, whatever the time. -/
structure Agrees (g : Ledger) (openings : Openings) : Prop where
  outlook_eq : ∀ id pool, g.pools.get? id = some pool →
    ∀ time, pool.outlook time = g.sumIn id fun p => openings.share p time
  poolsExist : g.PoolsExist
  described : ∀ id p, g.positions.get? id = some p →
    ∃ o, openings.get? id = some o ∧ o.Describes g p

variable {g g' : Ledger} {openings : Openings} {time : Int} {delta : Delta} {p : Position}

namespace Agrees

theorem empty : Agrees {} {} := by
  constructor <;> rintro _ _ ⟨⟩

/-- A pool is put that has the outlook of the positions under its id and is not earlier. -/
theorem putPool (hg : g.Agrees openings) {key : String} {pool : Pool}
    (houtlook : ∀ time, pool.outlook time = g.sumIn key fun p => openings.share p time)
    (hlater : ∀ before, g.pools.get? key = some before → before.asOf ≤ pool.asOf) :
    (g.putPool key pool).Agrees openings := by
  refine ⟨fun id pool' hpool => ?_, hg.poolsExist.putPool key pool, fun id q hq => ?_⟩
  · rw [get?_pools_putPool] at hpool
    split at hpool
    · next hid =>
      cases hpool
      rw [hid]
      exact houtlook
    · exact hg.outlook_eq id pool' hpool
  · obtain ⟨o, ho, hdescribes⟩ := hg.described id q hq
    refine ⟨o, ho, hdescribes.fair, hdescribes.rate_eq, hdescribes.lockup_eq, fun hfinal => ?_⟩
    obtain ⟨hkind, hstop⟩ := hdescribes.stopped hfinal
    refine ⟨hkind, fun pool' hpool => ?_⟩
    rw [get?_pools_putPool] at hpool
    split at hpool
    · next hid =>
      cases hpool
      obtain ⟨before, hbefore⟩ := hg.poolsExist id q hq
      exact le_trans (hstop before hbefore) (hlater before (hid ▸ hbefore))
    · exact hstop pool' hpool

/-- The opening of a position that is not there yet can be noted. -/
theorem note (hg : g.Agrees openings) {key : String} (hkey : g.positions.get? key = none)
    (o : Opening) : g.Agrees (openings.put key o) := by
  -- the key is that of no position, so no share changes
  have hother : ∀ id q, g.positions.get? id = some q →
      (openings.put key o).get? id = openings.get? id := by
    intro id q hq
    rw [Table.get?_put, if_neg]
    rintro rfl
    rw [hkey] at hq
    cases hq
  refine ⟨fun id pool hpool time => ?_, hg.poolsExist, fun id q hq => ?_⟩
  · rw [hg.outlook_eq id pool hpool time]
    unfold sumIn Table.sum
    refine congrArg List.sum (List.map_congr_left fun entry hentry => ?_)
    have hget := Table.get?_of_mem g.ids_nodup hentry
    have hsame : Openings.share (openings.put key o) entry.2 time =
        openings.share entry.2 time := by
      apply Openings.share_congr
      rw [id_of_get? hget, hother entry.1 entry.2 hget]
    dsimp only
    rw [hsame]
  · rw [hother id q hq]
    exact hg.described id q hq

/-- An exchange that changes the outlook as it changes the position's share. -/
theorem exchange (hg : g.Agrees openings) (h : Posting.Exchange g time delta p g')
    (hold : ∀ q, g.positions.get? p.id = some q → q.pool = p.pool)
    (hshare : ∀ t, openings.share p t =
      (g.positions.get? p.id).elim 0 (fun q => openings.share q t) + delta.staked -
        (t - time) * delta.rate)
    (hlockups : ∀ key, key.1 ≠ p.id → g'.lockups.get? key = g.lockups.get? key)
    (hp : ∃ o, openings.get? p.id = some o ∧ o.Describes g' p) : g'.Agrees openings := by
  obtain ⟨before, changed, hbefore, hchanged, hpools⟩ := pools_exchange h
  obtain ⟨hle, -, -, -, -, hasOf⟩ := Pool.applyDelta_eq_ok_iff.mp hchanged
  refine ⟨fun id pool hpool t => ?_, hg.poolsExist.exchange h, fun id q hq => ?_⟩
  · rw [sumIn_exchange h hold]
    rw [hpools] at hpool
    by_cases hid : id = p.pool
    · rw [if_pos hid] at hpool
      cases hpool
      rw [if_pos hid.symm, hid, ← hg.outlook_eq p.pool before hbefore t,
        Pool.outlook_applyDelta hchanged, hshare t]
      ring
    · rw [if_neg hid] at hpool
      rw [if_neg (Ne.symm hid), hg.outlook_eq id pool hpool t, add_zero]
  · rw [positions_exchange h] at hq
    split at hq
    · next hid =>
      cases hq
      exact hid ▸ hp
    · next hid =>
      obtain ⟨o, ho, hdescribes⟩ := hg.described id q hq
      have hlockup : g'.lockups.get? (q.id, q.index) = some o.lockup := by
        rw [hlockups _ (by rw [id_of_get? hq]; exact hid), hdescribes.lockup_eq]
      refine ⟨o, ho, hdescribes.fair, hdescribes.rate_eq, hlockup, fun hfinal => ?_⟩
      obtain ⟨hkind, hstop⟩ := hdescribes.stopped hfinal
      refine ⟨hkind, fun pool hpool => ?_⟩
      rw [hpools] at hpool
      split at hpool
      · next hpoolId =>
        cases hpool
        rw [hasOf]
        exact le_trans (hstop before (hpoolId ▸ hbefore)) hle
      · exact hstop pool hpool

/-- An exchange that puts a position into another phase, and changes the outlook as it changes
the share. -/
theorem exchange_phase (hg : g.Agrees openings) {id : String} {phase : Phase} {o : Opening}
    (hp : g.positions.get? id = some p) (ho : openings.get? id = some o)
    (hdescribes : o.Describes g p) (h : Posting.Exchange g time delta { p with phase := phase } g')
    (hlockups : g'.lockups = g.lockups)
    (hshare : ∀ t, o.share phase t = o.share p.phase t + delta.staked - (t - time) * delta.rate)
    (hstopped : phase = .finalized → o.lockup.kind ≠ .constant ∧ o.lockup.stop ≤ time) :
    g'.Agrees openings := by
  have hfound : g.positions.get? p.id = some p := by rw [id_of_get? hp, hp]
  have hopening : openings.get? p.id = some o := by rw [id_of_get? hp, ho]
  obtain ⟨before, changed, hbefore, hchanged, hpools⟩ := pools_exchange h
  obtain ⟨-, -, -, -, -, hasOf⟩ := Pool.applyDelta_eq_ok_iff.mp hchanged
  refine hg.exchange h (by simp [hfound]) ?_ (fun key _ => by rw [hlockups])
    ⟨o, hopening, hdescribes.fair, hdescribes.rate_eq, ?_, fun hfinal => ?_⟩
  · intro t
    rw [hfound, Option.elim_some, Openings.share_of_get? hopening,
      Openings.share_of_get? (p := { p with phase := phase }) hopening]
    exact hshare t
  · rw [hlockups]
    exact hdescribes.lockup_eq
  · obtain ⟨hkind, hstop⟩ := hstopped hfinal
    refine ⟨hkind, fun pool hpool => ?_⟩
    rw [hpools, if_pos rfl] at hpool
    cases hpool
    rw [hasOf]
    exact hstop

theorem created (hg : g.Agrees openings) {id : String} {asOf : Int} :
    ((Posting.createPool id asOf).after g).Agrees openings := by
  refine Posting.keeps (P := fun g => g.Agrees openings) hg fun pool g' hrun => ?_
  obtain ⟨hnone, rfl⟩ := Posting.run_createPool_ok hrun
  refine hg.putPool (fun t => ?_) (by simp [hnone])
  rw [sumIn_of_no_pool hg.poolsExist hnone, Pool.outlook, Pool.decay]
  simp [Pool.empty, Amount.zero]

theorem rolled (hg : g.Agrees openings) {id : String} :
    ((Posting.rollForward id time).after g).Agrees openings := by
  refine Posting.keeps (P := fun g => g.Agrees openings) hg fun after g' hrun => ?_
  obtain ⟨before, hbefore, hroll, rfl⟩ := Posting.run_rollForward_ok hrun
  obtain ⟨hle, -, -, -, hasOf⟩ := Pool.rollForward_eq_ok_iff.mp hroll
  refine hg.putPool (fun t => ?_) fun before' hbefore' => ?_
  · rw [Pool.outlook_rollForward hroll]
    exact hg.outlook_eq id before hbefore t
  · cases Option.some.inj (hbefore.symm.trans hbefore')
    rw [hasOf]
    exact hle

/-- A fair opening, once it is noted. -/
theorem opened (hg : g.Agrees openings) {amount : Int} {l : Lockup} {pool : Pool}
    (hphase : p.phase = .running) (hfair : Opening.Fair ⟨p.rate.val, amount, time, l⟩)
    (hrun : (Posting.openPosition time p amount l).run g = .ok (pool, g')) :
    g'.Agrees (openings.put p.id ⟨p.rate.val, amount, time, l⟩) := by
  obtain ⟨hnone, hexchange, hlockups⟩ := Posting.exchange_of_open hrun
  have hnoted : Table.get? (openings.put p.id ⟨p.rate.val, amount, time, l⟩) p.id =
      some ⟨p.rate.val, amount, time, l⟩ := by
    rw [Table.get?_put, if_pos rfl]
  refine (hg.note hnone _).exchange hexchange (by simp [hnone]) ?_ ?_
    ⟨_, hnoted, hfair, rfl, ?_, ?_⟩
  · intro t
    rw [Openings.share_of_get? hnoted, hnone, hphase, Option.elim_none]
    show amount - p.rate.val * (t - time) = 0 + amount - (t - time) * p.rate.val
    ring
  · intro key hkey
    rw [hlockups, Table.get?_put, if_neg]
    rintro rfl
    exact hkey rfl
  · rw [hlockups, Table.get?_put, if_pos rfl]
  · rw [hphase]
    rintro ⟨⟩

/-- The lockup that a registrar over the store finds for a position is that of its opening. -/
theorem lockup_of_finds {registrar : Registrar} (hstored : registrar.lockups = .stored)
    {id : String} {o : Opening} {l : Lockup} (hp : g.positions.get? id = some p)
    (ho : o.Describes g p) (hfinds : Posting.Finds registrar g (id, p.index) l) :
    l = o.lockup := by
  unfold Posting.Finds at hfinds
  rw [hstored] at hfinds
  have hlockup := ho.lockup_eq
  rw [id_of_get? hp] at hlockup
  exact Option.some.inj (hfinds.symm.trans hlockup)

/-- A closing takes what is left of the position. -/
theorem closed (hg : g.Agrees openings) {registrar : Registrar}
    (hstored : registrar.lockups = .stored) {id : String} {amount : Int} {pool : Pool}
    (hamount : ∀ o ∈ openings.get? id, amount = o.left registrar.clock.now)
    (hrun : (Posting.closePosition registrar id amount).run g = .ok (pool, g')) :
    g'.Agrees openings := by
  obtain ⟨p, l, delta, hp, hopen, hfinds, hdelta, hexchange, hlockups⟩ :=
    Posting.exchange_of_close hrun
  obtain ⟨o, ho, hdescribes⟩ := hg.described id p hp
  obtain rfl := lockup_of_finds hstored hp hdescribes hfinds
  refine hg.exchange_phase hp ho hdescribes hexchange hlockups (fun t => ?_) (by rintro ⟨⟩)
  have hleft := hamount o ho
  rcases Service.Pools.closingDelta_eq_ok_iff.mp hdelta with
    ⟨hphase, rfl⟩ | ⟨hphase, expired, hexpired, rfl⟩
  · -- a purge has come first, so the fall ended at the stop
    have hfinal : p.phase = .finalized := by
      cases hcase : p.phase with
      | running => exact absurd hcase hphase
      | finalized => rfl
      | closed => exact absurd hcase hopen
    obtain ⟨hkind, hstop⟩ := hdescribes.stopped hfinal
    obtain ⟨before, changed, hbefore, hchanged, -⟩ := pools_exchange hexchange
    have hle := (Pool.applyDelta_eq_ok_iff.mp hchanged).1
    have hstopped : o.lockup.stop ≤ registrar.clock.now := le_trans (hstop before hbefore) hle
    rw [hfinal, hleft, Opening.left, Opening.fallEnd, if_neg hkind, min_eq_right hstopped]
    simp only [Opening.share]
    ring
  · obtain ⟨-, rfl⟩ := Purge.expiredDelta_eq_ok_iff.mp hexpired
    have hend := Opening.fallEnd_add_secondsSinceExpiry hdescribes.fair registrar.clock.now
    have hsince : o.lockup.view.secondsSinceExpiry registrar.clock.now =
        registrar.clock.now - o.fallEnd registrar.clock.now := by
      show o.lockup.secondsSinceExpiry registrar.clock.now = _
      omega
    rw [hphase, hleft, Opening.left, hsince, ← hdescribes.rate_eq]
    simp only [Opening.share]
    ring

/-- A finalization gives back what the pool was charged after the stop. -/
theorem processed (hg : g.Agrees openings) {registrar : Registrar}
    (hstored : registrar.lockups = .stored) {policy : Purge.Policy}
    (hpolicy : policy.bypassExpiry = false) {id : String} :
    ((Posting.process registrar policy id).after g).Agrees openings := by
  refine Posting.keeps (P := fun g => g.Agrees openings) hg fun r g' hrun => ?_
  rcases Posting.exchange_of_process hrun with
    rfl | ⟨p, l, delta, hp, hphase, hfinds, hexpired, hdelta, hexchange, hlockups⟩
  · exact hg
  obtain ⟨o, ho, hdescribes⟩ := hg.described id p hp
  obtain rfl := lockup_of_finds hstored hp hdescribes hfinds
  have hover : o.lockup.isExpired registrar.clock.now = true := by
    rcases hexpired with hbypass | hexpired
    · rw [hpolicy] at hbypass
      cases hbypass
    · exact hexpired
  obtain ⟨hkind, hstop⟩ := hdescribes.fair.of_isExpired hover
  obtain ⟨-, rfl⟩ := Purge.expiredDelta_eq_ok_iff.mp hdelta
  refine hg.exchange_phase hp ho hdescribes hexchange hlockups (fun t => ?_)
    fun _ => ⟨hkind, hstop⟩
  have hsince : o.lockup.view.secondsSinceExpiry registrar.clock.now =
      registrar.clock.now - o.lockup.stop := Lockup.secondsSinceExpiry_of_stop_le hkind hstop
  rw [hphase, hsince, ← hdescribes.rate_eq]
  simp only [Opening.share]
  ring

end Agrees

end Ledger

/-! ## Fair sessions -/

namespace Session

/-- A session, and what is known of the openings in it. The openings are noted from the answers;
they have no part in what happens. -/
structure Chronicle where
  books : Books Partners
  openings : Openings := {}

namespace Chronicle

/-- The time of the registrar's clock. -/
def now (c : Chronicle) : Int := c.books.outside.registrar.clock.now

/-- The openings once a step has been answered. -/
def noted (c : Chronicle) (s : Step) (answer : Except Fault Answer) : Openings :=
  match s, answer with
  | .openPosition p amount l _, .ok _ => c.openings.put p.id ⟨p.rate.val, amount, c.now, l⟩
  | _, _ => c.openings

/-- The session after a step. -/
def next (c : Chronicle) (s : Step) : Chronicle :=
  ⟨(step c.books s).books, c.noted s (step c.books s).answer⟩

/-- What a step may do if it succeeds: open a position that runs, with a lockup that is not over
and, if it is constant, has a period; close a position and take out what is left of it; but put
no lockup into the store past an opening. -/
def Allows (c : Chronicle) : Step → Prop
  | .openPosition p amount l _ =>
    p.phase = .running ∧ Opening.Fair ⟨p.rate.val, amount, c.now, l⟩
  | .closePosition id amount => ∀ o ∈ c.openings.get? id, amount = o.left c.now
  | .storeLockup _ _ _ => False
  | _ => True

instance (c : Chronicle) : (s : Step) → Decidable (c.Allows s)
  | .openPosition _ _ _ _ => inferInstanceAs (Decidable (_ ∧ _))
  | .closePosition _ _ => inferInstanceAs (Decidable (∀ _ ∈ _, _))
  | .storeLockup _ _ _ => isFalse id
  | .setClock _ | .advanceClock _ | .readClock | .registerLockup _ _ _ | .findLockup _ _
  | .createPool _ _ | .poolStatus _ | .rollForward _ | .process _ | .sweep _ | .fail _ =>
    isTrue trivial

/-- A step is fair if it is allowed or fails. -/
def Fair (c : Chronicle) (s : Step) : Prop := (step c.books s).answer.isOk = true → c.Allows s

instance (c : Chronicle) (s : Step) : Decidable (c.Fair s) := inferInstanceAs (Decidable (_ → _))

/-- All steps are fair, each where the ones before it have led. -/
def FairRun (c : Chronicle) : List Step → Prop
  | [] => True
  | s :: rest => c.Fair s ∧ (c.next s).FairRun rest

instance decidableFairRun (c : Chronicle) : (steps : List Step) → Decidable (c.FairRun steps)
  | [] => inferInstanceAs (Decidable True)
  | s :: rest =>
    have := decidableFairRun (c.next s) rest
    inferInstanceAs (Decidable (_ ∧ _))

/-- The session after steps that follow one another. -/
def after (c : Chronicle) (steps : List Step) : Chronicle := steps.foldl next c

/-- Noting the openings changes nothing in the session. -/
theorem books_after (c : Chronicle) (steps : List Step) :
    (c.after steps).books = booksAfter c.books steps := by
  induction steps generalizing c with
  | nil => rfl
  | cons s rest ih => exact ih (c.next s)

/-- A chronicle of a store whose ledger agrees with the openings, with lockups looked up in the
store and expiries looked at. -/
structure Sound (c : Chronicle) (g : Ledger) : Prop where
  store_eq : c.books.store = g.store
  stored : c.books.outside.registrar.lockups = .stored
  expiries : c.books.outside.policy.bypassExpiry = false
  agrees : g.Agrees c.openings

/-- The ledger after a fair step agrees with the openings after it. -/
theorem agrees_of_lands {c : Chronicle} {g g' : Ledger} {s : Step} (hc : c.Sound g)
    (hfair : c.Fair s) (h : Lands c.books s g g') :
    g'.Agrees (c.noted s (step c.books s).answer) := by
  have hg := hc.agrees
  have hposted := h.posted
  cases s with
  | setClock | advanceClock | readClock | registerLockup | fail => exact hposted ▸ hg
  | findLockup position index =>
    rw [hposted.2, Posting.looks_findLockup _ _ _ g]
    exact hg
  | poolStatus id =>
    rw [hposted.2, Posting.looks_status _ _ g]
    exact hg
  | createPool id time => exact hposted.2 ▸ hg.created
  | rollForward id => exact hposted.2 ▸ hg.rolled
  | process id =>
    exact hposted.induction (P := fun g => g.Agrees c.openings) hg
      fun _ _ h => h.processed hc.stored hc.expiries
  | sweep pool =>
    exact hposted.induction (P := fun g => g.Agrees c.openings) hg
      fun _ _ h => h.processed hc.stored hc.expiries
  | storeLockup position index l =>
    rcases hposted.cases with ⟨fault, -, rfl⟩ | ⟨_, hanswer, -⟩
    · exact hg
    · exact (hfair (by rw [hanswer]; rfl)).elim
  | openPosition p amount l registered =>
    unfold noted
    rcases hposted.cases with ⟨fault, hanswer, rfl⟩ | ⟨pool, hanswer, hrun⟩
    · rw [hanswer]
      exact hg
    · obtain ⟨hphase, hopening⟩ := hfair (by rw [hanswer]; rfl)
      rw [hanswer]
      exact hg.opened hphase hopening hrun
  | closePosition id amount =>
    show g'.Agrees c.openings
    rcases hposted.cases with ⟨fault, -, rfl⟩ | ⟨pool, hanswer, hrun⟩
    · exact hg
    · exact hg.closed hc.stored (hfair (by rw [hanswer]; rfl)) hrun

/-- A fair run keeps a chronicle sound. -/
theorem exists_sound_after {steps : List Step} {c : Chronicle} {g : Ledger} (hc : c.Sound g)
    (hfair : c.FairRun steps) : ∃ g', (c.after steps).Sound g' := by
  induction steps generalizing c g with
  | nil => exact ⟨g, hc⟩
  | cons s rest ih =>
    obtain ⟨g', hlands⟩ := exists_lands hc.store_eq s
    have hnext : (c.next s).Sound g' :=
      ⟨hlands.store_eq, hlands.stored hc.stored, hlands.policy_eq ▸ hc.expiries,
        agrees_of_lands hc hfair.1 hlands⟩
    exact ih hnext hfair.2

end Chronicle

end Session

/-! ## The store -/

/-- A store with these positions and no others, each opened as noted, in which the amount of each
pool is the sum of the shares of its positions that are not closed, at the time of the pool's
last calculation. -/
structure Store.Balanced (s : Store) (openings : Openings) (positions : List Position) :
    Prop where
  positions_eq : s.allPositions = .ok positions
  ids_nodup : (positions.map (·.id)).Nodup
  opened : ∀ p ∈ positions, ∃ o, openings.get? p.id = some o ∧ o.rate = p.rate.val ∧
    (p.phase = .finalized → o.lockup.kind ≠ .constant)
  pool_exists : ∀ p ∈ positions, ∃ pool, s.pool? p.pool = .ok (some pool)
  staked_eq : ∀ id ∈ s.pools.keys, ∃ pool, s.pool? id = .ok (some pool) ∧
    pool.staked.val = ((positions.filter fun p =>
      p.pool = id ∧ p.phase.isClosed = false).map fun p => openings.share p pool.asOf).sum

/-- The share of a closed position is nothing. -/
theorem Openings.share_of_closed {openings : Openings} {p : Position}
    (h : p.phase.isClosed = true) (time : Int) : openings.share p time = 0 := by
  have hclosed : p.phase = .closed := by
    cases hphase : p.phase <;> rw [hphase] at h <;> first | rfl | cases h
  rw [share, hclosed]
  cases openings.get? p.id <;> rfl

theorem Ledger.Agrees.balanced {g : Ledger} {openings : Openings} (hg : g.Agrees openings) :
    g.store.Balanced openings g.allPositions := by
  refine ⟨g.allPositions_store, ?_, ?_, ?_, ?_⟩
  · rw [ids_allPositions]
    exact g.ids_nodup
  · intro p hp
    obtain ⟨o, ho, hdescribes⟩ := hg.described p.id p (get?_of_mem_allPositions hp)
    exact ⟨o, ho, hdescribes.rate_eq, fun hfinal => (hdescribes.stopped hfinal).1⟩
  · intro p hp
    obtain ⟨pool, hpool⟩ := hg.poolsExist p.id p (get?_of_mem_allPositions hp)
    exact ⟨pool, by rw [pool?_store, hpool]⟩
  · intro id hid
    obtain ⟨pool, hpool⟩ := exists_pool_of_mem_keys hid
    refine ⟨pool, by rw [pool?_store, hpool], ?_⟩
    rw [← Pool.outlook_asOf, hg.outlook_eq id pool hpool,
      sum_allPositions g id fun p => p.phase.isClosed = false]
    congr 1
    funext p
    split
    · rfl
    · next hclosed => exact Openings.share_of_closed (by simpa using hclosed) _

/-- In every state that a session over the store can reach by fair steps from an empty store,
with expiries looked at, the amount of each pool is the sum of the shares of its positions. -/
theorem Session.Chronicle.after_balanced (partners : Partners)
    (hstored : partners.registrar.lockups = .stored)
    (hexpiries : partners.policy.bypassExpiry = false) (steps : List Step)
    (hfair : FairRun ⟨start {} partners, {}⟩ steps) :
    ∃ positions, (booksAfter (start {} partners) steps).store.Balanced
      (after ⟨start {} partners, {}⟩ steps).openings positions := by
  have hstart : Sound ⟨start {} partners, {}⟩ {} := by
    obtain ⟨hstore, houtside⟩ := start_eq {} partners
    refine ⟨hstore, ?_, ?_, .empty⟩
    · rw [houtside]
      exact hstored
    · rw [houtside]
      exact hexpiries
  obtain ⟨g, hg⟩ := exists_sound_after hstart hfair
  refine ⟨g.allPositions, ?_⟩
  have hstore := hg.store_eq
  rw [books_after] at hstore
  rw [hstore]
  exact hg.agrees.balanced

namespace Session

/-- Partners at time zero whose registrar looks lockups up in the store. -/
def storePartners : Partners := { registrar := { clock := { set := some 0 }, lockups := .stored } }

/-- Of three positions one is purged 10 seconds late, and purged again; one is closed without a
purge, 15 seconds late; and one runs on. -/
def lateHistory : List Step :=
  [.createPool "pool" (some 0),
    .openPosition (.running "steady" "pool" 0 5) 1000 (.lasting .cliff 0 100) false,
    .openPosition (.running "brief" "pool" 1 10) 900 (.lasting .unlocked 0 20) false, .setClock 10,
    .openPosition (.running "short" "pool" 2 3) 90 (.lasting .cliff 0 25) false, .setClock 30,
    .process "brief", .process "brief", .setClock 40, .closePosition "short" 45]

namespace Chronicle

/-- In the end the pool holds 800 of the one that runs on, and 700 of the one that was purged. -/
theorem after_balanced_lateHistory :
    storePartners.registrar.lockups = .stored ∧ storePartners.policy.bypassExpiry = false ∧
      FairRun ⟨start {} storePartners, {}⟩ lateHistory ∧
      (course (start {} storePartners) lateHistory).map (·.answer.toOption.isSome) =
        [true, true, true, true, true, true, true, false, true, true] ∧
      (booksAfter (start {} storePartners) lateHistory).store.pool? "pool" =
        .ok (some ⟨.capped (800 + 700), .capped 5, 40⟩) ∧
      ∃ positions, (booksAfter (start {} storePartners) lateHistory).store.Balanced
        (after ⟨start {} storePartners, {}⟩ lateHistory).openings positions :=
  ⟨rfl, rfl, by decide +kernel, by decide +kernel, by decide +kernel,
    after_balanced storePartners rfl rfl lateHistory (by decide +kernel)⟩

end Chronicle

end Session

end StakeLedger
