import StakeLedger.Proofs.Growth
import StakeLedger.Proofs.WriteSets

/-
  The calls of a run that process or close a position, those inside its sweeps among them.
  A call changes a ledger by one ending or not at all (`Call.Acts`), and all else that happens in
  a run puts up no flag of finalization, so the run is a `Trace` of its calls. Along a trace the
  flag of a position at the beginning and the calls that put it up make the flag at the end
  (`Trace.count`): each position that is finalized has been so by one call.
-/

namespace StakeLedger

/-! ## What stores show of a finalization -/

/-- Is a position stored, with its flag of finalization up? -/
def Store.finalized (s : Store) (id : String) : Bool :=
  (s.positions.get? id).any (·.finalized.flag)

/-- The rate of a pool, if one is stored. -/
def Store.rate? (s : Store) (id : String) : Except Fault (Option Amount) :=
  (s.pool? id).map fun found => found.map (·.rate)

namespace Ledger

variable {g g' : Ledger} {id : String} {p q : Position}

/-- Is there a position of an id, and is it finalized? -/
def finalized (g : Ledger) (id : String) : Bool :=
  (g.positions.get? id).any (·.phase.isFinalized)

theorem finalized_store (g : Ledger) (id : String) : g.store.finalized id = g.finalized id := by
  unfold Store.finalized finalized
  rw [get?_positions_store]
  cases g.positions.get? id with
  | none => rfl
  | some p => exact Cell.flag_ofFlag p.phase.isFinalized

theorem rate?_store (g : Ledger) (id : String) :
    g.store.rate? id = .ok ((g.pools.get? id).map (·.rate)) := by
  unfold Store.rate?
  rw [pool?_store]
  rfl

theorem Grows.finalized (h : g.Grows g') (hid : g.finalized id = true) :
    g'.finalized id = true := by
  unfold Ledger.finalized at hid ⊢
  cases hp : g.positions.get? id with
  | none => simp [hp] at hid
  | some p =>
    obtain ⟨p', hp', hprecedes⟩ := h.positions id p hp
    rw [hp] at hid
    rw [hp']
    exact hprecedes.finalized hid

/-- The flags after an ending. -/
theorem finalized_ended (h : Posting.Ending g p q g') (id : String) :
    g'.finalized id = if id = q.id then true else g.finalized id := by
  obtain ⟨time, delta, hexchange, -⟩ := h.exchange
  unfold finalized
  rw [positions_exchange hexchange]
  split
  · rw [Option.any_some, ← Bool.not_eq_false, Phase.isFinalized_eq_false_iff]
    exact h.not_running
  · rfl

theorem finalized_of_same (h : g'.positions = g.positions) (id : String) :
    g'.finalized id = g.finalized id := by
  rw [finalized, h, finalized]

theorem positions_created {asOf : Int} :
    ((Posting.createPool id asOf).after g).positions = g.positions := by
  refine Posting.keeps (P := fun g' => g'.positions = g.positions) rfl fun pool g' hrun => ?_
  obtain ⟨-, rfl⟩ := Posting.run_createPool_ok hrun
  rfl

theorem positions_rolled {time : Int} :
    ((Posting.rollForward id time).after g).positions = g.positions := by
  refine Posting.keeps (P := fun g' => g'.positions = g.positions) rfl fun pool g' hrun => ?_
  obtain ⟨-, -, -, rfl⟩ := Posting.run_rollForward_ok hrun
  rfl

theorem positions_lockupStored {index : Int} {l : Lockup} :
    ((Posting.saveLockup id index l).after g).positions = g.positions := by
  refine Posting.keeps (P := fun g' => g'.positions = g.positions) rfl fun _ g' hrun => ?_
  obtain ⟨-, rfl⟩ := Posting.run_saveLockup_ok_iff.mp hrun
  rfl

/-- Opening a running position puts up no flag. -/
theorem finalized_opened {time amount : Int} {l : Lockup} (hphase : p.phase = .running)
    (id : String) :
    ((Posting.openPosition time p amount l).after g).finalized id = g.finalized id := by
  refine Posting.keeps (P := fun g' => g'.finalized id = g.finalized id) rfl fun pool g' hrun => ?_
  obtain ⟨hnone, hexchange, -⟩ := Posting.exchange_of_open hrun
  rw [finalized, positions_exchange hexchange]
  split
  · next hid =>
    rw [finalized, hid, hnone, Option.any_some, hphase]
    rfl
  · rfl

/-- The rates after an ending. -/
theorem pools_ended (h : Posting.Ending g p q g') :
    ∃ before changed, g.pools.get? q.pool = some before ∧ g'.pools.get? q.pool = some changed ∧
      changed.rate.val = before.rate.val - p.runningRate ∧
      ∀ id, id ≠ q.pool → g'.pools.get? id = g.pools.get? id := by
  obtain ⟨time, delta, hexchange, hdelta⟩ := h.exchange
  obtain ⟨before, changed, hbefore, hchanged, hpools⟩ := pools_exchange hexchange
  obtain ⟨-, -, -, hrate, -, -⟩ := Pool.applyDelta_eq_ok_iff.mp hchanged
  refine ⟨before, changed, hbefore, by rw [hpools, if_pos rfl], by omega, fun id hid => ?_⟩
  rw [hpools, if_neg hid]

end Ledger

/-! ## Calls -/

/-- A call that processes or closes a position, with the store before it and after it. -/
structure Call where
  position : String
  succeeded : Bool
  before : Store
  after : Store

namespace Call

/-- The call of a service about a position, from some books. -/
def of {α : Type} (position : String) (service : Service α) (books : Books Partners) : Call where
  position := position
  succeeded := (service.runOn books).1.isOk
  before := books.store
  after := (service.runOn books).2.store

/-- Is it the call at which the position's flag of finalization goes up? -/
def finalizes (c : Call) : Bool :=
  !c.before.finalized c.position && c.after.finalized c.position

/-- A call from one ledger to another: it does nothing, or it succeeds and is an ending of its
position. -/
structure Acts (c : Call) (g g' : Ledger) : Prop where
  before_eq : c.before = g.store
  after_eq : c.after = g'.store
  effect : g' = g ∨ c.succeeded = true ∧ ∃ p q, Posting.Ending g p q g' ∧ q.id = c.position

namespace Acts

variable {c : Call} {g g' : Ledger}

theorem grows (h : c.Acts g g') : g.Grows g' := by
  rcases h.effect with rfl | ⟨-, p, q, hending, -⟩
  · exact .refl _
  · exact .ended hending

theorem finalizes_eq (h : c.Acts g g') :
    c.finalizes = (!g.finalized c.position && g'.finalized c.position) := by
  rw [finalizes, h.before_eq, h.after_eq, Ledger.finalized_store, Ledger.finalized_store]

/-- The flag of a position before a call, and the call if it puts it up, make the flag after
it. -/
theorem count (h : c.Acts g g') (id : String) :
    (if c.position = id ∧ c.finalizes = true then 1 else 0) + (g.finalized id).toNat =
      (g'.finalized id).toNat := by
  by_cases hid : c.position = id
  · subst hid
    rw [h.finalizes_eq]
    have hgrows : g.finalized c.position = true → g'.finalized c.position = true :=
      h.grows.finalized
    cases hbefore : g.finalized c.position with
    | false => cases g'.finalized c.position <;> simp
    | true => rw [hgrows hbefore]; simp
  · rw [if_neg fun hboth => hid hboth.1, zero_add]
    rcases h.effect with rfl | ⟨-, p, q, hending, hq⟩
    · rfl
    · rw [Ledger.finalized_ended hending, if_neg (by rw [hq]; exact Ne.symm hid)]

/-- A call that puts the flag up succeeds, and the rate of the position goes from that of its
pool. -/
theorem of_finalizes (h : c.Acts g g') (hc : c.finalizes = true) :
    c.succeeded = true ∧ ∃ p before changed, g.positions.get? c.position = some p ∧
      g.pools.get? p.pool = some before ∧ g'.pools.get? p.pool = some changed ∧
      changed.rate.val = before.rate.val - p.rate.val := by
  rw [h.finalizes_eq, Bool.and_eq_true, Bool.not_eq_true'] at hc
  obtain ⟨hrunning, hfinal⟩ := hc
  rcases h.effect with rfl | ⟨hsucceeded, p, q, hending, hq⟩
  · rw [hrunning] at hfinal
    cases hfinal
  have hp : g.positions.get? c.position = some p := by rw [← hq, hending.found]
  have hphase : p.phase = .running := by
    rw [Ledger.finalized, hp] at hrunning
    exact Phase.isFinalized_eq_false_iff.mp hrunning
  obtain ⟨before, changed, hbefore, hchanged, hrate, -⟩ := Ledger.pools_ended hending
  rw [hending.precedes.pool_eq] at hbefore hchanged
  rw [Position.runningRate, if_pos hphase] at hrate
  exact ⟨hsucceeded, p, before, changed, hp, hbefore, hchanged, hrate⟩

/-- Every other call leaves the rates of all pools. -/
theorem of_not_finalizes (h : c.Acts g g') (hc : c.finalizes = false) (id : String) :
    (g'.pools.get? id).map (·.rate) = (g.pools.get? id).map (·.rate) := by
  rcases h.effect with rfl | ⟨-, p, q, hending, hq⟩
  · rfl
  have hphase : p.phase ≠ .running := by
    intro hphase
    have hrunning : g.finalized c.position = false := by
      rw [Ledger.finalized, ← hq, hending.found]
      exact Phase.isFinalized_eq_false_iff.mpr hphase
    rw [h.finalizes_eq, hrunning, Ledger.finalized_ended hending, if_pos hq.symm] at hc
    cases hc
  obtain ⟨before, changed, hbefore, hchanged, hrate, hother⟩ := Ledger.pools_ended hending
  rw [Position.runningRate, if_neg hphase, sub_zero] at hrate
  by_cases hid : id = q.pool
  · rw [hid, hbefore, hchanged, Option.map_some, Option.map_some, Amount.ext hrate]
  · rw [hother id hid]

end Acts

end Call

/-- From one ledger to another by calls, in their order, with growth between them that leaves
the flags of finalization alone. -/
inductive Trace : Ledger → List Call → Ledger → Prop
  | nil (g : Ledger) : Trace g [] g
  | quiet {g g₁ g' : Ledger} {calls : List Call} (hgrows : g.Grows g₁)
    (hflags : ∀ id, g₁.finalized id = g.finalized id) (rest : Trace g₁ calls g') :
    Trace g calls g'
  | call {g g₁ g' : Ledger} {c : Call} {calls : List Call} (hacts : c.Acts g g₁)
    (rest : Trace g₁ calls g') : Trace g (c :: calls) g'

namespace Trace

variable {g g₁ g' : Ledger} {calls more : List Call}

theorem append (h : Trace g calls g₁) (h' : Trace g₁ more g') : Trace g (calls ++ more) g' := by
  induction h with
  | nil => exact h'
  | quiet hgrows hflags _ ih => exact .quiet hgrows hflags (ih h')
  | call hacts _ ih => exact .call hacts (ih h')

theorem grows (h : Trace g calls g') : g.Grows g' := by
  induction h with
  | nil => exact .refl _
  | quiet hgrows _ _ ih => exact hgrows.trans ih
  | call hacts _ ih => exact hacts.grows.trans ih

/-- The flag of a position at the beginning and the calls that put it up make the flag at the
end. -/
theorem count (h : Trace g calls g') (id : String) :
    (calls.countP fun c => c.position = id ∧ c.finalizes = true) + (g.finalized id).toNat =
      (g'.finalized id).toNat := by
  -- the calls still to come account for the rest of the way, from the flag after the first one
  induction h with
  | nil => simp
  | quiet _ hflags _ ih => rw [← ih, hflags]
  | call hacts _ ih =>
    have hstep := hacts.count id
    rw [List.countP_cons]
    simp only [decide_eq_true_eq]
    omega

theorem acts_of_mem (h : Trace g calls g') {c : Call} (hc : c ∈ calls) :
    ∃ g₁ g₂, c.Acts g₁ g₂ ∧ g₂.Grows g' := by
  induction h with
  | nil => cases hc
  | quiet _ _ _ ih => exact ih hc
  | call hacts hrest ih =>
    rcases List.mem_cons.mp hc with rfl | hmem
    · exact ⟨_, _, hacts, hrest.grows⟩
    · exact ih hmem

end Trace

/-! ## The calls of a session -/

namespace Session

open Service Work

/-- The calls of a sweep through some ids: one each, up to a fault that ends the sweep. -/
def sweepCalls (books : Books Partners) : List String → List Call
  | [] => []
  | id :: rest =>
    .of id (process id) books ::
      match (processSafely id).runOn books with
      | (.ok _, after) => sweepCalls after rest
      | (.error _, _) => []

/-- The calls of a step that process or close a position. -/
def Step.calls (books : Books Partners) : Step → List Call
  | .closePosition id amount => [.of id (Service.closePosition id amount) books]
  | .process id => [.of id (Service.process id) books]
  | .sweep pool =>
    match (listed pool).runOn books with
    | (.ok ids, after) => sweepCalls after ids
    | (.error _, _) => []
  | _ => []

/-- The calls of steps that follow one another. -/
def calls (books : Books Partners) : List Step → List Call
  | [] => []
  | s :: rest => s.calls (fresh books) ++ calls (step books s).books rest

variable {books : Books Partners} {g g' : Ledger} {id : String}

theorem acts_of_close (hstore : books.store = g.store) (id : String) (amount : Int) :
    ∃ g', (Call.of id (closePosition id amount) books).Acts g g' := by
  obtain ⟨log, hrun⟩ := performs_closePosition id amount books g rfl hstore
  refine ⟨_, hstore, congrArg (·.2.store) hrun, ?_⟩
  cases hresult : (Posting.closePosition books.outside.registrar id amount).result g with
  | error fault => exact Or.inl (Posting.after_of_error hresult)
  | ok pool =>
    refine Or.inr ⟨?_, Posting.ending_of_close (Posting.run_of_result hresult)⟩
    show ((closePosition id amount).runOn books).1.isOk = true
    rw [hrun, hresult]
    rfl

theorem offStore_conclude (id : String) (r : Position × Purge.Decision) :
    OffStore (conclude id r) := by
  obtain ⟨p, _ | _⟩ := r
  · exact (offStore_move _ _).bind fun _ => (readsOnly_pure _).offStore
  · exact (readsOnly_pure _).offStore

theorem acts_of_process (hstore : books.store = g.store) (id : String) :
    ∃ g', (Call.of id (process id) books).Acts g g' := by
  have hwhole := allOrNothing_process id books
  rcases hrun : (process id).runOn books with ⟨result, after⟩
  rw [hrun] at hwhole
  cases result with
  | error fault =>
    -- it may have failed at the scheduler, after its unit of work, but then it has put nothing
    refine ⟨g, hstore, ?_, Or.inl rfl⟩
    show ((process id).runOn books).2.store = g.store
    rw [hrun, hwhole.1, hstore]
  | ok r =>
    obtain ⟨d, mid, hmid, hconclude⟩ := runOn_bind_ok_iff.mp (process_eq id ▸ hrun)
    obtain ⟨log, hjudge⟩ := performs_judge id books g rfl hstore
    obtain ⟨hresult, rfl⟩ := Prod.mk.inj (hmid.symm.trans hjudge)
    have hending := Posting.ending_of_process (Posting.run_of_result hresult.symm)
    have hok : (Call.of id (process id) books).succeeded = true := by
      show ((process id).runOn books).1.isOk = true
      rw [hrun]
      rfl
    refine ⟨_, hstore, ?_, hending.imp_right fun hending => ⟨hok, hending⟩⟩
    show ((process id).runOn books).2.store = _
    rw [hrun]
    exact (offStore_conclude id d).of_runOn hconclude

/-- Whether a fault becomes a result or not is nothing to the store. -/
theorem store_processSafely (books : Books Partners) (id : String) :
    ((processSafely id).runOn books).2.store = ((process id).runOn books).2.store := by
  unfold processSafely
  rw [runOn_tryCatch]
  rcases (process id).runOn books with ⟨result, after⟩
  cases result with
  | ok r => rfl
  | error fault =>
    dsimp only
    cases fault.code? with
    | none => rfl
    | some code => rfl

theorem exists_trace_sweepCalls (hstore : books.store = g.store) (ids : List String) :
    ∃ g', ((ids.mapM processSafely).runOn books).2.store = g'.store ∧
      Trace g (sweepCalls books ids) g' := by
  induction ids generalizing books g with
  | nil => exact ⟨g, hstore, .nil g⟩
  | cons id rest ih =>
    obtain ⟨g₁, hacts⟩ := acts_of_process hstore id
    have hstore₁ : ((processSafely id).runOn books).2.store = g₁.store :=
      (store_processSafely books id).trans hacts.after_eq
    rw [List.mapM_cons, runOn_bind, sweepCalls]
    rcases hrun : (processSafely id).runOn books with ⟨result, after⟩
    rw [hrun] at hstore₁
    cases result with
    | error fault => exact ⟨g₁, hstore₁, .call hacts (.nil g₁)⟩
    | ok r =>
      obtain ⟨g', hstore', htrace⟩ := ih hstore₁
      refine ⟨g', ?_, .call hacts htrace⟩
      dsimp only
      rw [runOn_bind_pure]
      exact hstore'

theorem readsOnly_listed (pool : String) : ReadsOnly (listed pool) := by
  refine ReadsOnly.unit ((readsOnly_loadPool pool).bind fun _ => ?_)
  exact (readsOnly_readStore _).bind fun found => readsOnly_pure _

theorem exists_trace_sweep (hstore : books.store = g.store) (pool : String) :
    ∃ g', ((sweep pool).runOn books).2.store = g'.store ∧
      Trace g ((Step.sweep pool).calls books) g' := by
  rw [sweep_eq, runOn_bind, Step.calls]
  rcases hrun : (listed pool).runOn books with ⟨result, mid⟩
  have hmid : mid.store = g.store := ((readsOnly_listed pool).of_runOn hrun).1.trans hstore
  cases result with
  | error fault => exact ⟨g, hmid, .nil g⟩
  | ok ids => exact exists_trace_sweepCalls hmid ids

/-- A step that opens nothing but running positions is a trace of its calls. -/
theorem exists_trace_step {s : Step} (hs : s.OpensRunning) (hstore : books.store = g.store) :
    ∃ g', (step books s).books.store = g'.store ∧ Trace g (s.calls (fresh books)) g' := by
  obtain ⟨g', hlands⟩ := exists_lands hstore s
  have hposted := hlands.posted
  have hfresh : (fresh books).store = g.store := hstore
  have hstep : ∀ {α : Type} {service : Service α} {tell : α → Answer},
      s.run = (service >>= fun a => pure (tell a)) →
        (step books s).books.store = (service.runOn (fresh books)).2.store :=
    fun hrun => congrArg (·.books.store) (step_eq hrun)
  have hquiet : (∀ id, g'.finalized id = g.finalized id) →
      ∃ g', (step books s).books.store = g'.store ∧ Trace g [] g' := fun hflags =>
    ⟨g', hlands.store_eq, .quiet (grows_of_lands hlands) hflags (.nil g')⟩
  cases s with
  | closePosition id amount =>
    obtain ⟨g', hacts⟩ := acts_of_close hfresh id amount
    exact ⟨g', (hstep rfl).trans hacts.after_eq, .call hacts (.nil g')⟩
  | process id =>
    obtain ⟨g', hacts⟩ := acts_of_process hfresh id
    exact ⟨g', (hstep rfl).trans hacts.after_eq, .call hacts (.nil g')⟩
  | sweep pool =>
    obtain ⟨g', hstore', htrace⟩ := exists_trace_sweep hfresh pool
    exact ⟨g', (hstep rfl).trans hstore', htrace⟩
  | setClock | advanceClock | readClock | registerLockup | fail =>
    exact hquiet (Ledger.finalized_of_same (congrArg _ hposted))
  | findLockup position index =>
    exact hquiet (Ledger.finalized_of_same (by rw [hposted.2, Posting.looks_findLockup _ _ _ g]))
  | poolStatus id =>
    exact hquiet (Ledger.finalized_of_same (by rw [hposted.2, Posting.looks_status _ _ g]))
  | storeLockup position index l =>
    exact hquiet (Ledger.finalized_of_same (hposted.2 ▸ Ledger.positions_lockupStored))
  | createPool id time =>
    exact hquiet (Ledger.finalized_of_same (hposted.2 ▸ Ledger.positions_created))
  | rollForward id =>
    exact hquiet (Ledger.finalized_of_same (hposted.2 ▸ Ledger.positions_rolled))
  | openPosition p amount l registered => exact hquiet (hposted.2 ▸ Ledger.finalized_opened hs)

theorem exists_trace {steps : List Step} (hsteps : ∀ s ∈ steps, s.OpensRunning)
    (hstore : books.store = g.store) :
    ∃ g', (booksAfter books steps).store = g'.store ∧ Trace g (calls books steps) g' := by
  induction steps generalizing books g with
  | nil => exact ⟨g, hstore, .nil g⟩
  | cons s rest ih =>
    obtain ⟨hs, hrest⟩ := List.forall_mem_cons.mp hsteps
    obtain ⟨g₁, hstore₁, htrace₁⟩ := exists_trace_step hs hstore
    obtain ⟨g', hstore', htrace⟩ := ih hrest hstore₁
    exact ⟨g', hstore', htrace₁.append htrace⟩

/-- Every session that starts on an empty store and opens running positions only goes forward,
and finalizes each position once. Whatever comes first in it, and whichever steps fail, every
pool and every position stored by then is stored at the end, in no earlier state; and so it is
from call to call, inside of sweeps as well. Of a position that is finalized at the end exactly
one call has put up the flag, and of one that is not no call has; that call succeeded and took
the position's rate from the pool, and no other call about the position has changed the rate of
its pool. -/
theorem grows_finalizing_once (partners : Partners) (steps : List Step)
    (hsteps : ∀ s ∈ steps, s.OpensRunning) :
    (∀ first second, steps = first ++ second →
      (booksAfter (start {} partners) first).store.Grows
        (booksAfter (start {} partners) steps).store) ∧
    (∀ c ∈ calls (start {} partners) steps, c.before.Grows c.after ∧
      c.after.Grows (booksAfter (start {} partners) steps).store) ∧
    ∀ id p, (booksAfter (start {} partners) steps).store.position? id = .ok (some p) →
      ((calls (start {} partners) steps).countP fun c => c.position = id ∧ c.finalizes = true) =
          p.phase.isFinalized.toNat ∧
        ∀ c ∈ calls (start {} partners) steps, c.position = id →
          if c.finalizes then
            c.succeeded = true ∧ ∃ old new, c.before.rate? p.pool = .ok (some old) ∧
              c.after.rate? p.pool = .ok (some new) ∧ new.val = old.val - p.rate.val
          else c.after.rate? p.pool = c.before.rate? p.pool := by
  have hempty : (start {} partners).store = Ledger.store {} := (start_eq {} partners).1
  obtain ⟨g', hstore', htrace⟩ := exists_trace hsteps hempty
  refine ⟨fun first second hsplit => ?_, fun c hc => ?_, fun id p hp => ?_⟩
  · subst hsplit
    obtain ⟨g₁, hstore₁, -⟩ := exists_grows hempty first
    obtain ⟨g₂, hstore₂, hgrows⟩ := exists_grows hstore₁ second
    rw [booksAfter_append, hstore₁, hstore₂]
    exact hgrows.store
  · obtain ⟨g₁, g₂, hacts, hgrows⟩ := htrace.acts_of_mem hc
    rw [hacts.before_eq, hacts.after_eq, hstore']
    exact ⟨hacts.grows.store, hgrows.store⟩
  · have hfound : g'.positions.get? id = some p := by
      rw [hstore', Ledger.position?_store] at hp
      exact Except.ok.inj hp
    have hflag : g'.finalized id = p.phase.isFinalized := by rw [Ledger.finalized, hfound]; rfl
    refine ⟨?_, fun c hc hid => ?_⟩
    · rw [← hflag, ← htrace.count id]
      rfl
    obtain ⟨g₁, g₂, hacts, hgrows⟩ := htrace.acts_of_mem hc
    rw [hacts.before_eq, hacts.after_eq]
    simp only [Ledger.rate?_store]
    split
    · next hfinalizes =>
      obtain ⟨hsucceeded, q, before, changed, hq, hbefore, hchanged, hrate⟩ :=
        hacts.of_finalizes hfinalizes
      -- the position of the call is an earlier state of the one at the end
      obtain ⟨p', hp', hprecedes⟩ := (hacts.grows.trans hgrows).positions c.position q hq
      rw [hid, hfound] at hp'
      cases hp'
      rw [hprecedes.pool_eq, hprecedes.rate_eq, hbefore, hchanged]
      exact ⟨hsucceeded, _, _, rfl, rfl, hrate⟩
    · next hfinalizes =>
      rw [hacts.of_not_finalizes (Bool.eq_false_iff.mpr hfinalizes)]

/-- Two positions, of which a sweep finalizes the one that has expired; both are closed later,
that one after another purge of it, and the pool is swept again with the clock set back. -/
def sweptAndClosed : List Step :=
  [.createPool "pool" (some 0),
    .openPosition (.running "steady" "pool" 0 5) 1000 (.lasting .cliff 0 100) true,
    .openPosition (.running "brief" "pool" 1 10) 900 (.lasting .cliff 0 20) true, .setClock 30,
    .sweep "pool", .process "brief", .closePosition "brief" 700, .setClock 60,
    .closePosition "steady" 700, .setClock 50, .sweep "pool", .closePosition "steady" 0]

/-- The sweep's call takes the rate of the position that has expired, its closing takes none, and
the closing of the other position takes that one's. -/
theorem grows_finalizing_once_sweptAndClosed :
    (∀ s ∈ sweptAndClosed, s.OpensRunning) ∧
      ((calls (start {} partnersAtZero) sweptAndClosed).map fun c =>
        (c.position, c.succeeded, c.finalizes)) =
        [("brief", true, true), ("steady", true, false), ("brief", false, false),
          ("brief", true, false), ("steady", true, true), ("steady", false, false)] ∧
      (booksAfter (start {} partnersAtZero) (sweptAndClosed.take 5)).store.Grows
        (booksAfter (start {} partnersAtZero) sweptAndClosed).store ∧
      ∃ p, (booksAfter (start {} partnersAtZero) sweptAndClosed).store.position? "brief" =
          .ok (some p) ∧
        ((calls (start {} partnersAtZero) sweptAndClosed).countP fun c =>
          c.position = "brief" ∧ c.finalizes = true) = p.phase.isFinalized.toNat := by
  have hopens : ∀ s ∈ sweptAndClosed, s.OpensRunning := by decide
  obtain ⟨hgrows, -, honce⟩ := grows_finalizing_once partnersAtZero sweptAndClosed hopens
  have hbrief : (booksAfter (start {} partnersAtZero) sweptAndClosed).store.position? "brief" =
      .ok (some { Position.running "brief" "pool" 1 10 with phase := .closed }) := by
    decide +kernel
  exact ⟨hopens, by decide +kernel,
    hgrows _ (sweptAndClosed.drop 5) (List.take_append_drop 5 sweptAndClosed).symm,
    _, hbrief, (honce "brief" _ hbrief).1⟩

end Session

end StakeLedger
