import StakeLedger.Proofs.SweepTwice
import StakeLedger.Proofs.Times

/-
  What a sweep covers.
  A sweep has one result for each open position of its pool, and touches nothing else, as long as
  what it would restore to each of them can be shown in a message. An amount of too many digits
  is the one thing that no sweep reports: the fault that tells of it is none of the staking
  domain, so it ends the sweep (`told_cases`). All other causes of failure are reported: for them
  it is needed that the clock, and the times of the pools (`Ledger.Timed`), fit their columns.
-/

namespace StakeLedger

namespace Purge

/-- What a purge of a position gives back can be shown in a message. -/
def Showable (p : Position) (l : Lockup) (now : Int) : Prop :=
  Text.fitsNumeral (p.rate.val * l.secondsSinceExpiry now) = true

instance (p : Position) (l : Lockup) (now : Int) : Decidable (Showable p l now) :=
  inferInstanceAs (Decidable (_ = true))

variable {policy : Policy} {p : Position} {a : Pool} {l : Lockup} {now : Int} {fault : Fault}

/-- Where the amount given back can be shown, it is refused with a fault of the staking domain. -/
theorem code?_of_expiredDelta (hshow : Showable p l now)
    (h : expiredDelta p l.view now = .error fault) : fault.code? = some .arithmetic := by
  unfold expiredDelta at h
  cases hproduct : Amount.product "expired_decay" p.rate.val (l.view.secondsSinceExpiry now) with
  | ok restored =>
    rw [hproduct] at h
    cases h
  | error fault' =>
    rw [hproduct] at h
    cases h
    rw [Amount.error_of_check hproduct, Fault.code?_outOfRange]
    exact if_pos hshow

/-- So a decision fails with a fault of the staking domain, and not for being made again. -/
theorem code?_of_decision (hphase : p.phase = .running) (hasOf : Cell.fits a.asOf = true)
    (hnow : Cell.fits now = true) (hshow : Showable p l now)
    (h : decision policy p a l.view now = .error fault) :
    ∃ code, fault.code? = some code ∧ code ≠ .alreadyFinalized := by
  rw [decision_of_running hphase] at h
  split at h
  · unfold OneShot.build at h
    dsimp only at h
    split at h
    · cases h
    · cases h
      exact ⟨.schedule, rfl, by decide⟩
  · rcases bind_eq_error_iff.mp h with hdelta | ⟨delta, hdelta, hchange⟩
    · exact ⟨.arithmetic, code?_of_expiredDelta hshow hdelta, by decide⟩
    · cases ha : a.applyDelta now delta with
      | ok changed =>
        rw [ha] at hchange
        cases hchange
      | error fault' =>
        rw [ha] at hchange
        cases hchange
        exact ⟨.arithmetic,
          Pool.code?_of_applyDelta_of_fits hasOf hnow (purges_expiredDelta hdelta) ha, by decide⟩

/-- An amount that cannot be shown stops the decision, and the fault is none of the staking
domain. -/
theorem decision_of_unshowable (policy : Policy) (a : Pool) (hphase : p.phase = .running)
    (hshow : ¬Showable p l now) :
    decision policy p a l.view now =
        .error (.outOfRange "expired_decay" (p.rate.val * l.secondsSinceExpiry now)) ∧
      (Fault.outOfRange "expired_decay" (p.rate.val * l.secondsSinceExpiry now)).code? = none := by
  have hlarge : amountMax < p.rate.val * l.secondsSinceExpiry now ∨
      p.rate.val * l.secondsSinceExpiry now < 0 := by
    by_contra hsmall
    rw [not_or] at hsmall
    refine hshow (Text.fitsNumeral_of_lt ?_)
    simp only [amountMax] at hsmall
    omega
  have hexpired : l.isExpired now = true := by
    by_contra hrunning
    refine hshow ?_
    unfold Showable
    rw [Lockup.secondsSinceExpiry_of_running (Bool.eq_false_iff.mpr hrunning), mul_zero]
    exact Text.fitsNumeral_of_lt (by decide)
  have hdelta : expiredDelta p l.view now =
      .error (.outOfRange "expired_decay" (p.rate.val * l.secondsSinceExpiry now)) := by
    have hproduct : Amount.check "expired_decay" (p.rate.val * l.secondsSinceExpiry now) =
        .error _ := Amount.check_eq_error hlarge.symm
    unfold expiredDelta Amount.product
    show (Amount.check "expired_decay" (p.rate.val * l.secondsSinceExpiry now)).map _ = _
    rw [hproduct]
    rfl
  refine ⟨?_, ?_⟩
  · have hopen : ¬(!policy.bypassExpiry && !l.view.isExpired now) = true := by
      show ¬(!policy.bypassExpiry && !l.isExpired now) = true
      rw [hexpired]
      simp
    rw [decision_of_running hphase, if_neg hopen, hdelta]
    rfl
  · rw [Fault.code?_outOfRange]
    exact if_neg hshow

/-- A decision is told of where the amount given back can be shown. -/
theorem told_of_showable (policy : Policy) (hphase : p.phase = .running)
    (hasOf : Cell.fits a.asOf = true) (hnow : Cell.fits now = true) (hshow : Showable p l now) :
    ∃ outcome, told (decision policy p a l.view now >>= fun d => d.stored.map fun d => (p, d)) =
      .ok outcome ∧ outcome ≠ .failed .alreadyFinalized := by
  cases hdecision : decision policy p a l.view now with
  | error fault =>
    obtain ⟨code, hcode, hne⟩ := code?_of_decision hphase hasOf hnow hshow hdecision
    exact ⟨.failed code, told_error_of_code hcode, fun h => hne (Outcome.failed.inj h)⟩
  | ok d =>
    cases d with
    | reschedule r => exact ⟨.rescheduled r, rfl, nofun⟩
    | finalize f =>
      obtain ⟨-, -, -, hchanged, -, -⟩ := decision_eq_finalize_iff.mp hdecision
      obtain ⟨-, -, -, -, -, htime⟩ := Pool.applyDelta_eq_ok_iff.mp hchanged
      exact ⟨.finalized f.pool, told_of_finalize p (by rw [htime]; exact hnow), nofun⟩

/-- And it is not where the amount cannot be shown. -/
theorem told_of_unshowable (policy : Policy) (a : Pool) (hphase : p.phase = .running)
    (hshow : ¬Showable p l now) :
    told (decision policy p a l.view now >>= fun d => d.stored.map fun d => (p, d)) =
      .error (.outOfRange "expired_decay" (p.rate.val * l.secondsSinceExpiry now)) := by
  obtain ⟨hdecision, hcode⟩ := decision_of_unshowable policy a hphase hshow
  rw [hdecision]
  exact told_error_of_none hcode

end Purge

/-! ## Visits and rounds -/

namespace Ledger

variable {g g' : Ledger} {registrar : Registrar} {id : String}

/-- A position of a ledger with the lockup that the registrar finds for it, of which a purge
gives back an amount that cannot be shown. -/
def Hides (g : Ledger) (registrar : Registrar) (id : String) (p : Position) (l : Lockup) : Prop :=
  g.positions.get? id = some p ∧ registrar.find? g.store id p.index = .ok (some l) ∧
    ¬Purge.Showable p l registrar.clock.now

theorem hides_congr (hlockups : g'.lockups = g.lockups)
    (hsame : g'.positions.get? id = g.positions.get? id) {p : Position} {l : Lockup} :
    g'.Hides registrar id p l ↔ g.Hides registrar id p l := by
  unfold Hides
  rw [hsame, Posting.find?_store_congr registrar hlockups]

/-- Of a position that is stored, with what the registrar finds for it, an amount is hidden only
if a lockup is found for it and the amount cannot be shown. -/
theorem hides_iff_of_found {p q : Position} {l : Lockup} {found : Option Lockup}
    (hp : g.positions.get? id = some p)
    (hfind : registrar.find? g.store id p.index = .ok found) :
    g.Hides registrar id q l ↔
      q = p ∧ found = some l ∧ ¬Purge.Showable p l registrar.clock.now := by
  constructor
  · rintro ⟨hq, hl, hshow⟩
    cases Option.some.inj (hp.symm.trans hq)
    exact ⟨rfl, Except.ok.inj (hfind.symm.trans hl), hshow⟩
  · rintro ⟨rfl, rfl, hshow⟩
    exact ⟨hp, hfind, hshow⟩

end Ledger

namespace Posting

variable {registrar : Registrar} {g : Ledger} {pool id : String} {p : Position} {a : Pool}
  {l : Lockup}

/-- The lockup of a position is looked up without a fault. -/
theorem exists_find? (registrar : Registrar) (g : Ledger) (id : String) (p : Position) :
    ∃ found, registrar.find? g.store id p.index = .ok found := by
  unfold Registrar.find?
  split
  · exact ⟨_, rfl⟩
  · rw [g.lockup?_store, Ledger.lockup?, Cell.ofInt, if_pos p.fits_index]
    exact ⟨_, rfl⟩

/-- A visit to a running position of which no lockup is known tells so. -/
theorem told_of_unknown (policy : Purge.Policy) (hp : g.positions.get? id = some p)
    (hphase : p.phase = .running) (hfind : registrar.find? g.store id p.index = .ok none) :
    Purge.told ((process registrar policy id).result g) = .ok (.failed .lockupNotFound) := by
  rw [result_process hp hphase, result_findLockup, hfind]
  exact Purge.told_error_of_code rfl

/-- A visit to a running position whose lockup is known tells its decision. -/
theorem told_of_known (policy : Purge.Policy) (hp : g.positions.get? id = some p)
    (hphase : p.phase = .running) (ha : g.pools.get? p.pool = some a)
    (hfind : registrar.find? g.store id p.index = .ok (some l)) :
    Purge.told ((process registrar policy id).result g) =
      Purge.told (Purge.decision policy p a l.view registrar.clock.now >>= fun d =>
        d.stored.map fun d => (p, d)) := by
  have hload : (loadPool p.pool).result g = .ok a :=
    result_of_run (run_loadPool_ok_iff.mpr ⟨ha, rfl⟩)
  rw [result_process hp hphase, result_findLockup, hfind, hload]
  rfl

/-- A visit to an open position is told of, unless what it would give back cannot be shown. -/
theorem told_cases (policy : Purge.Policy) (hopen : g.Open pool id)
    (hpool : g.pools.get? pool ≠ none) (htimed : g.Timed)
    (hclock : Cell.fits registrar.clock.now = true) :
    (∃ outcome, Purge.told ((process registrar policy id).result g) = .ok outcome ∧
      outcome ≠ .failed .alreadyFinalized ∧ ∀ p l, ¬g.Hides registrar id p l) ∨
    ∃ p l, g.Hides registrar id p l ∧
      Purge.told ((process registrar policy id).result g) = .error
        (.outOfRange "expired_decay" (p.rate.val * l.secondsSinceExpiry registrar.clock.now)) := by
  obtain ⟨p, hp, rfl, hphase⟩ := hopen
  obtain ⟨a, ha⟩ := Option.ne_none_iff_exists'.mp hpool
  obtain ⟨found, hfind⟩ := exists_find? registrar g id p
  have hhides := fun q l => Ledger.hides_iff_of_found (q := q) (l := l) hp hfind
  cases found with
  | none =>
    refine Or.inl ⟨_, told_of_unknown policy hp hphase hfind, by decide, fun q l h => ?_⟩
    cases ((hhides q l).mp h).2.1
  | some l =>
    rw [told_of_known policy hp hphase ha hfind]
    by_cases hshow : Purge.Showable p l registrar.clock.now
    · obtain ⟨outcome, htold, hne⟩ :=
        Purge.told_of_showable policy hphase (htimed _ a ha) hclock hshow
      refine Or.inl ⟨outcome, htold, hne, fun q l' h => ?_⟩
      obtain ⟨-, ⟨⟩, hnot⟩ := (hhides q l').mp h
      exact hnot hshow
    · exact Or.inr ⟨p, l, (hhides p l).mpr ⟨rfl, rfl, hshow⟩,
        Purge.told_of_unshowable policy a hphase hshow⟩

end Posting

namespace Purge.Round

open Posting

variable {registrar : Registrar} {policy : Policy} {g g' : Ledger} {pool : String}
  {ids : List String} {rs : List Result} {fault? : Option Fault}

/-- A round tells of all its visits, unless what one of them would give back cannot be shown. -/
theorem ended_cases (h : Round registrar policy g ids rs fault? g') (hnodup : ids.Nodup)
    (hopen : ∀ id ∈ ids, g.Open pool id) (hpool : g.pools.get? pool ≠ none) (htimed : g.Timed)
    (hclock : Cell.fits registrar.clock.now = true) :
    (fault? = none ∧ (∀ r ∈ rs, r.outcome ≠ .failed .alreadyFinalized) ∧
      ∀ id ∈ ids, ∀ p l, ¬g.Hides registrar id p l) ∨
    ∃ id ∈ ids, ∃ p l, g.Hides registrar id p l ∧ fault? = some
      (.outOfRange "expired_decay" (p.rate.val * l.secondsSinceExpiry registrar.clock.now)) := by
  induction h with
  | done g =>
    exact Or.inl ⟨rfl, fun _ h => absurd h List.not_mem_nil, fun _ h => absurd h List.not_mem_nil⟩
  | @raised g id rest fault htold =>
    obtain ⟨hfirst, -⟩ := List.forall_mem_cons.mp hopen
    rcases told_cases policy hfirst hpool htimed hclock with
      ⟨outcome, htold', -⟩ | ⟨p, l, hhides, htold'⟩
    · cases htold.symm.trans htold'
    · cases htold.symm.trans htold'
      exact Or.inr ⟨id, List.mem_cons_self, p, l, hhides, rfl⟩
  | @visited g g' id rest outcome rs fault? htold hrest ih =>
    obtain ⟨hid, hnodup'⟩ := List.nodup_cons.mp hnodup
    obtain ⟨hfirst, hothers⟩ := List.forall_mem_cons.mp hopen
    obtain ⟨hswept, hsame⟩ := swept_visit registrar policy hfirst
    have hhidden : ∀ other ∈ rest, ∀ {p l},
        ((process registrar policy id).after g).Hides registrar other p l ↔
          g.Hides registrar other p l := by
      intro other hother p l
      refine Ledger.hides_congr hswept.lockups_eq (hsame other ?_)
      rintro rfl
      exact hid hother
    rcases told_cases policy hfirst hpool htimed hclock with
      ⟨outcome', htold', hne, hnone⟩ | ⟨p, l, -, htold'⟩
    · cases Except.ok.inj (htold.symm.trans htold')
      have hopen' := open_of_visit registrar policy hfirst hid hothers
      have htimed' := (timed_process registrar policy id).after htimed
      rcases ih hnodup' hopen' (hswept.pool_ne_none hpool) htimed' with
        ⟨hfault, hrs, hrest⟩ | ⟨other, hother, p, l, hhides, hfault⟩
      · refine Or.inl ⟨hfault, List.forall_mem_cons.mpr ⟨hne, hrs⟩,
          List.forall_mem_cons.mpr ⟨hnone, fun other hother p l => ?_⟩⟩
        exact mt (hhidden other hother).mpr (hrest other hother p l)
      · exact Or.inr ⟨other, List.mem_cons_of_mem id hother, p, l,
          (hhidden other hother).mp hhides, hfault⟩
    · cases htold.symm.trans htold'

end Purge.Round

/-! ## Sweeps -/

/-- A store lists the open positions of a pool: all of them, ascending by id. -/
structure Store.Lists (s : Store) (pool : String) (ps : List Position) : Prop where
  listed : s.openPositions pool = .ok ps
  ascends : ps.Pairwise fun p q => p.id < q.id
  mem_iff : ∀ p, p ∈ ps ↔
    s.position? p.id = .ok (some p) ∧ p.pool = pool ∧ p.phase = .running

theorem Ledger.lists_store (g : Ledger) (pool : String) :
    g.store.Lists pool (g.openPositions pool) := by
  refine ⟨g.openPositions_store pool, g.pairwise_openPositions pool, fun p => ?_⟩
  rw [mem_openPositions, g.position?_store, Except.ok.injEq]

namespace Session

open Purge

/-- The results of a sweep cover the positions that were open: one result for each, in their
order; none of them tells of a position that is finalized already; and what is not finalized by
its result stays open, with its row as it was. -/
structure Covers (before after : Store) (pool : String) (ps : List Position)
    (rs : List Purge.Result) : Prop where
  positions_eq : rs.map (·.position) = ps.map (·.id)
  not_alreadyFinalized : ∀ r ∈ rs, r.outcome ≠ .failed .alreadyFinalized
  stay_open : (after.openPositions pool).map (fun ps => ps.map (·.id)) =
    .ok ((unfinalized rs).map (·.position))
  rows_eq : ∀ r ∈ rs, r.outcome.isFinalized = false →
    after.positions.get? r.position = before.positions.get? r.position

/-- All other pools, all positions that were not open in the pool, and all lockups are left
alone. -/
structure Spares (before after : Store) (pool : String) (ps : List Position) : Prop where
  pools_eq : ∀ id, id ≠ pool → after.pools.get? id = before.pools.get? id
  positions_eq : ∀ id, id ∉ ps.map (·.id) → after.positions.get? id = before.positions.get? id
  lockups_eq : after.lockups = before.lockups

variable {g g' : Ledger} {registrar : Registrar} {policy : Purge.Policy} {pool : String}
  {rs : List Purge.Result} {fault? : Option Fault}

theorem spares_of_round
    (h : Round registrar policy g ((g.openPositions pool).map (·.id)) rs fault? g') :
    Spares g.store g'.store pool (g.openPositions pool) := by
  obtain ⟨hswept, hsame⟩ := h.swept (g.nodup_openIds pool) fun _ => Ledger.mem_openIds.mp
  refine ⟨fun id hid => ?_, fun id hid => ?_, ?_⟩
  · rw [g'.get?_pools_store, g.get?_pools_store, hswept.others id hid]
  · rw [g'.get?_positions_store, g.get?_positions_store, hsame id hid]
  · unfold Ledger.store
    rw [hswept.lockups_eq]

theorem covers_of_round
    (h : Round registrar policy g ((g.openPositions pool).map (·.id)) rs none g')
    (hrs : ∀ r ∈ rs, r.outcome ≠ .failed .alreadyFinalized) :
    Covers g.store g'.store pool (g.openPositions pool) rs := by
  have hopen : ∀ id ∈ (g.openPositions pool).map (·.id), g.Open pool id :=
    fun _ => Ledger.mem_openIds.mp
  have hnodup := g.nodup_openIds pool
  obtain ⟨hswept, -⟩ := h.swept hnodup hopen
  have hpositions := h.positions_of_results.2 rfl
  refine ⟨hpositions, hrs, ?_, fun r hr hfinal => ?_⟩
  · show (g'.store.openPositions pool).map _ = _
    rw [g'.openPositions_store]
    show Except.ok ((g'.openPositions pool).map (·.id)) = _
    rw [hswept.openIds_eq, ← hpositions, List.filter_map]
    refine congrArg (fun rs => Except.ok (rs.map Result.position))
      (List.filter_congr fun r hr => ?_)
    exact congrArg not (h.finalized_of_result hnodup hopen hr)
  · have hrow := h.row_of_result hnodup hopen hr
    rw [hfinal, if_neg (by decide)] at hrow
    rw [g'.get?_positions_store, g.get?_positions_store, hrow]

/-- A sweep covers the open positions of its pool, unless there is one of which a purge would
give back an amount that cannot be shown; then it ends with the fault that tells of one such
amount. In both cases it leaves everything else alone. -/
def Reports (registrar : Registrar) (before : Store) (pool : String) (entry : Entry) : Prop :=
  ∃ ps, before.Lists pool ps ∧ Spares before entry.books.store pool ps ∧
    ((∃ rs, entry.answer = .ok (.results rs) ∧ Covers before entry.books.store pool ps rs ∧
        ∀ p ∈ ps, ∀ l, registrar.find? before p.id p.index = .ok (some l) →
          Showable p l registrar.clock.now) ∨
      ∃ p ∈ ps, ∃ l, registrar.find? before p.id p.index = .ok (some l) ∧
        ¬Showable p l registrar.clock.now ∧
        entry.answer = .error (.outOfRange "expired_decay"
          (p.rate.val * l.secondsSinceExpiry registrar.clock.now)))

/-- Every sweep of a pool that exists reports, on every store that a session reaches and whatever
the registrar holds, if the clock is within its column and the scheduler keeps its triggers. -/
theorem sweep_reports (partners : Partners) (steps : List Step) (registrar : Registrar)
    (policy : Purge.Policy) (triggers : Table String String) (updates : List (String × String))
    (pool : String) (hclock : Cell.fits registrar.clock.now = true)
    (hpool : ∃ a, (reached partners steps
      ⟨registrar, .kept triggers updates, policy⟩).store.pool? pool = .ok (some a)) :
    Reports registrar (reached partners steps ⟨registrar, .kept triggers updates, policy⟩).store
      pool (step (reached partners steps ⟨registrar, .kept triggers updates, policy⟩)
        (.sweep pool)) := by
  have hempty : (start {} partners).store = Ledger.store {} := (start_eq {} partners).1
  obtain ⟨g, hreached, htimed⟩ := exists_timed hempty steps
  have hstore : (reached partners steps ⟨registrar, .kept triggers updates, policy⟩).store =
      g.store := hreached
  have hpool' : g.pools.get? pool ≠ none := by
    obtain ⟨a, ha⟩ := hpool
    rw [hstore, Ledger.pool?_store] at ha
    rw [Except.ok.inj ha]
    exact Option.some_ne_none a
  obtain ⟨rs, fault?, g', hround⟩ :=
    exists_round registrar policy g ((g.openPositions pool).map (·.id))
  obtain ⟨hanswer, hstore', -⟩ := step_sweep hstore ⟨triggers, updates, rfl⟩ hpool' hround
  rw [hstore]
  refine ⟨g.openPositions pool, g.lists_store pool, ?_, ?_⟩
  · rw [hstore']
    exact spares_of_round hround
  · rcases hround.ended_cases (g.nodup_openIds pool) (fun _ => Ledger.mem_openIds.mp) hpool' htimed
      hclock with ⟨rfl, hrs, hnone⟩ | ⟨id, hid, p, l, ⟨hp, hl, hshow⟩, rfl⟩
    · left
      refine ⟨rs, hanswer, ?_, fun p hp l hl => ?_⟩
      · rw [hstore']
        exact covers_of_round hround hrs
      · by_contra hshow
        exact hnone p.id (List.mem_map_of_mem hp) p l
          ⟨(Ledger.mem_openPositions.mp hp).1, hl, hshow⟩
    · right
      obtain ⟨q, hq, hpool, hphase⟩ := Ledger.mem_openIds.mp hid
      cases Option.some.inj (hp.symm.trans hq)
      obtain rfl := Ledger.id_of_get? hp
      exact ⟨p, Ledger.mem_openPositions.mpr ⟨hp, hpool, hphase⟩, l, hl, hshow, hanswer⟩

/-- The positions of an answer to a sweep, with their statuses. -/
def Answer.statuses : Answer → List (String × String)
  | .results rs => rs.map fun r => (r.position, r.outcome.status)
  | _ => []

/-- Partners ten seconds after the end of a lockup, with a registrar that looks into the store. -/
def partnersAtThirty : Partners where
  registrar := { clock := { set := some 30 }, lockups := .stored }

/-- A sweep that finalizes one position and moves the trigger of another. -/
theorem sweep_reports_briefAndSteady :
    Cell.fits partnersAtThirty.registrar.clock.now = true ∧
      (∃ a, (reached partnersAtZero (sweptAndClosed.take 4) partnersAtThirty).store.pool? "pool" =
        .ok (some a)) ∧
      (step (reached partnersAtZero (sweptAndClosed.take 4) partnersAtThirty)
          (.sweep "pool")).answer.map Answer.statuses =
        .ok [("brief", "finalized"), ("steady", "rescheduled")] ∧
      Reports partnersAtThirty.registrar
        (reached partnersAtZero (sweptAndClosed.take 4) partnersAtThirty).store "pool"
        (step (reached partnersAtZero (sweptAndClosed.take 4) partnersAtThirty)
          (.sweep "pool")) := by
  have hpool : ∃ a, (reached partnersAtZero (sweptAndClosed.take 4) partnersAtThirty).store.pool?
      "pool" = .ok (some a) := ⟨⟨.capped 1900, .capped 15, 0⟩, by decide +kernel⟩
  exact ⟨by decide, hpool, by decide +kernel,
    sweep_reports partnersAtZero (sweptAndClosed.take 4) partnersAtThirty.registrar {} {} []
      "pool" (by decide) hpool⟩

/-- Every sweep of a pool that exists covers its open positions, and spares everything else. -/
def AllSweepsCover : Prop :=
  ∀ (partners : Partners) (steps : List Step) (registrar : Registrar) (policy : Purge.Policy)
    (triggers : Table String String) (updates : List (String × String)) (pool : String),
    Cell.fits registrar.clock.now = true →
    (∃ a, (reached partners steps ⟨registrar, .kept triggers updates, policy⟩).store.pool? pool =
      .ok (some a)) →
    ∃ rs, (step (reached partners steps ⟨registrar, .kept triggers updates, policy⟩)
        (.sweep pool)).answer = .ok (.results rs) ∧
      ∃ ps, (reached partners steps ⟨registrar, .kept triggers updates, policy⟩).store.Lists
          pool ps ∧
        Covers (reached partners steps ⟨registrar, .kept triggers updates, policy⟩).store
          (step (reached partners steps ⟨registrar, .kept triggers updates, policy⟩)
            (.sweep pool)).books.store pool ps rs ∧
        Spares (reached partners steps ⟨registrar, .kept triggers updates, policy⟩).store
          (step (reached partners steps ⟨registrar, .kept triggers updates, policy⟩)
            (.sweep pool)).books.store pool ps

/-- A registrar that holds one lockup, of the position of `deposited`. It has ended so long ago
that the seconds since are one more than any numeral can show. -/
def longExpired : Registrar where
  clock := { set := some 0 }
  lockups := .kept (.ofList [(("deposit", 0), .lasting .cliff (-(Nat.pow 10 Text.digitLimit)) 0)])

/-- A pool with one position. -/
def deposited : List Step :=
  [.createPool "pool" (some 0),
    .openPosition (.running "deposit" "pool" 0 9) 9 (.lasting .cliff 0 0) false]

/-- What the purge of a position would give back need not be an amount that can be shown. -/
theorem not_allSweepsCover : ¬AllSweepsCover := by
  intro h
  have hpool : (reached partnersAtZero deposited ⟨longExpired, .kept {} [], {}⟩).store.pool?
      "pool" = .ok (some ⟨.capped 9, .capped 9, 0⟩) := by decide +kernel
  have hfails : (step (reached partnersAtZero deposited ⟨longExpired, .kept {} [], {}⟩)
      (.sweep "pool")).answer.isOk = false := by decide +kernel
  obtain ⟨rs, hanswer, -⟩ :=
    h partnersAtZero deposited longExpired {} {} [] "pool" (by decide) ⟨_, hpool⟩
  rw [hanswer] at hfails
  cases hfails

end Session

end StakeLedger
