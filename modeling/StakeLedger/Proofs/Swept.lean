import StakeLedger.Proofs.Calls
import StakeLedger.Proofs.Easing
import StakeLedger.Proofs.Sweeps

/-
  What a sweep leaves.
  A visit to a running position is its decision on the pool as it stands (`result_process`). All
  visits of a round are made at one time, and what they do to the pool eases it, so that a visit
  that did not finalize its position tells the same when it is made again after the round
  (`visit_again`). A round changes nothing but the pool and the phases of the positions that it
  finalizes (`Ledger.Swept`, `Round.row_of_result`), and made again it tells the same of all the
  others and changes nothing (`Round.again`).
-/

namespace StakeLedger

/-! ## Visits -/

/-- A decision that is carried out: a finalization only if its time fits the column. -/
def Purge.Decision.stored (d : Decision) : Except Fault Decision :=
  match d with
  | .finalize f => (Cell.ofInt f.pool.asOf).map fun _ => d
  | .reschedule _ => .ok d

/-- The decision on a running position: all but the pool's own part of it comes first. -/
theorem Purge.decision_of_running {policy : Policy} {p : Position} (hphase : p.phase = .running)
    (pool : Pool) (view : Lockup.View) (now : Int) :
    decision policy p pool view now =
      if !policy.bypassExpiry && !view.isExpired now then
        (OneShot.build (now + view.secondsLeft now) policy.followup).map fun expression =>
          .reschedule ⟨Trigger.key p.id p.index, expression, now + view.secondsLeft now⟩
      else expiredDelta p view now >>= fun delta =>
        (pool.applyDelta now delta).map fun changed =>
          .finalize ⟨changed, { p with phase := .finalized }, delta,
            view.secondsSinceExpiry now⟩ := by
  have hrunning : p.phase.isFinalized = false := Phase.isFinalized_eq_false_iff.mpr hphase
  have hfinalize : p.finalize = .ok { p with phase := .finalized } :=
    Position.finalize_eq_ok_iff.mpr ⟨hphase, rfl⟩
  unfold decision
  rw [hrunning, hfinalize, if_neg (by decide)]
  rfl

/-- A finalization that can be stored is told of with its pool. -/
theorem Purge.told_of_finalize (p : Position) {f : Finalization}
    (hfits : Cell.fits f.pool.asOf = true) :
    told ((Decision.finalize f).stored.map fun d => (p, d)) = .ok (.finalized f.pool) := by
  rw [Decision.stored, Cell.ofInt, if_pos hfits]
  rfl

/-- Purges of other positions change nothing of what is told of a position that is not
finalized: its decision does not look at the pool, or the pool refuses it again. -/
theorem Purge.told_decision_again {policy : Policy} {p : Position} {a b : Pool}
    {view : Lockup.View} {now : Int} (hphase : p.phase = .running) (heased : a.Eased now b)
    (hnot : ∀ pool, told (decision policy p a view now >>= fun d => d.stored.map fun d => (p, d)) ≠
      .ok (.finalized pool)) :
    told (decision policy p b view now >>= fun d => d.stored.map fun d => (p, d)) =
      told (decision policy p a view now >>= fun d => d.stored.map fun d => (p, d)) := by
  rw [decision_of_running hphase] at hnot ⊢
  rw [decision_of_running hphase]
  split
  · rfl
  · next hopen =>
    rw [if_neg hopen] at hnot
    cases hdelta : expiredDelta p view now with
    | error fault => rfl
    | ok delta =>
      rw [hdelta] at hnot
      have hpurges := purges_expiredDelta hdelta
      cases ha : a.applyDelta now delta with
      | error fault =>
        rcases heased.error_of_error hpurges ha with rfl | ⟨hcode, fault', hb, hcode'⟩
        · rfl
        · show told ((b.applyDelta now delta).map _ >>= _) =
            told ((a.applyDelta now delta).map _ >>= _)
          rw [ha, hb]
          exact (told_error_of_code hcode').trans (told_error_of_code hcode).symm
      | ok changed =>
        rcases heased with rfl | ⟨hfits, -⟩
        · rfl
        · exfalso
          obtain ⟨-, -, -, -, -, hasOf⟩ := Pool.applyDelta_eq_ok_iff.mp ha
          refine hnot changed ?_
          show told ((a.applyDelta now delta).map _ >>= _) = _
          rw [ha]
          exact told_of_finalize p (by rw [hasOf]; exact hfits)

namespace Posting

variable {registrar : Registrar} {policy : Purge.Policy} {id : String} {g k : Ledger}
  {p : Position}

theorem result_loadPosition (hp : g.positions.get? id = some p) :
    (loadPosition id).result g = .ok p :=
  result_of_run (run_loadPosition_ok_iff.mpr ⟨hp, rfl⟩)

/-- A finalized position is stored in the place of the running one. -/
theorem result_store {f : Purge.Finalization} (hp : g.positions.get? p.id = some p)
    (hphase : p.phase = .running) (hf : f.position = { p with phase := .finalized }) :
    (store p f).result g = (Cell.ofInt f.pool.asOf).map fun _ => () := by
  have hcheck : Store.checkPhase (g.positions.get? f.position.id) f.position = .ok () := by
    rw [hf]
    show Store.checkPhase (g.positions.get? p.id) _ = _
    rw [hp]
    simp [Store.checkPhase, hphase, Phase.isFinalized, Phase.isClosed]
  cases hfits : Cell.ofInt f.pool.asOf with
  | error fault =>
    have hsave : (savePool p.pool f.pool).result g = .error fault := by
      show ((g.savePool p.pool f.pool).map _).map _ = _
      rw [Ledger.savePool, hfits]
      rfl
    exact result_bind_of_error hsave
  | ok cell =>
    obtain ⟨hfits, -⟩ := Cell.ofInt_eq_ok_iff.mp hfits
    have hrun : (store p f).run g =
        .ok ((), (g.putPool p.pool f.pool).putPosition f.position) := by
      rw [store, run_bind_ok_iff]
      exact ⟨(), _, run_savePool_ok_iff.mpr ⟨hfits, rfl⟩,
        run_savePosition_ok_iff.mpr ⟨hcheck, rfl⟩⟩
    exact result_of_run hrun

/-- What a visit to a running position comes to. -/
theorem result_process (hp : g.positions.get? id = some p) (hphase : p.phase = .running) :
    (process registrar policy id).result g =
      (findLockup registrar id p.index).result g >>= fun l =>
        (loadPool p.pool).result g >>= fun pool =>
          Purge.decision policy p pool l.view registrar.clock.now >>= fun d =>
            d.stored.map fun d => (p, d) := by
  obtain rfl := Ledger.id_of_get? hp
  rw [process, result_bind_of_looks (looks_loadPosition _), result_loadPosition hp]
  show (findLockup registrar p.id p.index >>= fun l => _).result g = _
  rw [result_bind_of_looks (looks_findLockup _ _ _)]
  refine congrArg _ (funext fun l => ?_)
  rw [decideAt, result_bind_of_looks (looks_loadPosition _), result_loadPosition hp]
  show (loadPool p.pool >>= fun pool => _).result g = _
  rw [result_bind_of_looks (looks_loadPool _)]
  refine congrArg _ (funext fun pool => ?_)
  rw [result_bind_of_looks (looks_check _)]
  cases hdecision : Purge.decision policy p pool l.view registrar.clock.now with
  | error fault => rfl
  | ok d =>
    cases d with
    | reschedule r => rfl
    | finalize f =>
      obtain ⟨-, -, -, -, hposition, -⟩ := Purge.decision_eq_finalize_iff.mp hdecision
      have hstore := result_store (f := f) hp hphase hposition
      show (store p f >>= fun _ => pure (p, Purge.Decision.finalize f)).result g =
        ((Cell.ofInt f.pool.asOf).map _).map _
      cases hfits : Cell.ofInt f.pool.asOf with
      | error fault =>
        rw [hfits] at hstore
        exact result_bind_of_error hstore
      | ok cell =>
        rw [hfits] at hstore
        rw [result_bind_of_ok hstore]
        rfl

/-- Lockups are found in one ledger as in another with the same table of them. -/
theorem find?_store_congr (registrar : Registrar) (h : k.lockups = g.lockups) (position : String)
    (index : Int) :
    registrar.find? k.store position index = registrar.find? g.store position index := by
  unfold Registrar.find?
  split
  · rfl
  · rw [k.lockup?_store, g.lockup?_store, Ledger.lockup?, Ledger.lockup?, h]

/-- A lockup must be found where the registrar looks it up. -/
theorem result_findLockup (registrar : Registrar) (position : String) (index : Int) (g : Ledger) :
    (findLockup registrar position index).result g =
      registrar.find? g.store position index >>= fun found =>
        match found with
        | some l => .ok l
        | none => .error (.unknownLockup position index) := by
  have hrequire : ∀ found : Option Lockup,
      (require found (.unknownLockup position index)).result g =
        match found with
        | some l => .ok l
        | none => .error (.unknownLockup position index) := by
    intro found
    cases found <;> rfl
  have hlookUp : (lookUp registrar position index).result g =
      registrar.find? g.store position index := by
    unfold lookUp Registrar.find?
    cases registrar.lockups with
    | kept table => rfl
    | stored =>
      show ((g.lockup? position index).map _).map _ = g.store.lockup? position index
      rw [g.lockup?_store]
      cases g.lockup? position index <;> rfl
  rw [findLockup, result_bind_of_looks (looks_lookUp _ _ _), hlookUp]
  exact congrArg _ (funext hrequire)

theorem result_findLockup_congr (h : k.lockups = g.lockups) (position : String) (index : Int) :
    (findLockup registrar position index).result k =
      (findLockup registrar position index).result g := by
  rw [result_findLockup, result_findLockup, find?_store_congr registrar h]

/-- A visit that does not finalize its position tells the same when it is made again, after
purges of other positions at the same time. -/
theorem told_again {a b : Pool} (hp : g.positions.get? id = some p) (hphase : p.phase = .running)
    (hk : k.positions.get? id = some p) (hlockups : k.lockups = g.lockups)
    (ha : g.pools.get? p.pool = some a) (hb : k.pools.get? p.pool = some b)
    (heased : a.Eased registrar.clock.now b)
    (hnot : ∀ pool, Purge.told ((process registrar policy id).result g) ≠ .ok (.finalized pool)) :
    Purge.told ((process registrar policy id).result k) =
      Purge.told ((process registrar policy id).result g) := by
  have hloadPool : ∀ {g : Ledger} {pool : Pool}, g.pools.get? p.pool = some pool →
      (loadPool p.pool).result g = .ok pool :=
    fun h => result_of_run (run_loadPool_ok_iff.mpr ⟨h, rfl⟩)
  rw [result_process hp hphase] at hnot ⊢
  rw [result_process hk hphase, result_findLockup_congr hlockups]
  cases hlockup : (findLockup registrar id p.index).result g with
  | error fault => rfl
  | ok l =>
    rw [hlockup, hloadPool ha] at hnot
    rw [hloadPool ha, hloadPool hb]
    exact Purge.told_decision_again hphase heased hnot

/-- A visit finalizes a running position, which eases its pool, or it changes nothing. -/
theorem visit_cases (registrar : Registrar) (policy : Purge.Policy)
    (hp : g.positions.get? id = some p) :
    (∃ a b, Purge.told ((process registrar policy id).result g) = .ok (.finalized b) ∧
      p.phase = .running ∧ g.pools.get? p.pool = some a ∧ a.Eased registrar.clock.now b ∧
      (process registrar policy id).after g =
        (g.putPool p.pool b).putPosition { p with phase := .finalized }) ∨
    (process registrar policy id).after g = g ∧
      ∀ b, Purge.told ((process registrar policy id).result g) ≠ .ok (.finalized b) := by
  cases hresult : (process registrar policy id).result g with
  | error fault =>
    refine Or.inr ⟨after_of_error hresult, fun b => ?_⟩
    cases hcode : fault.code? with
    | none =>
      rw [Purge.told_error_of_none hcode]
      exact fun h => by cases h
    | some code =>
      rw [Purge.told_error_of_code hcode]
      exact fun h => by cases h
  | ok r =>
    obtain ⟨q, d⟩ := r
    obtain ⟨hq, l, a, -, ha, hdecision, hdone⟩ := run_process_ok (run_of_result hresult)
    cases Option.some.inj (hp.symm.trans hq)
    cases d with
    | reschedule r => exact Or.inr ⟨hdone, fun b h => by cases h⟩
    | finalize f =>
      obtain ⟨hphase, -, hdelta, hchanged, hposition, -⟩ :=
        Purge.decision_eq_finalize_iff.mp hdecision
      obtain ⟨hfits, hafter⟩ := hdone
      obtain ⟨-, -, -, -, -, hasOf⟩ := Pool.applyDelta_eq_ok_iff.mp hchanged
      rw [hasOf] at hfits
      rw [hposition] at hafter
      exact Or.inl ⟨a, f.pool, rfl, hphase, ha,
        Pool.eased_of_applyDelta hfits (Purge.purges_expiredDelta hdelta) hchanged, hafter⟩

end Posting

/-! ## Rounds -/

namespace Ledger

variable {g g' g'' : Ledger} {now : Int} {pool id : String}

/-- There is an open position of an id in a pool. -/
def Open (g : Ledger) (pool id : String) : Prop :=
  ∃ p, g.positions.get? id = some p ∧ p.pool = pool ∧ p.phase = .running

theorem mem_openIds : id ∈ (g.openPositions pool).map (·.id) ↔ g.Open pool id := by
  rw [List.mem_map]
  constructor
  · rintro ⟨p, hp, rfl⟩
    exact ⟨p, mem_openPositions.mp hp⟩
  · rintro ⟨p, hp, hpool, hphase⟩
    obtain rfl := id_of_get? hp
    exact ⟨p, mem_openPositions.mpr ⟨hp, hpool, hphase⟩, rfl⟩

theorem pairwise_openIds (g : Ledger) (pool : String) :
    ((g.openPositions pool).map (·.id)).Pairwise (· < ·) :=
  List.pairwise_map.mpr (g.pairwise_openPositions pool)

theorem nodup_openIds (g : Ledger) (pool : String) : ((g.openPositions pool).map (·.id)).Nodup := by
  refine (g.pairwise_openIds pool).imp fun hlt heq => ?_
  rw [heq] at hlt
  exact String.lt_irrefl _ hlt

/-- A ledger after purges of positions of one pool at one time: the pool has been eased, and
some of its running positions are finalized. -/
structure Swept (now : Int) (pool : String) (g g' : Ledger) : Prop where
  lockups_eq : g'.lockups = g.lockups
  others : ∀ id, id ≠ pool → g'.pools.get? id = g.pools.get? id
  eased : ∀ a, g.pools.get? pool = some a → ∃ b, g'.pools.get? pool = some b ∧ a.Eased now b
  positions : ∀ id, g'.positions.get? id = g.positions.get? id ∨
    g.Open pool id ∧ g'.positions.get? id =
      (g.positions.get? id).map fun p => { p with phase := .finalized }

namespace Swept

theorem refl (now : Int) (pool : String) (g : Ledger) : Swept now pool g g :=
  ⟨rfl, fun _ _ => rfl, fun a ha => ⟨a, ha, .refl now a⟩, fun _ => Or.inl rfl⟩

theorem trans (h : Swept now pool g g') (h' : Swept now pool g' g'') : Swept now pool g g'' := by
  refine ⟨h'.lockups_eq.trans h.lockups_eq,
    fun id hid => (h'.others id hid).trans (h.others id hid), fun a ha => ?_, fun id => ?_⟩
  · obtain ⟨b, hb, heased⟩ := h.eased a ha
    obtain ⟨c, hc, heased'⟩ := h'.eased b hb
    exact ⟨c, hc, heased.trans heased'⟩
  · rcases h'.positions id with hsame | ⟨⟨p, hp, hpool, hphase⟩, hfinal⟩
    · rw [hsame]
      exact h.positions id
    · rcases h.positions id with hsame | ⟨⟨q, hq, -, -⟩, hfinal'⟩
      · right
        rw [hsame] at hp hfinal
        exact ⟨⟨p, hp, hpool, hphase⟩, hfinal⟩
      · -- what has been finalized is not open any more
        rw [hq] at hfinal'
        cases Option.some.inj (hp.symm.trans hfinal')
        cases hphase

theorem pool_ne_none (h : Swept now pool g g') (hpool : g.pools.get? pool ≠ none) :
    g'.pools.get? pool ≠ none := by
  obtain ⟨a, ha⟩ := Option.ne_none_iff_exists'.mp hpool
  obtain ⟨b, hb, -⟩ := h.eased a ha
  rw [hb]
  exact Option.some_ne_none b

/-- The pool's open positions after the purges are those before that are not finalized. -/
theorem openIds_eq (h : Swept now pool g g') :
    (g'.openPositions pool).map (·.id) =
      ((g.openPositions pool).map (·.id)).filter fun id => !g'.finalized id := by
  refine eq_of_ascending id (g'.pairwise_openIds pool)
    ((g.pairwise_openIds pool).filter _) fun other => ?_
  rw [List.mem_filter, mem_openIds, mem_openIds, Bool.not_eq_true']
  unfold finalized
  constructor
  · rintro ⟨p, hp, hpool, hphase⟩
    have hflag : (g'.positions.get? other).any (·.phase.isFinalized) = false := by
      rw [hp, Option.any_some]
      exact Phase.isFinalized_eq_false_iff.mpr hphase
    refine ⟨?_, hflag⟩
    rcases h.positions other with hsame | ⟨hopen, -⟩
    · exact ⟨p, hsame ▸ hp, hpool, hphase⟩
    · exact hopen
  · rintro ⟨⟨p, hp, hpool, hphase⟩, hflag⟩
    rcases h.positions other with hsame | ⟨-, hfinal⟩
    · exact ⟨p, hsame.trans hp, hpool, hphase⟩
    · rw [hfinal, hp] at hflag
      cases hflag

end Swept

end Ledger

namespace Posting

variable {registrar : Registrar} {policy : Purge.Policy} {g : Ledger} {pool id : String}

/-- A visit to an open position touches its pool and its row only. -/
theorem swept_visit (registrar : Registrar) (policy : Purge.Policy) (hopen : g.Open pool id) :
    g.Swept registrar.clock.now pool ((process registrar policy id).after g) ∧
      ∀ other, other ≠ id →
        ((process registrar policy id).after g).positions.get? other =
          g.positions.get? other := by
  obtain ⟨p, hp, rfl, hphase⟩ := hopen
  obtain rfl := Ledger.id_of_get? hp
  rcases visit_cases registrar policy hp with ⟨a, b, -, -, ha, heased, hafter⟩ | ⟨hafter, -⟩
  · have hpositions : ∀ other, ((g.putPool p.pool b).putPosition
        { p with phase := .finalized }).positions.get? other =
          if other = p.id then some { p with phase := .finalized }
          else g.positions.get? other := fun other => Table.get?_put _ _ _ _
    rw [hafter]
    refine ⟨⟨rfl, fun id hid => ?_, fun a' ha' => ?_, fun other => ?_⟩, fun other hother => ?_⟩
    · exact (Ledger.get?_pools_putPool g p.pool id b).trans (if_neg hid)
    · cases Option.some.inj (ha.symm.trans ha')
      exact ⟨b, (Ledger.get?_pools_putPool g p.pool p.pool b).trans (if_pos rfl), heased⟩
    · rw [hpositions]
      by_cases hother : other = p.id
      · subst hother
        rw [if_pos rfl, hp]
        exact Or.inr ⟨⟨p, hp, rfl, hphase⟩, rfl⟩
      · exact Or.inl (if_neg hother)
    · rw [hpositions, if_neg hother]
  · rw [hafter]
    exact ⟨.refl _ _ g, fun _ _ => rfl⟩

/-- The other open positions are open after a visit as well. -/
theorem open_of_visit (registrar : Registrar) (policy : Purge.Policy) {rest : List String}
    (hopen : g.Open pool id) (hid : id ∉ rest) (hothers : ∀ other ∈ rest, g.Open pool other) :
    ∀ other ∈ rest, ((process registrar policy id).after g).Open pool other := by
  intro other hother
  obtain ⟨-, hsame⟩ := swept_visit registrar policy hopen
  obtain ⟨p, hp, hp'⟩ := hothers other hother
  have hne : other ≠ id := by
    rintro rfl
    exact hid hother
  exact ⟨p, (hsame other hne).trans hp, hp'⟩

/-- A visit that has not finalized its position tells the same after the round, and changes
nothing. -/
theorem visit_again {k : Ledger} (hopen : g.Open pool id) (hpool : g.pools.get? pool ≠ none)
    (hswept : g.Swept registrar.clock.now pool k)
    (hsame : k.positions.get? id = g.positions.get? id)
    (hnot : ∀ b, Purge.told ((process registrar policy id).result g) ≠ .ok (.finalized b)) :
    Purge.told ((process registrar policy id).result k) =
        Purge.told ((process registrar policy id).result g) ∧
      (process registrar policy id).after k = k ∧ k.finalized id = false := by
  obtain ⟨p, hp, rfl, hphase⟩ := hopen
  obtain ⟨a, ha⟩ := Option.ne_none_iff_exists'.mp hpool
  obtain ⟨b, hb, heased⟩ := hswept.eased a ha
  have hk := hsame.trans hp
  have htold := told_again hp hphase hk hswept.lockups_eq ha hb heased hnot
  refine ⟨htold, ?_, ?_⟩
  · rcases visit_cases registrar policy hk with ⟨-, c, hfinal, -⟩ | ⟨hafter, -⟩
    · exact absurd (htold.symm.trans hfinal) (hnot c)
    · exact hafter
  · unfold Ledger.finalized
    rw [hk]
    exact Phase.isFinalized_eq_false_iff.mpr hphase

end Posting

namespace Purge.Round

open Posting

variable {registrar : Registrar} {policy : Policy} {g g' k : Ledger} {pool : String}
  {ids : List String} {rs : List Result} {fault? : Option Fault}

/-- A round tells of its visits in their order, and of all unless a fault has ended it. -/
theorem positions_of_results (h : Round registrar policy g ids rs fault? g') :
    rs.map (·.position) <+: ids ∧ (fault? = none → rs.map (·.position) = ids) := by
  induction h with
  | done g => exact ⟨List.prefix_rfl, fun _ => rfl⟩
  | raised htold => exact ⟨List.nil_prefix, fun h => by cases h⟩
  | visited htold hrest ih =>
    obtain ⟨hinit, hall⟩ := ih
    exact ⟨List.cons_prefix_cons.mpr ⟨rfl, hinit⟩, fun h => congrArg _ (hall h)⟩

theorem mem_of_result (h : Round registrar policy g ids rs fault? g') {r : Result} (hr : r ∈ rs) :
    r.position ∈ ids :=
  h.positions_of_results.1.subset (List.mem_map_of_mem hr)

theorem swept (h : Round registrar policy g ids rs fault? g') (hnodup : ids.Nodup)
    (hopen : ∀ id ∈ ids, g.Open pool id) :
    g.Swept registrar.clock.now pool g' ∧
      ∀ id, id ∉ ids → g'.positions.get? id = g.positions.get? id := by
  induction h with
  | done g => exact ⟨.refl _ _ g, fun _ _ => rfl⟩
  | raised htold => exact ⟨.refl _ _ _, fun _ _ => rfl⟩
  | @visited g g' id rest outcome rs fault? htold hrest ih =>
    obtain ⟨hid, hnodup'⟩ := List.nodup_cons.mp hnodup
    obtain ⟨hfirst, hothers⟩ := List.forall_mem_cons.mp hopen
    obtain ⟨hswept, hsame⟩ := swept_visit registrar policy hfirst
    obtain ⟨hswept', hsame'⟩ := ih hnodup' (open_of_visit registrar policy hfirst hid hothers)
    refine ⟨hswept.trans hswept', fun other hother => ?_⟩
    rw [List.mem_cons, not_or] at hother
    exact (hsame' other hother.2).trans (hsame other hother.1)

/-- The row of a position that a round tells of is what is told of it. -/
theorem row_of_result (h : Round registrar policy g ids rs fault? g') (hnodup : ids.Nodup)
    (hopen : ∀ id ∈ ids, g.Open pool id) {r : Result} (hr : r ∈ rs) :
    g'.positions.get? r.position =
      if r.outcome.isFinalized then
        (g.positions.get? r.position).map fun p => { p with phase := .finalized }
      else g.positions.get? r.position := by
  induction h with
  | done g => exact absurd hr List.not_mem_nil
  | raised htold => exact absurd hr List.not_mem_nil
  | @visited g g' id rest outcome rs fault? htold hrest ih =>
    obtain ⟨hid, hnodup'⟩ := List.nodup_cons.mp hnodup
    obtain ⟨hfirst, hothers⟩ := List.forall_mem_cons.mp hopen
    have hopen' := open_of_visit registrar policy hfirst hid hothers
    rcases List.mem_cons.mp hr with rfl | hr'
    · -- no later visit comes back to the position
      obtain ⟨-, hsame⟩ := hrest.swept hnodup' hopen'
      rw [hsame id hid]
      obtain ⟨p, hp, -, -⟩ := hfirst
      rcases visit_cases registrar policy hp with ⟨a, b, hfinal, -, -, -, hafter⟩ | ⟨hafter, hnot⟩
      · cases Except.ok.inj (htold.symm.trans hfinal)
        obtain rfl := Ledger.id_of_get? hp
        rw [hafter, hp]
        exact (Table.get?_put _ _ _ _).trans (if_pos rfl)
      · rw [hafter]
        cases outcome with
        | finalized b => exact absurd htold (hnot b)
        | rescheduled r => rfl
        | failed code => rfl
    · obtain ⟨-, hsame⟩ := swept_visit registrar policy hfirst
      have hne : r.position ≠ id := by
        rintro rfl
        exact hid (hrest.mem_of_result hr')
      rw [ih hnodup' hopen' hr', hsame r.position hne]

theorem finalized_of_result (h : Round registrar policy g ids rs fault? g') (hnodup : ids.Nodup)
    (hopen : ∀ id ∈ ids, g.Open pool id) {r : Result} (hr : r ∈ rs) :
    g'.finalized r.position = r.outcome.isFinalized := by
  obtain ⟨p, hp, -, hphase⟩ := hopen r.position (h.mem_of_result hr)
  unfold Ledger.finalized
  rw [h.row_of_result hnodup hopen hr, hp]
  split
  · next hfinal => exact hfinal.symm
  · next hfinal =>
    rw [Option.any_some, Bool.eq_false_iff.mpr hfinal]
    exact Phase.isFinalized_eq_false_iff.mpr hphase

/-- A round that is made again, on what it has left, tells the same of all that it has not
finalized, ends at the same fault, and changes nothing. -/
theorem again (h : Round registrar policy g ids rs fault? g') (hnodup : ids.Nodup)
    (hopen : ∀ id ∈ ids, g.Open pool id) (hpool : g.pools.get? pool ≠ none)
    (hswept : g'.Swept registrar.clock.now pool k)
    (hsame : ∀ id ∈ ids, k.positions.get? id = g'.positions.get? id) :
    Round registrar policy k (ids.filter fun id => !k.finalized id)
      (rs.filter fun r => !r.outcome.isFinalized) fault? k := by
  induction h with
  | done g => exact .done k
  | @raised g id rest fault htold =>
    obtain ⟨hfirst, -⟩ := List.forall_mem_cons.mp hopen
    obtain ⟨htold', -, hflag⟩ := visit_again hfirst hpool hswept (hsame id List.mem_cons_self)
      (fun b h => by rw [htold] at h; cases h)
    rw [List.filter_cons_of_pos (by rw [hflag]; rfl)]
    exact .raised (htold'.trans htold)
  | @visited g g' id rest outcome rs fault? htold hrest ih =>
    obtain ⟨hid, hnodup'⟩ := List.nodup_cons.mp hnodup
    obtain ⟨hfirst, hothers⟩ := List.forall_mem_cons.mp hopen
    obtain ⟨hsameFirst, hsameRest⟩ := List.forall_mem_cons.mp hsame
    have hopen' := open_of_visit registrar policy hfirst hid hothers
    obtain ⟨hswept₁, -⟩ := swept_visit registrar policy hfirst
    obtain ⟨hswept', hsame'⟩ := hrest.swept hnodup' hopen'
    have hagain := ih hnodup' hopen' (hswept₁.pool_ne_none hpool) hswept hsameRest
    cases hfinal : outcome.isFinalized with
    | true =>
      have hflag : k.finalized id = true := by
        have hround := Round.visited htold hrest
        have hrow := hround.finalized_of_result hnodup hopen List.mem_cons_self
        rw [← hfinal, ← hrow]
        exact congrArg (Option.any _) hsameFirst
      rw [List.filter_cons_of_neg (by rw [hflag]; decide),
        List.filter_cons_of_neg (by rw [hfinal]; decide)]
      exact hagain
    | false =>
      have hnot : ∀ b, told ((process registrar policy id).result g) ≠ .ok (.finalized b) := by
        intro b h
        cases Except.ok.inj (htold.symm.trans h)
        cases hfinal
      have hkept : g'.positions.get? id = g.positions.get? id := by
        have hround := Round.visited htold hrest
        have hrow := hround.row_of_result hnodup hopen List.mem_cons_self
        rwa [hfinal, if_neg (by decide)] at hrow
      obtain ⟨htold', hafter, hflag⟩ := visit_again hfirst hpool
        ((hswept₁.trans hswept').trans hswept) (hsameFirst.trans hkept) hnot
      rw [List.filter_cons_of_pos (by rw [hflag]; rfl),
        List.filter_cons_of_pos (by rw [hfinal]; rfl)]
      exact .visited (htold'.trans htold) (by rw [hafter]; exact hagain)

end Purge.Round

end StakeLedger
