import StakeLedger.Proofs.Changes
import StakeLedger.Proofs.PurgedClosing

/-
  What a purge gives back of what a position was charged.
  A position is opened at one time and purged at a later one. It is charged from its opening on,
  and given back what it was charged from its lockup's stop on. What is left of it in its pool is
  its amount less its decay from the opening to the stop (`Purge.staked_of_stake`). A lockup that
  stopped before the opening makes that decay negative: more is given back than was charged.
-/

namespace StakeLedger

/-- The seconds since the stop of an expired lockup. Those of a constant lockup, which may be
expired before its stop, are counted from the stop as well. -/
theorem Lockup.secondsSinceExpiry_eq_sub_min {l : Lockup} {now : Int}
    (h : l.isExpired now = true) : l.secondsSinceExpiry now = now - min l.stop now := by
  rw [secondsSinceExpiry_of_expired h]
  omega

/-- An amount that is staked at one time and purged of its rate at another, with nothing between:
what the pool holds then beside what it would hold without the two. -/
theorem Purge.staked_of_stake {policy : Policy} {p : Position} {l : Lockup}
    {amount opening purge : Int} {before opened : Pool} {f : Finalization}
    (hopened : before.applyDelta opening (Delta.stake p.rate.val amount) = .ok opened)
    (hbypass : policy.bypassExpiry = false)
    (hf : decision policy p opened l.view purge = .ok (.finalize f)) :
    opening ≤ purge ∧ f.pool.staked.val =
      before.outlook purge + amount - p.rate.val * (min l.stop purge - opening) := by
  obtain ⟨-, hopen, hdelta, hpool, -, -⟩ := decision_eq_finalize_iff.mp hf
  have hexpired : l.isExpired purge = true := hopen.resolve_left (by simp [hbypass])
  obtain ⟨-, hdelta⟩ := expiredDelta_eq_ok_iff.mp hdelta
  obtain ⟨-, -, -, -, -, hasOf⟩ := Pool.applyDelta_eq_ok_iff.mp hopened
  obtain ⟨hle, -, -, -, -, hpurged⟩ := Pool.applyDelta_eq_ok_iff.mp hpool
  have hsince : f.delta.staked = p.rate.val * (purge - min l.stop purge) := by
    rw [hdelta, ← Lockup.secondsSinceExpiry_eq_sub_min hexpired]
    rfl
  refine ⟨hasOf ▸ hle, ?_⟩
  calc f.pool.staked.val = f.pool.outlook purge := by rw [← hpurged, Pool.outlook_asOf]
    _ = opened.outlook purge + f.delta.staked := by
      rw [Pool.outlook_applyDelta hpool, sub_self, zero_mul, sub_zero]
    _ = before.outlook purge + amount - (purge - opening) * p.rate.val +
        p.rate.val * (purge - min l.stop purge) := by
      rw [Pool.outlook_applyDelta hopened, hsince]
      rfl
    _ = before.outlook purge + amount - p.rate.val * (min l.stop purge - opening) := by ring

namespace Service

open Work

variable {books after : Books Partners} {id : String} {pool : Pool}

/-- What a processing has found and written that tells of a finalization. -/
theorem runOn_process_finalized
    (h : (process id).runOn books = (.ok ⟨id, .finalized pool⟩, after)) :
    ∃ p l before f, books.store.position? id = .ok (some p) ∧
      books.outside.registrar.find? books.store id p.index = .ok (some l) ∧
      books.store.pool? p.pool = .ok (some before) ∧
      Purge.decision books.outside.policy p before l.view books.outside.registrar.clock.now =
        .ok (.finalize f) ∧
      f.pool = pool ∧ after.store = (books.store.putPool p.pool pool).putPosition f.position := by
  rw [process_eq] at h
  obtain ⟨⟨p, d⟩, mid, hjudge, hconclude⟩ := runOn_bind_ok_iff.mp h
  obtain ⟨l, before, hp, hl, hbefore, hd, hstore, -⟩ := runOn_judge_ok hjudge
  cases d with
  | reschedule r =>
    obtain ⟨_, _, -, hresult⟩ := runOn_bind_ok_iff.mp hconclude
    cases hresult
  | finalize f =>
    obtain ⟨hresult, rfl⟩ := runOn_pure_ok_iff.mp hconclude
    cases hresult
    exact ⟨p, l, before, f, hp, hl, hbefore, hd, rfl, hstore⟩

end Service

namespace Session

open Work

/-- The steps of opening a position at a time. -/
def openingAt (time : Int) (p : Position) (amount : Int) (l : Lockup) (registered : Bool) :
    List Step :=
  [.setClock time, .openPosition p amount l registered]

variable {books : Books Partners} {p : Position} {l : Lockup} {amount opening purge : Int}
  {registered : Bool} {pool : Pool}

/-- What an opening at a time has found and written, where it succeeds. -/
theorem of_succeeds_openingAt (h : Succeeds books (openingAt opening p amount l registered)) :
    ∃ before opened, books.store.pool? p.pool = .ok (some before) ∧
      before.applyDelta opening (Delta.stake p.rate.val amount) = .ok opened ∧
      (booksAfter books (openingAt opening p amount l registered)).store =
        ((books.store.putPool p.pool opened).putPosition p).putLockup p.id p.index l ∧
      (booksAfter books (openingAt opening p amount l registered)).outside.policy =
        books.outside.policy := by
  unfold openingAt at h
  rw [succeeds_cons, succeeds_cons] at h
  obtain ⟨-, ⟨answer, hanswer⟩, -⟩ := h
  obtain ⟨before, opened, -, hbefore, hopened, hstore, hpolicy⟩ := step_openPosition_ok hanswer
  exact ⟨before, opened, hbefore, hopened, hstore, hpolicy⟩

/-- A position is opened at one time and, with its lockup as given, finalized by processing it at
another, which answers with a pool. Nothing happens in between. -/
structure OpenedAndPurged (books : Books Partners) (p : Position) (amount : Int) (l : Lockup)
    (registered : Bool) (opening purge : Int) (pool : Pool) : Prop where
  opened : Succeeds books (openingAt opening p amount l registered)
  lockup_eq : (booksAfter books (openingAt opening p amount l registered)).outside.registrar.find?
    (booksAfter books (openingAt opening p amount l registered)).store p.id p.index = .ok (some l)
  purged : (step (booksAfter books (openingAt opening p amount l registered ++ [.setClock purge]))
    (.process p.id)).answer = .ok (.result ⟨p.id, .finalized pool⟩)

/-- What is purged of an opened position is what was staked in it, and the pool that is answered is
the one that is stored. -/
theorem OpenedAndPurged.exists_decision
    (h : OpenedAndPurged books p amount l registered opening purge pool) :
    ∃ before opened f, books.store.pool? p.pool = .ok (some before) ∧
      before.applyDelta opening (Delta.stake p.rate.val amount) = .ok opened ∧
      Purge.decision books.outside.policy p opened l.view purge = .ok (.finalize f) ∧
      f.pool = pool ∧
      (booksAfter books (openingAt opening p amount l registered ++ purgeAt purge p.id)).store.pool?
        p.pool = .ok (some pool) := by
  obtain ⟨hopened, hlockup, hpurged⟩ := h
  obtain ⟨before, opened, hbefore, hstake, hstore, hpolicy⟩ := of_succeeds_openingAt hopened
  rw [booksAfter_append] at hpurged
  rw [booksAfter_append]
  generalize booksAfter books (openingAt opening p amount l registered) = mid at *
  obtain ⟨r, hrun, hr⟩ := (step_answer_eq_ok_iff rfl).mp hpurged
  cases hr
  obtain ⟨q, l', between, f, hq, hl', hbetween, hf, hpool, hafter⟩ :=
    Service.runOn_process_finalized hrun
  -- position, lockup and pool are still as the opening has left them
  change mid.store.position? p.id = _ at hq
  change mid.store.pool? q.pool = _ at hbetween
  change Purge.decision mid.outside.policy q between l'.view purge = _ at hf
  rw [hstore] at hq hbetween
  cases found_unique (Store.position?_putPosition _ p) hq
  cases found_unique hlockup hl'
  cases found_unique (Store.pool?_putPool _ _ opened) hbetween
  rw [hpolicy] at hf
  refine ⟨before, opened, f, hbefore, hstake, hf, hpool, ?_⟩
  show (step (step mid (.setClock purge)).books (.process p.id)).books.store.pool? p.pool = _
  have hstep : (step (step mid (.setClock purge)).books (.process p.id)).books.store = _ := hafter
  rw [hstep]
  exact Store.pool?_putPool _ _ pool

/-- A purge leaves in the pool, beside what the pool would hold if the position had never been
opened, the amount of the position less its decay from the opening to the stop of the lockup. It
does not leave more than the amount if the lockup stops at the opening or later, or the position
does not fall, and otherwise it does. -/
theorem staked_of_openedAndPurged (books : Books Partners) (p : Position) (amount : Int)
    (l : Lockup) (registered : Bool) (opening purge : Int) (before pool : Pool)
    (hbypass : books.outside.policy.bypassExpiry = false)
    (hbefore : books.store.pool? p.pool = .ok (some before))
    (h : OpenedAndPurged books p amount l registered opening purge pool) :
    (booksAfter books (openingAt opening p amount l registered ++ purgeAt purge p.id)).store.pool?
        p.pool = .ok (some pool) ∧
      pool.staked.val =
        before.outlook purge + amount - p.rate.val * (min l.stop purge - opening) ∧
      (pool.staked.val ≤ before.outlook purge + amount ↔ p.rate.val = 0 ∨ opening ≤ l.stop) := by
  obtain ⟨before', opened, f, hbefore', hopened, hf, rfl, hstored⟩ := h.exists_decision
  cases found_unique hbefore hbefore'
  obtain ⟨htimes, hstaked⟩ := Purge.staked_of_stake hopened hbypass hf
  refine ⟨hstored, hstaked, ?_⟩
  have hrate := p.rate.nonneg
  rw [hstaked]
  constructor
  · intro hle
    by_contra hnot
    obtain ⟨hfalls, hlate⟩ := not_or.mp hnot
    have hpos : 0 < p.rate.val := lt_of_le_of_ne hrate (Ne.symm hfalls)
    have hneg : min l.stop purge - opening < 0 := by omega
    have : p.rate.val * (min l.stop purge - opening) < 0 := mul_neg_of_pos_of_neg hpos hneg
    omega
  · rintro (hrate | hstop)
    · rw [hrate, zero_mul, sub_zero]
    · have hnonneg : 0 ≤ min l.stop purge - opening := by omega
      have : 0 ≤ p.rate.val * (min l.stop purge - opening) := mul_nonneg hrate hnonneg
      omega

/-- A pool that falls by 15, with lockups looked up in the store. -/
def fallingBooks : Books Partners where
  store := { pools := ⟨[("pool", ⟨"1900", "15", .int 0⟩)]⟩ }
  outside := { registrar := { lockups := .stored } }

/-- A position that falls by 10 is opened at 30 with 500 and a lockup up to 35, and purged at 40:
of the 1800 that the pool would hold with the amount and without the decay, 1750 are left. -/
theorem staked_of_openedAndPurged_falling :
    fallingBooks.outside.policy.bypassExpiry = false ∧
      fallingBooks.store.pool? "pool" = .ok (some ⟨.capped 1900, .capped 15, 0⟩) ∧
      OpenedAndPurged fallingBooks (.running "late" "pool" 0 10) 500 (.lasting .cliff 0 35) false
        30 40 ⟨.capped 1750, .capped 15, 40⟩ ∧
      (booksAfter fallingBooks (openingAt 30 (.running "late" "pool" 0 10) 500
        (.lasting .cliff 0 35) false ++ purgeAt 40 "late")).store.pool? "pool" =
          .ok (some ⟨.capped 1750, .capped 15, 40⟩) ∧
      (Pool.mk (.capped 1900) (.capped 15) 0).outlook 40 + 500 = 1800 ∧
      (Amount.capped 1750).val ≤ (Pool.mk (.capped 1900) (.capped 15) 0).outlook 40 + 500 := by
  have hbefore : fallingBooks.store.pool? "pool" = .ok (some ⟨.capped 1900, .capped 15, 0⟩) := by
    decide +kernel
  have hpurged : OpenedAndPurged fallingBooks (.running "late" "pool" 0 10) 500
      (.lasting .cliff 0 35) false 30 40 ⟨.capped 1750, .capped 15, 40⟩ :=
    ⟨by decide +kernel, by decide +kernel, by decide +kernel⟩
  obtain ⟨hstored, -, hle⟩ := staked_of_openedAndPurged fallingBooks (.running "late" "pool" 0 10)
    500 (.lasting .cliff 0 35) false 30 40 _ _ rfl hbefore hpurged
  exact ⟨rfl, hbefore, hpurged, hstored, by decide, hle.mpr (Or.inr (by decide))⟩

/-- A position that is opened and then purged adds no more to its pool than its amount. -/
def PurgesCreateNothing : Prop :=
  ∀ (books : Books Partners) (p : Position) (amount : Int) (l : Lockup) (registered : Bool)
    (opening purge : Int) (before pool : Pool),
    books.outside.policy.bypassExpiry = false → p.phase = .running → 0 ≤ amount →
    opening ≤ purge → books.store.pool? p.pool = .ok (some before) →
    OpenedAndPurged books p amount l registered opening purge pool →
    pool.staked.val ≤ before.outlook purge + amount

/-- A position that falls by 10 is opened at 30 with 500 and a lockup up to 20, and purged at 40:
it has been charged 100 and is given back 200. -/
theorem not_purgesCreateNothing : ¬PurgesCreateNothing := by
  intro h
  have hbefore : fallingBooks.store.pool? "pool" = .ok (some ⟨.capped 1900, .capped 15, 0⟩) := by
    decide +kernel
  have hpurged : OpenedAndPurged fallingBooks (.running "late" "pool" 0 10) 500
      (.lasting .cliff 0 20) false 30 40 ⟨.capped 1900, .capped 15, 40⟩ :=
    ⟨by decide +kernel, by decide +kernel, by decide +kernel⟩
  have hle := h fallingBooks (.running "late" "pool" 0 10) 500 (.lasting .cliff 0 20) false 30 40
    _ _ rfl rfl (by decide) (by decide) hbefore hpurged
  exact absurd hle (by decide)

end Session

end StakeLedger
