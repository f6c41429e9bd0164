import StakeLedger.Proofs.WriteSets

/-
  Closings with and without a purge before them.
  A purge takes a position's rate away and gives back what was charged since the expiry; a
  closing takes out the amount that is left, and does what a purge does for a position that had
  none. The one after the other, each at its own time, comes to what the closing alone comes to
  (`eq_of_closed`): both leave the outlook of the pool raised by the position's rate for each
  second since the expiry, and lowered by the amount.
-/

namespace StakeLedger

namespace Purge

variable {policy : Policy} {p : Position} {l : Lockup} {early late amount : Int} {pool : Pool}
  {f : Finalization} {delta : Delta}

/-- The delta of closing a due position. -/
theorem closingDelta_of_due (hdue : Due p l late)
    (h : Service.Pools.closingDelta p l.view late amount = .ok delta) :
    delta = ⟨-p.rate.val, p.rate.val * (late - l.stop) - amount⟩ := by
  have hsince : l.view.secondsSinceExpiry late = late - l.stop :=
    Lockup.secondsSinceExpiry_of_stop_le hdue.2.1 hdue.2.2
  rcases Service.Pools.closingDelta_eq_ok_iff.mp h with ⟨hphase, -⟩ | ⟨-, expired, hexpired, rfl⟩
  · exact absurd hdue.1 hphase
  · obtain ⟨-, rfl⟩ := expiredDelta_eq_ok_iff.mp hexpired
    rw [hsince]

/-- A purge and a closing after it come to what the closing alone comes to. -/
theorem eq_of_closed {purged closed : Pool} (hearly : Due p l early) (hlate : Due p l late)
    (hf : decision policy p pool l.view early = .ok (.finalize f))
    (hpurged : f.pool.applyDelta late ⟨0, -amount⟩ = .ok purged)
    (hdelta : Service.Pools.closingDelta p l.view late amount = .ok delta)
    (hclosed : pool.applyDelta late delta = .ok closed) : purged = closed := by
  obtain rfl := closingDelta_of_due hlate hdelta
  obtain ⟨-, hfdelta, hfpool, -, -⟩ := (decision_of_due hearly).mp hf
  obtain ⟨-, -, -, hfrate, -, -⟩ := Pool.applyDelta_eq_ok_iff.mp hfpool
  obtain ⟨-, -, -, hprate, -, hpasOf⟩ := Pool.applyDelta_eq_ok_iff.mp hpurged
  obtain ⟨-, -, -, hcrate, -, hcasOf⟩ := Pool.applyDelta_eq_ok_iff.mp hclosed
  refine Pool.eq_of_outlook late (hpasOf.trans hcasOf.symm) ?_ ?_
  · rw [hprate, hfrate, hfdelta, hcrate]
    exact add_zero _
  · rw [Pool.outlook_applyDelta hpurged, outlook_finalize hearly hf,
      Pool.outlook_applyDelta hclosed]
    ring

/-- Where a purge can be followed by a closing at the same time, the closing is possible
alone. -/
theorem exists_closed_of_purged {purged : Pool}
    (hf : decision policy p pool l.view late = .ok (.finalize f))
    (hpurged : f.pool.applyDelta late ⟨0, -amount⟩ = .ok purged) :
    ∃ delta, Service.Pools.closingDelta p l.view late amount = .ok delta ∧
      pool.applyDelta late delta = .ok purged := by
  obtain ⟨hphase, -, hexpired, hfpool, -, -⟩ := decision_eq_finalize_iff.mp hf
  have hdelta : Service.Pools.closingDelta p l.view late amount =
      .ok ⟨f.delta.rate, f.delta.staked - amount⟩ :=
    Service.Pools.closingDelta_eq_ok_iff.mpr (Or.inr ⟨hphase, f.delta, hexpired, rfl⟩)
  obtain ⟨hle, hmax, hs, hfrate, hfstaked, hfasOf⟩ := Pool.applyDelta_eq_ok_iff.mp hfpool
  obtain ⟨-, -, -, hrate, hstaked, hasOf⟩ := Pool.applyDelta_eq_ok_iff.mp hpurged
  -- no time passes between the two, so the finalized pool is charged nothing
  have hnothing : f.pool.decay late = 0 := by rw [← hfasOf, Pool.decay_asOf]
  refine ⟨_, hdelta, Pool.applyDelta_eq_ok_iff.mpr ⟨hle, hmax, hs, ?_, ?_, hasOf⟩⟩
  · rw [hrate, hfrate]
    exact add_zero _
  · rw [hstaked, hnothing, hfstaked]
    ring

end Purge

namespace Store

/-- A pool and a position that are put twice are put once. -/
theorem put_twice (s : Store) (key : String) (pool pool' : Pool) (p : Position)
    (phase phase' : Phase) :
    (((s.putPool key pool).putPosition { p with phase := phase }).putPool key
      pool').putPosition { p with phase := phase' } =
    (s.putPool key pool').putPosition { p with phase := phase' } := by
  simp only [putPool, putPosition, Table.put_put]

end Store

namespace Service

open Work

variable {books after : Books Partners} {id : String} {p : Position} {l : Lockup}

/-- Processing a due position that ends well is a finalization. -/
theorem runOn_process_of_due {r : Purge.Result}
    (hp : books.store.position? id = .ok (some p))
    (hl : books.outside.registrar.find? books.store id p.index = .ok (some l))
    (hdue : Purge.Due p l books.outside.registrar.clock.now)
    (h : (process id).runOn books = (.ok r, after)) :
    ∃ before f, books.store.pool? p.pool = .ok (some before) ∧
      Purge.decision books.outside.policy p before l.view books.outside.registrar.clock.now =
        .ok (.finalize f) ∧
      after.store =
        (books.store.putPool p.pool f.pool).putPosition { p with phase := .finalized } ∧
      after.outside = books.outside := by
  rw [process_eq] at h
  obtain ⟨⟨p', d⟩, mid, hjudge, hconclude⟩ := runOn_bind_ok_iff.mp h
  obtain ⟨l', before, hp', hl', hbefore, hd, hstore, houtside⟩ := runOn_judge_ok hjudge
  cases found_unique hp hp'
  cases found_unique hl hl'
  obtain ⟨f, rfl⟩ := Purge.finalize_of_due hdue hd
  obtain ⟨-, rfl⟩ := runOn_pure_ok_iff.mp hconclude
  obtain ⟨-, -, -, -, hposition, -⟩ := Purge.decision_eq_finalize_iff.mp hd
  refine ⟨before, f, hbefore, hd, ?_, houtside⟩
  rw [hstore, ← hposition]
  rfl

end Service

namespace Session

/-- The steps of a closing at a time. -/
def closingAt (time : Int) (id : String) (amount : Int) : List Step :=
  [.setClock time, .closePosition id amount]

/-- The steps of a purge at a time. -/
def purgeAt (time : Int) (id : String) : List Step := [.setClock time, .process id]

variable {books : Books Partners} {id : String} {p : Position} {l : Lockup}
  {amount early late : Int}

/-- When a closing at a time succeeds, and the store after it. -/
theorem succeeds_closingAt_iff {s : Store} :
    (Succeeds books (closingAt late id amount) ∧
        (booksAfter books (closingAt late id amount)).store = s) ↔
      ∃ p l delta before pool, books.store.position? id = .ok (some p) ∧ p.phase ≠ .closed ∧
        books.outside.registrar.find? books.store id p.index = .ok (some l) ∧
        Service.Pools.closingDelta p l.view late amount = .ok delta ∧
        books.store.pool? p.pool = .ok (some before) ∧
        before.applyDelta late delta = .ok pool ∧ Cell.fits pool.asOf = true ∧
        s = (books.store.putPool p.pool pool).putPosition { p with phase := .closed } := by
  unfold closingAt
  rw [succeeds_cons, succeeds_cons]
  constructor
  · rintro ⟨⟨-, ⟨_, hanswer⟩, -⟩, rfl⟩
    obtain ⟨pool, hrun, -⟩ := (step_answer_eq_ok_iff rfl).mp hanswer
    obtain ⟨p, l, delta, before, hp, hopen, hl, hdelta, hbefore, hpool, hfits, hstore, -⟩ :=
      Service.exists_runOn_closePosition_iff.mp ⟨_, hrun, rfl, rfl⟩
    exact ⟨p, l, delta, before, pool, hp, hopen, hl, hdelta, hbefore, hpool, hfits, hstore⟩
  · rintro ⟨p, l, delta, before, pool, hp, hopen, hl, hdelta, hbefore, hpool, hfits, rfl⟩
    have hcloses : ∃ after, (Service.closePosition id amount).runOn
          (fresh (step books (.setClock late)).books) = (.ok pool, after) ∧
        after.store =
          (books.store.putPool p.pool pool).putPosition { p with phase := .closed } ∧
        after.outside = (step books (.setClock late)).books.outside :=
      Service.exists_runOn_closePosition_iff.mpr
        ⟨p, l, delta, before, hp, hopen, hl, hdelta, hbefore, hpool, hfits, rfl, rfl⟩
    obtain ⟨after, hrun, hstore, -⟩ := hcloses
    have hstep : step (step books (.setClock late)).books (.closePosition id amount) =
        ⟨.ok (.pool pool), after⟩ := step_of_runOn rfl hrun
    refine ⟨⟨⟨_, rfl⟩, ⟨_, congrArg Entry.answer hstep⟩, ?_⟩, ?_⟩
    · exact fun _ h => absurd h List.not_mem_nil
    · show (step (step books (.setClock late)).books (.closePosition id amount)).books.store = _
      rw [hstep]
      exact hstore

/-- What a purge of a due position at a time leaves, where it succeeds. -/
theorem of_succeeds_purgeAt (hp : books.store.position? id = .ok (some p))
    (hl : books.outside.registrar.find? books.store id p.index = .ok (some l))
    (hdue : Purge.Due p l early) (h : Succeeds books (purgeAt early id)) :
    ∃ before f, books.store.pool? p.pool = .ok (some before) ∧
      Purge.decision books.outside.policy p before l.view early = .ok (.finalize f) ∧
      (booksAfter books (purgeAt early id)).store =
        (books.store.putPool p.pool f.pool).putPosition { p with phase := .finalized } ∧
      (booksAfter books (purgeAt early id)).outside =
        (step books (.setClock early)).books.outside := by
  unfold purgeAt at h
  rw [succeeds_cons, succeeds_cons] at h
  obtain ⟨-, ⟨_, hanswer⟩, -⟩ := h
  obtain ⟨r, hrun, -⟩ := (step_answer_eq_ok_iff rfl).mp hanswer
  have hpThen : (fresh (step books (.setClock early)).books).store.position? id = .ok (some p) := hp
  exact Service.runOn_process_of_due hpThen hl hdue hrun

/-- A purge before a closing leaves no trace: of a due position that is purged at one time and
closed at the same or a later one, and the same position closed at the later time without a
purge, pool and position end up the same, and so does all of the store. At one time, the closing
is possible wherever it is possible after the purge. -/
theorem closing_of_purged (books : Books Partners) (id : String) (p : Position) (l : Lockup)
    (amount early late : Int) (hp : books.store.position? id = .ok (some p))
    (hrunning : p.phase = .running)
    (hl : books.outside.registrar.find? books.store id p.index = .ok (some l))
    (hkind : l.kind ≠ .constant) (hstop : l.stop ≤ early) (htimes : early ≤ late) :
    (Succeeds books (purgeAt early id ++ closingAt late id amount) →
      Succeeds books (closingAt late id amount) →
      (booksAfter books (purgeAt early id ++ closingAt late id amount)).store =
        (booksAfter books (closingAt late id amount)).store) ∧
    (early = late → Succeeds books (purgeAt early id ++ closingAt late id amount) →
      Succeeds books (closingAt late id amount)) := by
  have hdueEarly : Purge.Due p l early := ⟨hrunning, hkind, hstop⟩
  have hdueLate : Purge.Due p l late := ⟨hrunning, hkind, hstop.trans htimes⟩
  -- what both conclusions know of the purge and the closing after it
  have htwo : Succeeds books (purgeAt early id ++ closingAt late id amount) →
      ∃ before f purged, books.store.pool? p.pool = .ok (some before) ∧
        Purge.decision books.outside.policy p before l.view early = .ok (.finalize f) ∧
        f.pool.applyDelta late ⟨0, -amount⟩ = .ok purged ∧ Cell.fits purged.asOf = true ∧
        (booksAfter books (purgeAt early id ++ closingAt late id amount)).store =
          (books.store.putPool p.pool purged).putPosition { p with phase := .closed } := by
    intro h
    obtain ⟨hpurge, hclose⟩ := succeeds_append.mp h
    obtain ⟨before, f, hbefore, hf, hstore, houtside⟩ := of_succeeds_purgeAt hp hl hdueEarly hpurge
    obtain ⟨q, l', delta, between, purged, hq, -, -, hdelta, hbetween, hpurged, hfits, hafter⟩ :=
      succeeds_closingAt_iff.mp ⟨hclose, rfl⟩
    rw [hstore] at hq hbetween hafter
    rw [Store.position?_putPosition_phase hp] at hq
    cases Option.some.inj (Except.ok.inj hq)
    cases Option.some.inj (Except.ok.inj (hbetween.symm.trans (Store.pool?_putPool _ _ _)))
    rcases Service.Pools.closingDelta_eq_ok_iff.mp hdelta with ⟨-, rfl⟩ | ⟨hphase, -⟩
    · refine ⟨before, f, purged, hbefore, hf, hpurged, hfits, ?_⟩
      rw [booksAfter_append, hafter]
      exact Store.put_twice _ _ _ _ p _ _
    · cases hphase
  constructor
  · intro hpurgeClose hclose
    obtain ⟨before, f, purged, hbefore, hf, hpurged, -, hstore⟩ := htwo hpurgeClose
    obtain ⟨q, l', delta, before', closed, hq, -, hl', hdelta, hbefore', hclosed, -, hstore'⟩ :=
      succeeds_closingAt_iff.mp ⟨hclose, rfl⟩
    cases Option.some.inj (Except.ok.inj (hp.symm.trans hq))
    cases Option.some.inj (Except.ok.inj (hl.symm.trans hl'))
    cases Option.some.inj (Except.ok.inj (hbefore.symm.trans hbefore'))
    rw [hstore, hstore', Purge.eq_of_closed hdueEarly hdueLate hf hpurged hdelta hclosed]
  · rintro rfl hpurgeClose
    obtain ⟨before, f, purged, hbefore, hf, hpurged, hfits, -⟩ := htwo hpurgeClose
    obtain ⟨delta, hdelta, hclosed⟩ := Purge.exists_closed_of_purged hf hpurged
    have hopen : p.phase ≠ .closed := by
      rw [hrunning]
      decide
    exact (succeeds_closingAt_iff.mpr ⟨p, l, delta, before, purged, hp, hopen, hl, hdelta, hbefore,
      hclosed, hfits, rfl⟩).1

/-- A position that falls by 10 up to 20, in a pool that falls by 15; the numbers of the rows are
not all in their shortest form. -/
def unevenBooks : Books Partners where
  store :=
    { pools := ⟨[("pool", ⟨"1_900", "+15", .int 0⟩)]⟩
      positions := ⟨[("brief", ⟨"pool", .int 1, " 10", .int 0, .int 0⟩)]⟩
      lockups := ⟨[(("brief", .int 1), ⟨"cliff", .int 0, .int 20⟩)]⟩ }
  outside := { registrar := { lockups := .stored } }

/-- A closing of 700 at time 40 leaves 800 in the pool, with and without a purge at 30; a closing
at 30 after a purge at 30 is possible without the purge. -/
theorem closing_of_purged_uneven :
    unevenBooks.store.position? "brief" = .ok (some (.running "brief" "pool" 1 10)) ∧
      unevenBooks.outside.registrar.find? unevenBooks.store "brief" 1 =
        .ok (some (.lasting .cliff 0 20)) ∧
      Succeeds unevenBooks (purgeAt 30 "brief" ++ closingAt 40 "brief" 700) ∧
      Succeeds unevenBooks (closingAt 40 "brief" 700) ∧
      (booksAfter unevenBooks (purgeAt 30 "brief" ++ closingAt 40 "brief" 700)).store =
        (booksAfter unevenBooks (closingAt 40 "brief" 700)).store ∧
      (booksAfter unevenBooks (closingAt 40 "brief" 700)).store.pool? "pool" =
        .ok (some ⟨.capped 800, .capped 5, 40⟩) ∧
      Succeeds unevenBooks (closingAt 30 "brief" 700) := by
  have hp : unevenBooks.store.position? "brief" = .ok (some (.running "brief" "pool" 1 10)) := by
    decide +kernel
  have hl : unevenBooks.outside.registrar.find? unevenBooks.store "brief" 1 =
      .ok (some (.lasting .cliff 0 20)) := by decide +kernel
  have hpurged : Succeeds unevenBooks (purgeAt 30 "brief" ++ closingAt 40 "brief" 700) := by
    decide +kernel
  have hclosed : Succeeds unevenBooks (closingAt 40 "brief" 700) := by decide +kernel
  have hlater := closing_of_purged unevenBooks "brief" (.running "brief" "pool" 1 10)
    (.lasting .cliff 0 20) 700 30 40 hp rfl hl (by decide) (by decide) (by decide)
  have hatOnce := closing_of_purged unevenBooks "brief" (.running "brief" "pool" 1 10)
    (.lasting .cliff 0 20) 700 30 30 hp rfl hl (by decide) (by decide) (by decide)
  exact ⟨hp, hl, hpurged, hclosed, hlater.1 hpurged hclosed, by decide +kernel,
    hatOnce.2 rfl (by decide +kernel)⟩

end Session

end StakeLedger
