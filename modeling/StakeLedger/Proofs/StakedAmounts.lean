import StakeLedger.Proofs.WriteSets

/-
  How openings and closings move what is staked in a pool.
  Both roll the pool forward to the present time, where it is what its status tells of it
  (`StatusIs`), and add to it from there: an opening its amount, a closing what it gives back of the
  decay since the expiry less its amount. No amount is looked at by itself; only the pool that comes
  of it must be one. So an opening adds and a closing removes exactly where the amount is not
  negative (`staked_of_opened`, `staked_of_closed`).
-/

namespace StakeLedger

/-- A pool that takes a delta can be rolled forward, and the delta is added to what it is then. -/
theorem Pool.exists_rollForward_of_applyDelta {pool changed : Pool} {now : Int} {delta : Delta}
    (h : pool.applyDelta now delta = .ok changed) :
    ∃ rolled, pool.rollForward now = .ok rolled ∧
      changed.staked.val = rolled.staked.val + delta.staked ∧ changed.asOf = now := by
  obtain ⟨hle, hmax, hs, -, hstaked, hasOf⟩ := applyDelta_eq_ok_iff.mp h
  obtain ⟨rolled, hroll⟩ := exists_rollForward_iff.mpr ⟨hle, hmax, hs⟩
  obtain ⟨-, -, hrolled, -, -⟩ := rollForward_eq_ok_iff.mp hroll
  exact ⟨rolled, hroll, by rw [hstaked, hrolled], hasOf⟩

namespace Service

open Work

variable {books : Books Partners} {p : Position} {l : Lockup} {pool : Pool} {id : String}
  {now amount : Int}

/-- What a closing at a time gives back: the decay of a running position since the expiry of its
lockup. -/
def restoration (p : Position) (l : Lockup) (now : Int) : Int :=
  if p.phase = .running then p.rate.val * l.secondsSinceExpiry now else 0

theorem staked_of_closingDelta {delta : Delta}
    (h : Pools.closingDelta p l.view now amount = .ok delta) :
    delta.staked = restoration p l now - amount := by
  rcases Pools.closingDelta_eq_ok_iff.mp h with ⟨hphase, rfl⟩ | ⟨hphase, expired, hexpired, rfl⟩
  · rw [restoration, if_neg hphase, zero_sub]
  · obtain ⟨-, rfl⟩ := Purge.expiredDelta_eq_ok_iff.mp hexpired
    rw [restoration, if_pos hphase]
    rfl

/-- The status that is told of a pool. -/
def StatusIs (books : Books Partners) (id : String) (pool : Pool) : Prop :=
  ((status id).runOn books).1 = .ok pool

theorem statusIs_iff :
    StatusIs books id pool ↔ ∃ before, books.store.pool? id = .ok (some before) ∧
      before.rollForward books.outside.registrar.clock.now = .ok pool := by
  have hrun : StatusIs books id pool ↔ ∃ after, (status id).runOn books = (.ok pool, after) :=
    ⟨fun h => ⟨_, Prod.ext h rfl⟩, fun ⟨_, h⟩ => congrArg Prod.fst h⟩
  simp only [hrun, status, runOn_bind_ok_iff, runOn_unit_ok_iff, runOn_loadPool_ok_iff,
    runOn_now_ok_iff, runOn_check_ok_iff]
  constructor
  · rintro ⟨_, before, _, ⟨hbefore, rfl⟩, _, _, ⟨rfl, rfl⟩, hroll, rfl⟩
    exact ⟨before, hbefore, hroll⟩
  · rintro ⟨before, hbefore, hroll⟩
    exact ⟨_, before, _, ⟨hbefore, rfl⟩, _, _, ⟨rfl, rfl⟩, hroll, rfl⟩

/-- A pool that has been put at the present time is what its status tells. -/
theorem statusIs_of_put (hstored : books.store.pool? id = .ok (some pool))
    (hasOf : pool.asOf = books.outside.registrar.clock.now) : StatusIs books id pool :=
  statusIs_iff.mpr ⟨pool, hstored, Pool.rollForward_of_asOf hasOf⟩

/-- Before and after a service, the status of a pool differs by an amount. -/
structure MovesBy (books after : Books Partners) (id : String) (amount : Int)
    (before pool : Pool) : Prop where
  told_before : StatusIs books id before
  told_after : StatusIs after id pool
  staked : pool.staked.val = before.staked.val + amount

/-- A pool that takes a delta at the present time, and is put, moves by the delta's amount. -/
theorem exists_movesBy {after : Books Partners} {old : Pool} {delta : Delta}
    (hold : books.store.pool? id = .ok (some old))
    (hchanged : old.applyDelta books.outside.registrar.clock.now delta = .ok pool)
    (hstored : after.store.pool? id = .ok (some pool)) (houtside : after.outside = books.outside) :
    ∃ before, MovesBy books after id delta.staked before pool := by
  obtain ⟨before, hroll, hstaked, hasOf⟩ := Pool.exists_rollForward_of_applyDelta hchanged
  refine ⟨before, statusIs_iff.mpr ⟨old, hold, hroll⟩, statusIs_of_put hstored ?_, hstaked⟩
  rw [houtside, hasOf]

theorem movesBy_of_opened (h : ((openPosition p amount l).runOn books).1 = .ok pool) :
    ∃ before, MovesBy books ((openPosition p amount l).runOn books).2 p.pool amount before
      pool := by
  obtain ⟨old, -, hold, hchanged, hstore, houtside⟩ := runOn_openPosition_ok (Prod.ext h rfl)
  refine exists_movesBy hold hchanged ?_ houtside
  rw [hstore]
  exact Store.pool?_putPool _ _ pool

theorem movesBy_of_closed (h : ((closePosition id amount).runOn books).1 = .ok pool) :
    ∃ p l before, books.store.position? id = .ok (some p) ∧
      books.outside.registrar.find? books.store id p.index = .ok (some l) ∧
      MovesBy books ((closePosition id amount).runOn books).2 p.pool
        (restoration p l books.outside.registrar.clock.now - amount) before pool := by
  obtain ⟨p, l, delta, old, hp, -, hl, hdelta, hold, hchanged, -, hstore, houtside⟩ :=
    exists_runOn_closePosition_iff.mp ⟨_, Prod.ext h rfl, rfl, rfl⟩
  have hstored : ((closePosition id amount).runOn books).2.store.pool? p.pool =
      .ok (some pool) := by
    rw [hstore]
    exact Store.pool?_putPool _ _ pool
  obtain ⟨before, hmoves⟩ := exists_movesBy hold hchanged hstored houtside
  rw [staked_of_closingDelta hdelta] at hmoves
  exact ⟨p, l, before, hp, hl, hmoves⟩

/-- Whatever the amount is: an opening that succeeds leaves no less in the pool than its status has
told, and a closing no more than that with what is given back. -/
def AddsAndRemoves : Prop :=
  ∀ (books : Books Partners) (amount : Int) (before pool : Pool),
    (∀ (p : Position) (l : Lockup), StatusIs books p.pool before →
      ((openPosition p amount l).runOn books).1 = .ok pool →
      before.staked.val ≤ pool.staked.val) ∧
    ∀ (id : String) (p : Position) (l : Lockup), books.store.position? id = .ok (some p) →
      books.outside.registrar.find? books.store id p.index = .ok (some l) →
      StatusIs books p.pool before → ((closePosition id amount).runOn books).1 = .ok pool →
      pool.staked.val ≤
        before.staked.val + restoration p l books.outside.registrar.clock.now

/-- A pool with one position, which falls by 10 and has expired at 20; the time is 30, and lockups
are looked up in the store. -/
def expiredBooks : Books Partners where
  store :=
    { pools := ⟨[("pool", ⟨"1000", "10", .int 0⟩)]⟩
      positions := ⟨[("due", ⟨"pool", .int 0, "10", .int 0, .int 0⟩)]⟩
      lockups := ⟨[(("due", .int 0), ⟨"cliff", .int 0, .int 20⟩)]⟩ }
  outside := { registrar := { clock := { set := some 30 }, lockups := .stored } }

theorem statusIs_expiredBooks : StatusIs expiredBooks "pool" ⟨.capped 700, .capped 10, 30⟩ := by
  unfold StatusIs
  decide +kernel

/-- A position is opened with 400 less than nothing, at the cost of the other one. -/
theorem not_addsAndRemoves : ¬AddsAndRemoves := by
  intro h
  have hopened : ((openPosition (.running "debt" "pool" 0 0) (-400) (.lasting .cliff 0 100)).runOn
      expiredBooks).1 = .ok ⟨.capped 300, .capped 10, 30⟩ := by decide +kernel
  have hle := (h expiredBooks (-400) _ _).1 (.running "debt" "pool" 0 0) _ statusIs_expiredBooks
    hopened
  exact absurd hle (by decide)

/-- An opening that succeeds adds its amount to what the status of the pool has told before. A
closing adds what it gives back and removes its amount. Both put the pool that they answer with,
so its status tells the same. So an opening leaves no less than before, and a closing no more than
before with what it gives back, exactly if the amount is not negative. -/
theorem staked_movesBy_amount (books : Books Partners) (amount : Int) (pool : Pool) :
    (∀ (p : Position) (l : Lockup), ((openPosition p amount l).runOn books).1 = .ok pool →
      ∃ before, MovesBy books ((openPosition p amount l).runOn books).2 p.pool amount before pool ∧
        (before.staked.val ≤ pool.staked.val ↔ 0 ≤ amount)) ∧
    ∀ id : String, ((closePosition id amount).runOn books).1 = .ok pool →
      ∃ p l before, books.store.position? id = .ok (some p) ∧
        books.outside.registrar.find? books.store id p.index = .ok (some l) ∧
        MovesBy books ((closePosition id amount).runOn books).2 p.pool
          (restoration p l books.outside.registrar.clock.now - amount) before pool ∧
        (pool.staked.val ≤
          before.staked.val + restoration p l books.outside.registrar.clock.now ↔ 0 ≤ amount) := by
  constructor
  · intro p l h
    obtain ⟨before, hmoves⟩ := movesBy_of_opened h
    have hstaked := hmoves.staked
    exact ⟨before, hmoves, by omega⟩
  · intro id h
    obtain ⟨p, l, before, hp, hl, hmoves⟩ := movesBy_of_closed h
    have hstaked := hmoves.staked
    exact ⟨p, l, before, hp, hl, hmoves, by omega⟩

/-- At time 30 the pool holds 700. With 500 it holds 1200; the closing of the expired position with
600 left gives back 100. -/
theorem staked_movesBy_amount_expired :
    ((openPosition (.running "next" "pool" 0 5) 500 (.lasting .cliff 0 100)).runOn
        expiredBooks).1 = .ok ⟨.capped 1200, .capped 15, 30⟩ ∧
      (∃ before : Pool, StatusIs expiredBooks "pool" before ∧ before.staked.val = 700) ∧
      ((closePosition "due" 600).runOn expiredBooks).1 = .ok ⟨.capped 200, .capped 0, 30⟩ ∧
      ∃ p l, ∃ before : Pool, expiredBooks.store.position? "due" = .ok (some p) ∧
        StatusIs expiredBooks p.pool before ∧
        200 = before.staked.val + (restoration p l 30 - 600) := by
  have hopened : ((openPosition (.running "next" "pool" 0 5) 500 (.lasting .cliff 0 100)).runOn
      expiredBooks).1 = .ok ⟨.capped 1200, .capped 15, 30⟩ := by decide +kernel
  have hclosed : ((closePosition "due" 600).runOn expiredBooks).1 =
      .ok ⟨.capped 200, .capped 0, 30⟩ := by decide +kernel
  obtain ⟨before, hmoves, -⟩ := (staked_movesBy_amount expiredBooks 500 _).1 _ _ hopened
  obtain ⟨p, l, before', hp, -, hmoves', -⟩ :=
    (staked_movesBy_amount expiredBooks 600 _).2 _ hclosed
  have hstaked : (Amount.capped 1200).val = before.staked.val + 500 := hmoves.staked
  have hbefore : before.staked.val = 700 := by
    have hvalue : (Amount.capped 1200).val = 1200 := by decide
    omega
  exact ⟨hopened, ⟨before, hmoves.told_before, hbefore⟩, hclosed, p, l, before', hp,
    hmoves'.told_before, hmoves'.staked⟩

end Service

end StakeLedger
