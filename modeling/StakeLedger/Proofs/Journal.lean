import StakeLedger.Proofs.Endings
import StakeLedger.Proofs.Listings
import StakeLedger.Transaction

/-
  The store as a journal of saves.
  A journal holds what has been saved, the latest first; what is found in it under a key is the
  value saved last. Transactions on an empty store keep such a journal (`runAll_records`): every
  request is answered from the saves of its own transaction and of those before it that have
  been committed (`Journal.Serves`), a refused save adds nothing, and a transaction that ends
  with a fault leaves the journal that it began with (`Journal.Records`). The rows are compared
  with the journal through the ledger behind them (`Journal.Tallies`).
-/

namespace StakeLedger

/-- A value saved under its key. -/
inductive Save where
  | pool (id : String) (value : Pool)
  | position (value : Position)
  | lockup (id : String) (index : Int) (value : Lockup)
  deriving DecidableEq, Repr

namespace Save

/-- The request for a save. -/
def request : Save → StoreRequest
  | .pool id value => .savePool id value
  | .position value => .savePosition value
  | .lockup id index value => .saveLockup id index value

/-- The table that a save goes to. -/
def table : Save → TableName
  | .pool _ _ => .pools
  | .position _ => .positions
  | .lockup _ _ _ => .lockups

/-- The integers of a save that go to integer columns. -/
def integers : Save → List Int
  | .pool _ value => [value.asOf]
  | .position value => [value.index]
  | .lockup _ index value => [index, value.start, value.stop]

/-- The save carried out on the rows of a store. -/
def write (s : Store) : Save → Except Fault Store
  | .pool id value => s.savePool id value
  | .position value => s.savePosition value
  | .lockup id index value => s.saveLockup id index value

/-- The save carried out on a ledger. -/
def post (g : Ledger) : Save → Except Fault Ledger
  | .pool id value => g.savePool id value
  | .position value => g.savePosition value
  | .lockup id index value => g.saveLockup id index value

/-- The ledger with the value put under its key. -/
def put (g : Ledger) : Save → Ledger
  | .pool id value => g.putPool id value
  | .position value => g.putPosition value
  | .lockup id index value => g.putLockup id index value

theorem write_store (g : Ledger) (save : Save) :
    save.write g.store = (save.post g).map Ledger.store := by
  cases save with
  | pool id value => exact g.savePool_store id value
  | position value => exact g.savePosition_store value
  | lockup id index value => exact g.saveLockup_store id index value

end Save

theorem Ledger.saveLockup_of_not_fits {g : Ledger} {position : String} {index : Int} {l : Lockup}
    (h : ¬(Cell.fits index = true ∧ Cell.fits l.start = true ∧ Cell.fits l.stop = true)) :
    g.saveLockup position index l = .error .cellTooLarge := by
  unfold Ledger.saveLockup Cell.ofInt
  split
  · next hindex =>
    split
    · next hstart =>
      split
      · next hstop => exact absurd ⟨hindex, hstart, hstop⟩ h
      · rfl
    · rfl
  · rfl

/-- What has been saved, the latest first. -/
abbrev Journal := List Save

namespace Journal

/-- The pool saved last under an id. -/
def pool? : Journal → String → Option Pool
  | [], _ => none
  | .pool id' value :: j, id => if id = id' then some value else pool? j id
  | _ :: j, id => pool? j id

/-- The position saved last under an id. -/
def position? : Journal → String → Option Position
  | [], _ => none
  | .position value :: j, id => if id = value.id then some value else position? j id
  | _ :: j, id => position? j id

/-- The lockup saved last for a deposit entry. -/
def lockup? : Journal → String → Int → Option Lockup
  | [], _, _ => none
  | .lockup id' index' value :: j, id, index =>
    if (id, index) = (id', index') then some value else lockup? j id index
  | _ :: j, id, index => lockup? j id index

/-- Why a save after a journal is refused, if it is: before all else for want of access, then
because an integer fits no column, or because it would take back a finalization or a closing. -/
def refusal? (j : Journal) (access : Access) (save : Save) : Option Fault :=
  if access = .readOnly then some (.writeBlocked save.table)
  else if !save.integers.all Cell.fits then some .cellTooLarge
  else match save with
    | .position p =>
      if (j.position? p.id).any (·.phase.isFinalized) && !p.phase.isFinalized then
        some (.finalizedReopened p.id)
      else if (j.position? p.id).any (·.phase.isClosed) && !p.phase.isClosed then
        some (.closedReopened p.id)
      else none
    | _ => none

/-- What a request answers after a journal, and the journal after it. -/
inductive Serves (access : Access) (j : Journal) :
    StoreRequest → Except Fault StoreAnswer → Journal → Prop
  | saved {save : Save} (h : j.refusal? access save = none) :
    Serves access j save.request (.ok .saved) (save :: j)
  | refused {save : Save} {fault : Fault} (h : j.refusal? access save = some fault) :
    Serves access j save.request (.error fault) j
  | pool (id : String) : Serves access j (.getPool id) (.ok (.pool (j.pool? id))) j
  | position (id : String) :
    Serves access j (.getPosition id) (.ok (.position (j.position? id))) j
  | lockup (position : String) {index : Int} (h : Cell.fits index = true) :
    Serves access j (.getLockup position index) (.ok (.lockup (j.lockup? position index))) j
  | lockupTooLarge (position : String) {index : Int} (h : Cell.fits index = false) :
    Serves access j (.getLockup position index) (.error .cellTooLarge) j
  /-- All open positions of the pool, strictly ascending by id, and nothing else. -/
  | openPositions {pool : String} {ps : List Position}
    (hascends : ps.Pairwise fun p q => p.id < q.id)
    (hmem : ∀ p, p ∈ ps ↔ j.position? p.id = some p ∧ p.pool = pool ∧ p.phase = .running) :
    Serves access j (.listOpen pool) (.ok (.positions ps)) j
  | poolIds {ids : List String} (hascends : ids.Pairwise (· < ·))
    (hmem : ∀ id, id ∈ ids ↔ (j.pool? id).isSome) :
    Serves access j .listPools (.ok (.poolIds ids)) j
  | fails (fault : Fault) : Serves access j (.fail fault) (.error fault) j

/-- The requests of a transaction one after another: their outcomes, how they end, and the
journal after them. A fault ends them, unless its request may fail. -/
inductive Runs (access : Access) :
    Journal → List (StoreRequest × Bool) → Transaction.Outcomes → Except Fault Unit → Journal → Prop
  | done (j : Journal) : Runs access j [] [] (.ok ()) j
  | next {j j₁ j' : Journal} {request : StoreRequest} {mayFail : Bool}
    {outcome : Except Fault StoreAnswer} {rest : List (StoreRequest × Bool)}
    {outcomes : Transaction.Outcomes} {ending : Except Fault Unit}
    (hserves : Serves access j request outcome j₁) (hgo : outcome.isOk = true ∨ mayFail = true)
    (hrest : Runs access j₁ rest outcomes ending j') :
    Runs access j ((request, mayFail) :: rest) (outcome :: outcomes) ending j'
  | stop {j j₁ : Journal} {request : StoreRequest} {fault : Fault}
    {rest : List (StoreRequest × Bool)} (hserves : Serves access j request (.error fault) j₁) :
    Runs access j ((request, false) :: rest) [.error fault] (.error fault) j₁

/-- A store holds what a journal tells, and reading it never fails. -/
structure Stored (j : Journal) (s : Store) : Prop where
  pool?_eq : ∀ id, s.pool? id = .ok (j.pool? id)
  position?_eq : ∀ id, s.position? id = .ok (j.position? id)
  lockup?_eq : ∀ position index, Cell.fits index = true →
    s.lockup? position index = .ok (j.lockup? position index)

/-- Transactions one after another from a journal: one that ends well hands its journal on, one
that ends with a fault the journal that it began with. -/
inductive Records : Journal → List Transaction → List Transaction.Course → Prop
  | nil (j : Journal) : Records j [] []
  | committed {j j' : Journal} {t : Transaction} {rest : List Transaction}
    {course : Transaction.Course} {courses : List Transaction.Course}
    (hruns : Runs t.access j t.requests course.outcomes (.ok ()) j')
    (hending : course.ending = .ok ()) (hstored : j'.Stored course.store)
    (hrest : Records j' rest courses) : Records j (t :: rest) (course :: courses)
  | rolledBack {j j' : Journal} {t : Transaction} {rest : List Transaction}
    {course : Transaction.Course} {courses : List Transaction.Course} {fault : Fault}
    (hruns : Runs t.access j t.requests course.outcomes (.error fault) j')
    (hending : course.ending = .error fault) (hstored : j.Stored course.store)
    (hrest : Records j rest courses) : Records j (t :: rest) (course :: courses)

/-! ## Ledgers behind journals -/

/-- A ledger holds what a journal tells. -/
structure Tallies (j : Journal) (g : Ledger) : Prop where
  pools_eq : ∀ id, g.pools.get? id = j.pool? id
  positions_eq : ∀ id, g.positions.get? id = j.position? id
  lockups_eq : ∀ position index, g.lockups.get? (position, index) = j.lockup? position index
  pools_nodup : g.pools.keys.Nodup

variable {j : Journal} {g : Ledger} {access : Access} {save : Save} {fault : Fault}

namespace Tallies

theorem empty : Tallies [] {} := ⟨fun _ => rfl, fun _ => rfl, fun _ _ => rfl, List.nodup_nil⟩

theorem stored (h : j.Tallies g) : j.Stored g.store := by
  refine ⟨fun id => ?_, fun id => ?_, fun position index hfits => ?_⟩
  · rw [g.pool?_store, h.pools_eq]
  · rw [g.position?_store, h.positions_eq]
  · rw [g.lockup?_store, Ledger.lockup?, Cell.ofInt, if_pos hfits, ← h.lockups_eq]
    rfl

/-- A value put under its key is found there, and everything else as before. -/
theorem put (h : j.Tallies g) (save : Save) : Tallies (save :: j) (save.put g) := by
  cases save with
  | pool id value =>
    refine ⟨fun other => ?_, h.positions_eq, h.lockups_eq, Table.nodup_keys_put h.pools_nodup⟩
    rw [pool?, ← h.pools_eq]
    exact g.get?_pools_putPool id other value
  | position value =>
    refine ⟨h.pools_eq, fun other => ?_, h.lockups_eq, h.pools_nodup⟩
    rw [position?, ← h.positions_eq]
    exact Table.get?_put g.positions value.id other value
  | lockup id index value =>
    refine ⟨h.pools_eq, h.positions_eq, fun other otherIndex => ?_, h.pools_nodup⟩
    rw [lockup?, ← h.lockups_eq]
    exact Table.get?_put g.lockups (id, index) (other, otherIndex) value

/-- A save that may write is refused on a ledger as it is after the journal. -/
theorem post_eq (h : j.Tallies g) (save : Save) :
    save.post g = match j.refusal? .readWrite save with
      | none => .ok (save.put g)
      | some fault => .error fault := by
  unfold refusal?
  rw [if_neg (by decide)]
  cases save with
  | pool id pool =>
    show g.savePool id pool = _
    by_cases hfits : Cell.fits pool.asOf = true
    · simp [Ledger.savePool, Cell.ofInt, Save.integers, Save.put, hfits, Except.map]
    · simp [Ledger.savePool, Cell.ofInt, Save.integers, hfits, Except.map]
  | position p =>
    have hindex := p.fits_index
    show g.savePosition p = _
    rw [Ledger.savePosition, h.positions_eq]
    cases hearlier : j.position? p.id with
    | none => simp [Store.checkPhase, Save.integers, Save.put, hindex, Except.map, hearlier]
    | some earlier =>
      simp only [Store.checkPhase, Save.integers, Save.put, hindex, hearlier, List.all_cons,
        List.all_nil, Bool.and_self, Bool.not_true, Bool.false_eq_true, if_false,
        Option.any_some]
      split
      · rfl
      · split <;> rfl
  | lockup position index l =>
    show g.saveLockup position index l = _
    by_cases hfits : Cell.fits index = true ∧ Cell.fits l.start = true ∧ Cell.fits l.stop = true
    · rw [Ledger.saveLockup_eq_ok_iff.mpr ⟨hfits, rfl⟩]
      simp [Save.integers, Save.put, hfits]
    · have hsome : ¬([index, l.start, l.stop].all Cell.fits = true) := by
        simpa only [List.all_cons, List.all_nil, Bool.and_eq_true, and_true] using hfits
      rw [Ledger.saveLockup_of_not_fits hfits]
      simp only [Save.integers, hsome, Bool.not_false, if_true]

end Tallies

/-! ## Requests -/

variable {ω : Type} {books : Books ω} {request : StoreRequest}

theorem run_save (access : Access) (save : Save) :
    (save.request.run access : Work ω StoreAnswer) =
      access.guard save.table >>= fun _ =>
        Work.writeStore (fun s => save.write s) >>= fun _ => pure .saved := by
  cases save <;> exact bind_assoc _ _ _

/-- A save in a read-only transaction is refused before anything else. -/
theorem runOn_save_readOnly (save : Save) (books : Books ω) :
    ∃ log, (save.request.run .readOnly).runOn books =
      (.error (.writeBlocked save.table), { books with log := log }) := by
  rw [run_save]
  exact ⟨_, rfl⟩

theorem runOn_save_readWrite (save : Save) (books : Books ω) :
    (save.request.run .readWrite).runOn books =
      match save.write books.store with
      | .ok s => (.ok .saved, { books with store := s })
      | .error fault => (.error fault, books) := by
  have hread : (Work.readStore fun s => save.write s).runOn books =
      (save.write books.store, books) := rfl
  rw [run_save, Work.guard_readWrite, pure_bind, Work.writeStore, bind_assoc, Work.runOn_bind,
    hread]
  cases save.write books.store <;> rfl

/-- The answer to a request, and the books after it, are as the journal tells. -/
def Answered (access : Access) (j : Journal) (request : StoreRequest) (books : Books ω)
    (r : Except Fault StoreAnswer × Books ω) : Prop :=
  ∃ j' g', j.Serves access request r.1 j' ∧ j'.Tallies g' ∧ r.2.store = g'.store ∧
    r.2.outside = books.outside

theorem answered_save (h : j.Tallies g) (hbooks : books.store = g.store) (access : Access)
    (save : Save) :
    j.Answered access save.request books ((save.request.run access).runOn books) := by
  cases access with
  | readOnly =>
    obtain ⟨log, hrun⟩ := runOn_save_readOnly save books
    rw [hrun]
    exact ⟨j, g, .refused rfl, h, hbooks, rfl⟩
  | readWrite =>
    rw [runOn_save_readWrite, hbooks, Save.write_store, h.post_eq]
    cases hrefusal : j.refusal? .readWrite save with
    | none => exact ⟨save :: j, save.put g, .saved hrefusal, h.put save, rfl, rfl⟩
    | some fault => exact ⟨j, g, .refused hrefusal, h, hbooks, rfl⟩

theorem answered_read {α : Type} (h : j.Tallies g) (hbooks : books.store = g.store)
    (look : Store → Except Fault α) (answer : α → StoreAnswer)
    (hserves : j.Serves access request ((look g.store).map answer) j) :
    j.Answered access request books
      ((do pure (answer (← Work.readStore look)) : Work ω StoreAnswer).runOn books) := by
  rw [Work.runOn_bind_pure]
  rw [← hbooks] at hserves
  exact ⟨j, g, hserves, h, hbooks, rfl⟩

/-- Every request is served as the journal tells. -/
theorem answered (h : j.Tallies g) (hbooks : books.store = g.store) (access : Access)
    (request : StoreRequest) :
    j.Answered access request books ((request.run access).runOn books) := by
  cases request with
  | savePool id pool => exact answered_save h hbooks access (.pool id pool)
  | savePosition p => exact answered_save h hbooks access (.position p)
  | saveLockup position index l => exact answered_save h hbooks access (.lockup position index l)
  | fail fault => exact ⟨j, g, .fails fault, h, hbooks, rfl⟩
  | listPools =>
    refine ⟨j, g, ?_, h, hbooks, rfl⟩
    show j.Serves access _ (.ok (.poolIds books.store.poolIds)) j
    rw [hbooks, g.poolIds_store]
    refine .poolIds (Ledger.pairwise_poolIds h.pools_nodup) fun id => ?_
    rw [Ledger.mem_poolIds, h.pools_eq]
  | getPool id =>
    refine answered_read h hbooks _ _ ?_
    rw [h.stored.pool?_eq]
    exact .pool id
  | getPosition id =>
    refine answered_read h hbooks _ _ ?_
    rw [h.stored.position?_eq]
    exact .position id
  | listOpen pool =>
    refine answered_read h hbooks _ _ ?_
    rw [g.openPositions_store]
    refine .openPositions (g.pairwise_openPositions pool) fun p => ?_
    rw [Ledger.mem_openPositions, h.positions_eq]
  | getLockup position index =>
    refine answered_read h hbooks _ _ ?_
    by_cases hfits : Cell.fits index = true
    · rw [h.stored.lockup?_eq position index hfits]
      exact .lockup position hfits
    · rw [g.lockup?_store, Ledger.lockup?, Cell.ofInt, if_neg hfits]
      exact .lockupTooLarge position (Bool.eq_false_iff.mpr hfits)

/-- A request is for a save, or it only reads. -/
theorem save_or_readsOnly (request : StoreRequest) :
    (∃ save : Save, request = save.request) ∨
      ∀ access, Work.ReadsOnly (request.run access : Work ω StoreAnswer) := by
  have hread : ∀ {α : Type} (look : Store → Except Fault α) (answer : α → StoreAnswer),
      Work.ReadsOnly (do pure (answer (← Work.readStore look)) : Work ω StoreAnswer) :=
    fun look _ => (Work.readsOnly_readStore look).bind fun _ => Work.readsOnly_pure _
  cases request with
  | savePool id pool => exact .inl ⟨.pool id pool, rfl⟩
  | savePosition p => exact .inl ⟨.position p, rfl⟩
  | saveLockup position index l => exact .inl ⟨.lockup position index l, rfl⟩
  | getPool id => exact .inr fun _ => hread _ _
  | listPools => exact .inr fun _ _ => ⟨rfl, rfl⟩
  | getPosition id => exact .inr fun _ => hread _ _
  | listOpen pool => exact .inr fun _ => hread _ _
  | getLockup position index => exact .inr fun _ => hread _ _
  | fail fault => exact .inr fun _ => Work.readsOnly_throw fault

/-- A request that is refused or fails leaves the store as it was. -/
theorem store_of_error {after : Books ω}
    (h : (request.run access).runOn books = (.error fault, after)) :
    after.store = books.store := by
  rcases save_or_readsOnly (ω := ω) request with ⟨save, rfl⟩ | hreads
  · cases access with
    | readOnly =>
      obtain ⟨log, hrun⟩ := runOn_save_readOnly save books
      rw [hrun] at h
      cases h
      rfl
    | readWrite =>
      rw [runOn_save_readWrite] at h
      split at h
      · cases h
      · cases h
        rfl
  · exact ((hreads access).of_runOn h).1

/-- Why a save is refused: in a read-only transaction always because of that, else a position
because of its phase and all other saves because of an integer too large. -/
theorem label_of_refusal (h : j.refusal? access save = some fault) :
    fault.label =
      if access = .readOnly then "PermissionError"
      else if !save.integers.all Cell.fits then "OverflowError"
      else "ValueError" := by
  unfold refusal? at h
  split at h
  · next hreadOnly => cases h; rw [if_pos hreadOnly]; rfl
  · next hreadWrite =>
    rw [if_neg hreadWrite]
    split at h
    · next hlarge => cases h; rw [if_pos hlarge]; rfl
    · next hfits =>
      rw [if_neg hfits]
      split at h
      · split at h
        · cases h; rfl
        · split at h
          · cases h; rfl
          · cases h
      · cases h

/-! ## Transactions -/

/-- The requests of a transaction are served one after another. -/
theorem exists_runs (access : Access) (requests : List (StoreRequest × Bool))
    {books : Books Transaction.Outcomes} (h : j.Tallies g) (hbooks : books.store = g.store) :
    ∃ outcomes ending after j' g',
      (requests.forM fun request => Transaction.report access request.1 request.2).runOn books =
        (ending, after) ∧
      Runs access j requests outcomes ending j' ∧ j'.Tallies g' ∧ after.store = g'.store ∧
      after.outside = books.outside ++ outcomes := by
  induction requests generalizing j g books with
  | nil => exact ⟨[], .ok (), books, j, g, rfl, .done j, h, hbooks, (List.append_nil _).symm⟩
  | cons first rest ih =>
    obtain ⟨request, mayFail⟩ := first
    obtain ⟨j₁, g₁, hserves, htallies, hstore, houtside⟩ := answered h hbooks access request
    rcases hrun : (request.run access).runOn books with ⟨outcome, mid⟩
    rw [hrun] at hserves hstore houtside
    have hreport : (Transaction.report access request mayFail).runOn books =
        (if mayFail then .ok () else outcome.map fun _ => (),
          { mid with outside := books.outside ++ [outcome] }) := by
      rw [← houtside, Transaction.report, Work.runOn_ofRun, hrun]
    by_cases hgo : outcome.isOk = true ∨ mayFail = true
    · have hpasses : (if mayFail then .ok () else outcome.map fun _ => ()) = .ok () := by
        rcases hgo with hok | rfl
        · cases outcome with
          | ok answer => exact ite_self _
          | error fault => cases hok
        · rfl
      rw [hpasses] at hreport
      have hmid : ({ mid with outside := books.outside ++ [outcome] } :
          Books Transaction.Outcomes).store = g₁.store := hstore
      obtain ⟨outcomes, ending, after, j', g', hrest, hruns, htallies', hstore', houtside'⟩ :=
        ih htallies hmid
      refine ⟨outcome :: outcomes, ending, after, j', g', ?_, .next hserves hgo hruns, htallies',
        hstore', ?_⟩
      · show (Transaction.report access request mayFail >>= _).runOn books = _
        rw [Work.runOn_bind, hreport]
        exact hrest
      · rw [houtside', List.append_assoc]
        rfl
    · obtain ⟨hfails, hmust⟩ := not_or.mp hgo
      cases outcome with
      | ok answer => exact absurd rfl hfails
      | error fault =>
        obtain rfl := Bool.eq_false_iff.mpr hmust
        refine ⟨[.error fault], .error fault,
          { mid with outside := books.outside ++ [.error fault] },
          j₁, g₁, ?_, .stop hserves, htallies, hstore, rfl⟩
        show (Transaction.report access request false >>= _).runOn books = _
        rw [Work.runOn_bind, hreport]
        rfl

/-- A transaction on a store that holds what a journal tells. -/
theorem exists_records (h : j.Tallies g) (ts : List Transaction) :
    Records j ts (Transaction.runAll g.store ts) := by
  induction ts generalizing j g with
  | nil => exact .nil j
  | cons t rest ih =>
    have hfresh : ({ store := g.store, outside := [] } : Books Transaction.Outcomes).store =
        g.store := rfl
    obtain ⟨outcomes, ending, after, j', g', hrun, hruns, htallies, hstore, houtside⟩ :=
      exists_runs t.access t.requests h hfresh
    rw [List.nil_append] at houtside
    show Records j (t :: rest) (t.run g.store :: Transaction.runAll (t.run g.store).store rest)
    cases ending with
    | ok u =>
      have hcourse : t.run g.store = ⟨outcomes, .ok (), g'.store, after.log⟩ := by
        rw [Transaction.run, Transaction.work, Work.unit, Work.runOn_ofRun, hrun, ← houtside,
          ← hstore]
      rw [hcourse]
      exact .committed hruns rfl htallies.stored (ih htallies)
    | error fault =>
      have hcourse : ∃ log, t.run g.store = ⟨outcomes, .error fault, g.store, log⟩ := by
        rw [Transaction.run, Transaction.work, Work.unit, Work.runOn_ofRun, hrun, ← houtside]
        exact ⟨_, rfl⟩
      obtain ⟨log, hcourse⟩ := hcourse
      rw [hcourse]
      exact .rolledBack hruns rfl h.stored (ih h)

end Journal

/-- Transactions on an empty store keep a journal: every request is answered from the last saves
of its own transaction and of the committed ones before it, and only commits add to it. A save is
refused for its access before its integers, and for its integers before its phase; whatever fails
leaves the store as it was. -/
theorem Transaction.runAll_records (ts : List Transaction) :
    Journal.Records [] ts (Transaction.runAll {} ts) ∧
      (∀ (j : Journal) access save fault, j.refusal? access save = some fault →
        fault.label =
          if access = .readOnly then "PermissionError"
          else if !save.integers.all Cell.fits then "OverflowError"
          else "ValueError") ∧
      ∀ (request : StoreRequest) access (books after : Books Transaction.Outcomes) fault,
        (request.run access).runOn books = (.error fault, after) → after.store = books.store :=
  ⟨Journal.exists_records .empty ts, fun _ _ _ _ => Journal.label_of_refusal,
    fun _ _ _ _ _ => Journal.store_of_error⟩

end StakeLedger
