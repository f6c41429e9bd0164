import StakeLedger.Proofs.Ledger
import StakeLedger.Work

/-
  Postings: changes of a ledger that happen as a whole or not at all.
  A posting gives a result and a new ledger, or a fault and nothing else. It says what a unit of
  work does to the store without the log and the context that the work keeps beside it. Work
  that performs a posting (`Performs`) ends with its result, leaves the store of its ledger, and
  touches the log only; work that is still open (`Carries`) may leave any store at a fault,
  which the unit around it takes back (`Carries.unit`).
-/

namespace StakeLedger

/-- A change of a ledger with a result, or a fault. -/
abbrev Posting (α : Type) : Type := StateT Ledger (Except Fault) α

namespace Posting

variable {α β : Type}

/-- The result of a check. -/
def check (r : Except Fault α) : Posting α := StateT.lift r

/-- Looks something up in the ledger. -/
def read (f : Ledger → Except Fault α) : Posting α := fun g => (f g).map fun a => (a, g)

/-- Changes the ledger. -/
def write (f : Ledger → Except Fault Ledger) : Posting Unit := fun g => (f g).map fun g' => ((), g')

/-- What has been found, if anything has. -/
def require (found : Option α) (fault : Fault) : Posting α :=
  match found with
  | some a => pure a
  | none => throw fault

/-- The result of a posting. -/
def result (t : Posting α) (g : Ledger) : Except Fault α := (t.run g).map (·.1)

/-- The ledger after a posting: the one before it at a fault. -/
def after (t : Posting α) (g : Ledger) : Ledger :=
  match t.run g with
  | .ok (_, g') => g'
  | .error _ => g

variable {t : Posting α} {u : α → Posting β} {g g' : Ledger} {a : α} {b : β} {fault : Fault}

theorem run_pure_ok_iff {x : α} :
    (pure a : Posting α).run g = .ok (x, g') ↔ x = a ∧ g' = g := by
  show Except.ok (a, g) = .ok (x, g') ↔ _
  simp [eq_comm]

theorem run_throw_ok_iff :
    (throw fault : Posting α).run g = .ok (a, g') ↔ False := by
  show Except.error fault = .ok (a, g') ↔ _
  simp

theorem run_check_ok_iff {r : Except Fault α} :
    (check r).run g = .ok (a, g') ↔ r = .ok a ∧ g' = g := by
  cases r with
  | error e =>
    show Except.error e = .ok (a, g') ↔ _
    simp
  | ok x =>
    show Except.ok (x, g) = .ok (a, g') ↔ _
    simp [eq_comm]

theorem run_read_ok_iff {f : Ledger → Except Fault α} :
    (read f).run g = .ok (a, g') ↔ f g = .ok a ∧ g' = g := by
  show (f g).map _ = .ok (a, g') ↔ _
  cases f g with
  | error e => simp [Except.map]
  | ok x => simp [Except.map, eq_comm]

theorem run_write_ok_iff {f : Ledger → Except Fault Ledger} {x : Unit} :
    (write f).run g = .ok (x, g') ↔ f g = .ok g' := by
  show (f g).map _ = .ok (x, g') ↔ _
  cases f g with
  | error e => simp [Except.map]
  | ok y => simp [Except.map]

theorem run_require_ok_iff {found : Option α} :
    (require found fault).run g = .ok (a, g') ↔ found = some a ∧ g' = g := by
  cases found with
  | none => simp only [require, run_throw_ok_iff, reduceCtorEq, false_and]
  | some x =>
    simp only [require, run_pure_ok_iff, Option.some.injEq]
    rw [eq_comm]

/-- A posting goes on where it has not failed. -/
theorem run_bind_ok_iff :
    (t >>= u).run g = .ok (b, g') ↔ ∃ a g₁, t.run g = .ok (a, g₁) ∧ (u a).run g₁ = .ok (b, g') := by
  show (t.run g >>= fun r => (u r.1).run r.2) = .ok (b, g') ↔ _
  rw [bind_eq_ok_iff]
  constructor
  · rintro ⟨⟨a, g₁⟩, ht, hu⟩
    exact ⟨a, g₁, ht, hu⟩
  · rintro ⟨a, g₁, ht, hu⟩
    exact ⟨(a, g₁), ht, hu⟩

theorem not_run_throw_bind {v : β → Posting α} :
    ¬ ((throw fault : Posting β) >>= v).run g = .ok (a, g') := by
  rw [run_bind_ok_iff]
  rintro ⟨_, _, h, -⟩
  exact run_throw_ok_iff.mp h

theorem result_of_run (h : t.run g = .ok (a, g')) : t.result g = .ok a := by
  rw [result, h]
  rfl

theorem after_of_run (h : t.run g = .ok (a, g')) : t.after g = g' := by
  rw [after, h]

theorem run_of_result (h : t.result g = .ok a) : t.run g = .ok (a, t.after g) := by
  rw [result] at h
  rw [after]
  cases hrun : t.run g with
  | error e => rw [hrun] at h; cases h
  | ok r => rw [hrun] at h; cases h; rfl

theorem after_of_error (h : t.result g = .error fault) : t.after g = g := by
  rw [result] at h
  rw [after]
  cases hrun : t.run g with
  | error e => rfl
  | ok r => rw [hrun] at h; cases h

/-- What a ledger has before a posting, and after it if it ends well, it has after it. -/
theorem keeps {P : Ledger → Prop} (hg : P g) (h : ∀ a g', t.run g = .ok (a, g') → P g') :
    P (t.after g) := by
  cases hresult : t.result g with
  | error fault =>
    rw [after_of_error hresult]
    exact hg
  | ok a => exact h a _ (run_of_result hresult)

theorem result_bind_of_ok (h : t.result g = .ok a) :
    (t >>= u).result g = (u a).result (t.after g) := by
  show (t.run g >>= fun r => (u r.1).run r.2).map (·.1) = _
  rw [run_of_result h]
  rfl

theorem after_bind_of_ok {c : β} (h : t.result g = .ok a) (hc : (u a).result (t.after g) = .ok c) :
    (t >>= u).after g = (u a).after (t.after g) := by
  apply after_of_run
  exact run_bind_ok_iff.mpr ⟨a, t.after g, run_of_result h, run_of_result hc⟩

theorem result_bind_of_error (h : t.result g = .error fault) :
    (t >>= u).result g = .error fault := by
  rw [result] at h
  show (t.run g >>= fun r => (u r.1).run r.2).map (·.1) = _
  cases hrun : t.run g with
  | error e => rw [hrun] at h; cases h; rfl
  | ok r => rw [hrun] at h; cases h

/-- A posting that changes nothing. -/
def Looks (t : Posting α) : Prop := ∀ g, t.after g = g

theorem looks_pure (a : α) : Looks (pure a) := fun _ => rfl

theorem looks_throw (fault : Fault) : Looks (throw fault : Posting α) := fun _ => rfl

theorem looks_require (found : Option α) (fault : Fault) : Looks (require found fault) := by
  cases found with
  | none => exact looks_throw fault
  | some a => exact looks_pure a

theorem looks_check (r : Except Fault α) : Looks (check r) := by
  intro g
  cases r <;> rfl

theorem looks_read (f : Ledger → Except Fault α) : Looks (read f) := by
  intro g
  cases hresult : (read f).result g with
  | error fault => exact after_of_error hresult
  | ok a => exact (run_read_ok_iff.mp (run_of_result hresult)).2

theorem Looks.bind (h : t.Looks) (hu : ∀ a, (u a).Looks) : (t >>= u).Looks := by
  intro g
  cases hresult : (t >>= u).result g with
  | error fault => exact after_of_error hresult
  | ok b =>
    obtain ⟨a, g₁, ht, hb⟩ := run_bind_ok_iff.mp (run_of_result hresult)
    rw [← after_of_run hb, hu, ← after_of_run ht, h]

/-- A posting that ends well keeps a property of ledgers. -/
def Preserves (P : Ledger → Prop) (t : Posting α) : Prop :=
  ∀ g a g', P g → t.run g = .ok (a, g') → P g'

theorem Preserves.after {P : Ledger → Prop} (h : t.Preserves P) (hg : P g) : P (t.after g) :=
  keeps hg fun a g' hrun => h g a g' hg hrun

theorem Looks.preserves (h : t.Looks) (P : Ledger → Prop) : t.Preserves P := by
  intro g a g' hg hrun
  rw [← after_of_run hrun, h g]
  exact hg

theorem Preserves.bind {P : Ledger → Prop} (h : t.Preserves P) (hu : ∀ a, (u a).Preserves P) :
    (t >>= u).Preserves P := by
  intro g b g' hg hrun
  obtain ⟨a, g₁, ht, hrest⟩ := run_bind_ok_iff.mp hrun
  exact hu a g₁ b g' (h g a g₁ hg ht) hrest

theorem preserves_throw_bind {P : Ledger → Prop} (fault : Fault) (u : α → Posting β) :
    ((throw fault : Posting α) >>= u).Preserves P :=
  fun _ _ _ _ hrun => absurd hrun not_run_throw_bind

/-- After a posting that changes nothing the next one finds the ledger as it was. -/
theorem result_bind_of_looks (h : t.Looks) :
    (t >>= u).result g = t.result g >>= fun a => (u a).result g := by
  cases hresult : t.result g with
  | error fault => exact result_bind_of_error hresult
  | ok a =>
    rw [result_bind_of_ok hresult, h g]
    rfl

end Posting

namespace Work

variable {ω α β : Type} {outside : ω} {work : Work ω α} {next : α → Work ω β}
  {t : Posting α} {u : α → Posting β}

/-- The work performs a posting, whatever books it runs on. -/
def Performs (outside : ω) (work : Work ω α) (t : Posting α) : Prop :=
  ∀ (books : Books ω) (g : Ledger), books.outside = outside → books.store = g.store →
    ∃ log, work.runOn books = (t.result g,
      { books with store := (t.after g).store, log := books.log ++ log })

/-- The work does the same as a posting as far as the posting goes; at a fault it leaves some
store. -/
def Carries (outside : ω) (work : Work ω α) (t : Posting α) : Prop :=
  ∀ (books : Books ω) (g : Ledger), books.outside = outside → books.store = g.store →
    ∃ log store,
      work.runOn books = (t.result g, { books with store := store, log := books.log ++ log }) ∧
      ∀ a, t.result g = .ok a → store = (t.after g).store

theorem Performs.carries (h : Performs outside work t) : Carries outside work t := by
  intro books g hbooks hstore
  obtain ⟨log, hrun⟩ := h books g hbooks hstore
  exact ⟨log, _, hrun, fun _ _ => rfl⟩

/-- A unit of work takes back what its work has done to the store before a fault. -/
theorem Carries.unit (h : Carries outside work t) : Performs outside (Work.unit work) t := by
  intro books g hbooks hstore
  obtain ⟨log, store, hrun, hafter⟩ := h books g hbooks hstore
  unfold Work.unit
  rw [runOn_ofRun, hrun]
  cases hresult : t.result g with
  | ok a =>
    refine ⟨log, ?_⟩
    rw [← hafter a hresult]
  | error fault =>
    refine ⟨log ++ [rollbackRecord books.context fault], ?_⟩
    rw [Posting.after_of_error hresult, hstore, ← List.append_assoc]

theorem Carries.bind (h : Carries outside work t) (hnext : ∀ a, Carries outside (next a) (u a)) :
    Carries outside (work >>= next) (t >>= u) := by
  intro books g hbooks hstore
  obtain ⟨log, store, hrun, hafter⟩ := h books g hbooks hstore
  rw [runOn_bind, hrun]
  cases hresult : t.result g with
  | ok a =>
    obtain ⟨log', store', hrun', hafter'⟩ :=
      hnext a { books with store := store, log := books.log ++ log } (t.after g) hbooks
        (hafter a hresult)
    refine ⟨log ++ log', store', ?_, ?_⟩
    · rw [Posting.result_bind_of_ok hresult, ← List.append_assoc]
      exact hrun'
    · intro b hb
      rw [Posting.result_bind_of_ok hresult] at hb
      rw [Posting.after_bind_of_ok hresult hb]
      exact hafter' b hb
  | error fault =>
    refine ⟨log, store, ?_, ?_⟩
    · rw [Posting.result_bind_of_error hresult]
    · intro b hb
      rw [Posting.result_bind_of_error hresult] at hb
      cases hb

/-- Work in a frame of the context does to the store what it does outside the frame. -/
theorem Carries.within (frame : Log.Context) (h : Carries outside work t) :
    Carries outside (Work.within frame work) t := by
  intro books g hbooks hstore
  obtain ⟨log, store, hrun, hafter⟩ :=
    h { books with context := books.context.bind frame } g hbooks hstore
  refine ⟨log, store, ?_, hafter⟩
  unfold Work.within
  rw [runOn_ofRun, hrun]
  simp only [Log.Context.leave_bind]

/-! ## What the parts of units carry -/

theorem performs_pure (a : α) : Performs outside (pure a) (pure a) := by
  intro books g _ hstore
  refine ⟨[], ?_⟩
  rw [runOn_pure, List.append_nil, Posting.looks_pure a g, ← hstore]
  rfl

theorem performs_check (r : Except Fault α) : Performs outside (check r) (Posting.check r) := by
  intro books g _ hstore
  refine ⟨[], ?_⟩
  rw [check, runOn_ofRun, List.append_nil, Posting.looks_check r g, ← hstore]
  cases r <;> rfl

theorem performs_throw (fault : Fault) :
    Performs (α := α) outside (throw fault) (throw fault) := by
  intro books g _ hstore
  refine ⟨[], ?_⟩
  rw [runOn_throw, List.append_nil, Posting.looks_throw fault g, ← hstore]
  rfl

theorem performs_require {found : Option α} {fault : Fault}
    (hnone : found = none → work = throw fault) (hsome : ∀ a, found = some a → work = pure a) :
    Performs outside work (Posting.require found fault) := by
  cases found with
  | none =>
    rw [hnone rfl]
    exact performs_throw fault
  | some a =>
    rw [hsome a rfl]
    exact performs_pure a

theorem runOn_readStore (f : Store → Except Fault α) (books : Books ω) :
    (readStore f).runOn books = (f books.store, books) := rfl

theorem performs_readStore {f : Store → Except Fault α} {f' : Ledger → Except Fault α}
    (h : ∀ g, f g.store = f' g) : Performs outside (readStore f) (Posting.read f') := by
  intro books g _ hstore
  have hresult : (Posting.read f').result g = f' g := by
    show ((f' g).map _).map _ = f' g
    cases f' g <;> rfl
  refine ⟨[], ?_⟩
  rw [runOn_readStore, List.append_nil, Posting.looks_read f' g, hresult, ← h, ← hstore]

theorem carries_writeStore {f : Store → Except Fault Store} {f' : Ledger → Except Fault Ledger}
    (h : ∀ g, f g.store = (f' g).map Ledger.store) :
    Carries outside (writeStore f) (Posting.write f') := by
  intro books g _ hstore
  rw [writeStore, runOn_bind, runOn_readStore, hstore, h]
  cases hf : f' g with
  | error fault =>
    have hresult : (Posting.write f').result g = .error fault := by
      show ((f' g).map _).map _ = _
      rw [hf]
      rfl
    refine ⟨[], books.store, ?_, fun a ha => ?_⟩
    · rw [hresult, List.append_nil]
      rfl
    · rw [hresult] at ha
      cases ha
  | ok g' =>
    have hrun : (Posting.write f').run g = .ok ((), g') := Posting.run_write_ok_iff.mpr hf
    refine ⟨[], g'.store, ?_, fun _ _ => by rw [Posting.after_of_run hrun]⟩
    rw [Posting.result_of_run hrun, List.append_nil]
    rfl

theorem performs_emit (level : Int) (logger message : String) (extra : List (String × Json))
    (trouble : Option Log.Trouble) :
    Performs outside (emit level logger message extra trouble) (pure ()) := by
  intro books g _ hstore
  refine ⟨[⟨level, logger, message, extra, books.context, trouble⟩], ?_⟩
  rw [Posting.looks_pure () g, ← hstore]
  rfl

/-! ## Units after one another -/

/-- Work that only looks, then work that performs a posting. -/
theorem Performs.bind_of_look (h : Performs outside work t) (hlook : t.Looks)
    (hnext : ∀ a, Performs outside (next a) (u a)) :
    Performs outside (work >>= next) (t >>= u) := by
  intro books g hbooks hstore
  obtain ⟨log, hrun⟩ := h books g hbooks hstore
  rw [runOn_bind, hrun, hlook g, ← hstore]
  cases hresult : t.result g with
  | ok a =>
    obtain ⟨log', hrun'⟩ := hnext a { books with log := books.log ++ log } g hbooks hstore
    refine ⟨log ++ log', ?_⟩
    have hresultBind : (t >>= u).result g = (u a).result g := by
      rw [Posting.result_bind_of_ok hresult, hlook]
    have hafterBind : (t >>= u).after g = (u a).after g := by
      cases hresult' : (u a).result g with
      | ok b =>
        rw [Posting.after_bind_of_ok (c := b) hresult (by rw [hlook]; exact hresult'), hlook]
      | error fault =>
        rw [Posting.after_of_error hresult', Posting.after_of_error (hresultBind.trans hresult')]
    rw [hresultBind, hafterBind, ← List.append_assoc]
    exact hrun'
  | error fault =>
    refine ⟨log, ?_⟩
    have hbind : (t >>= u).result g = .error fault := Posting.result_bind_of_error hresult
    rw [hbind, Posting.after_of_error hbind, ← hstore]

/-- Work that performs a posting, then work that cannot fail and leaves the store alone. -/
theorem Performs.bind_of_pure {f : α → β} (h : Performs outside work t)
    (hnext : ∀ a, Performs outside (next a) (pure (f a))) :
    Performs outside (work >>= next) (t >>= fun a => pure (f a)) := by
  intro books g hbooks hstore
  obtain ⟨log, hrun⟩ := h books g hbooks hstore
  rw [runOn_bind, hrun]
  cases hresult : t.result g with
  | ok a =>
    obtain ⟨log', hrun'⟩ := hnext a
      { books with store := (t.after g).store, log := books.log ++ log } (t.after g) hbooks rfl
    refine ⟨log ++ log', ?_⟩
    rw [Posting.result_bind_of_ok hresult, ← List.append_assoc,
      Posting.after_bind_of_ok (c := f a) hresult rfl]
    exact hrun'
  | error fault =>
    refine ⟨log, ?_⟩
    have hbind : (t >>= fun a => pure (f a)).result g = .error fault :=
      Posting.result_bind_of_error hresult
    rw [hbind, Posting.after_of_error hbind, Posting.after_of_error hresult]

end Work

end StakeLedger
