import StakeLedger.Proofs.Foreseen
import StakeLedger.Proofs.Listings
import StakeLedger.Proofs.RemoteSweeps
import StakeLedger.Proofs.Times

/-
  Faults of the services.
  The services work at one time, under rules for purges, and perhaps with a client of a trigger
  service (`Terms`). What they find is the store of a ledger whose times fit their columns, and
  they leave one (`Terms.Hold`); where they fail, the fault is a foreseen one, if the client is
  one to rely on (`Terms.Expects`). Both are said together by `Work.Under`, for each service
  from its parts.
-/

namespace StakeLedger

/-- The times of all pools and of all lockups fit their columns. -/
structure Ledger.Fits (g : Ledger) : Prop where
  pools : g.Timed
  lockups : ∀ key l, g.lockups.get? key = some l → l.Fits

theorem Ledger.fits_empty : Ledger.Fits {} := ⟨timed_empty, fun _ _ h => by cases h⟩

/-- The terms under which services are carried out: the time, the rules for purges, whether the
client is one to rely on, and whether a time may be too wide for its column. -/
structure Terms where
  time : Int
  policy : Purge.Policy
  trusted : Prop
  wide : Prop
  time_fits : wide ∨ Cell.fits time = true
  followup_fits : Text.fitsNumeral policy.followup = true

namespace Terms

/-- A fault to be expected: one that can be shown, and with a client to rely on a foreseen one. -/
structure Expects (t : Terms) (fault : Fault) : Prop where
  showable : fault.Showable t.wide
  foreseen : t.trusted → fault.Foreseen t.wide

/-- A client that fits the terms. -/
structure Serves (t : Terms) (client : TriggerClient) : Prop where
  attempts_fits : Text.fitsNumeral client.policy.attempts = true
  dependable : t.trusted → client.Dependable

/-- Books that the terms hold of. -/
structure Hold (t : Terms) (books : Books Partners) : Prop where
  exists_ledger : ∃ g : Ledger, books.store = g.store ∧ g.Fits
  lockups_eq : books.outside.registrar.lockups = .stored
  now_eq : books.outside.registrar.clock.now = t.time
  policy_eq : books.outside.policy = t.policy
  serves : ∀ client, books.outside.scheduler = .remote client → t.Serves client

end Terms

variable {t : Terms} {α β : Type}

namespace Work

/-- The work keeps what the terms hold of, and ends well, with a value of which `Q` holds, or with
a fault of which `E` holds. -/
def Under (t : Terms) (work : Service α) (Q : α → Prop) (E : Fault → Prop) : Prop :=
  ∀ books, t.Hold books →
    t.Hold (work.runOn books).2 ∧ Yields (work.runOn books).1 Q E

variable {work : Service α} {next : α → Service β} {Q Q' : α → Prop} {R : β → Prop}
  {E E' : Fault → Prop}

theorem Under.bind (h : Under t work Q E) (hnext : ∀ a, Q a → Under t (next a) R E) :
    Under t (work >>= next) R E := by
  intro books hbooks
  obtain ⟨hmid, hresult⟩ := h books hbooks
  rw [runOn_bind]
  rcases hrun : work.runOn books with ⟨result, mid⟩
  rw [hrun] at hmid hresult
  cases result with
  | error fault => exact ⟨hmid, hresult⟩
  | ok a => exact hnext a hresult mid hmid

theorem Under.mono (h : Under t work Q E) (hQ : ∀ a, Q a → Q' a)
    (hE : ∀ fault, E fault → E' fault) : Under t work Q' E' := fun books hbooks =>
  ⟨(h books hbooks).1, (h books hbooks).2.mono hQ hE⟩

theorem Under.within (frame : Log.Context) (h : Under t work Q E) :
    Under t (within frame work) Q E := by
  intro books hbooks
  obtain ⟨hafter, hresult⟩ := h { books with context := books.context.bind frame }
    ⟨hbooks.1, hbooks.2, hbooks.3, hbooks.4, hbooks.5⟩
  exact ⟨⟨hafter.1, hafter.2, hafter.3, hafter.4, hafter.5⟩, hresult⟩

/-- A unit of work that fails gives back the store that the terms held of before. -/
theorem Under.unit (h : Under t work Q E) : Under t (unit work) Q E := by
  intro books hbooks
  obtain ⟨hafter, hresult⟩ := h books hbooks
  unfold Work.unit
  rw [runOn_ofRun]
  rcases hrun : work.runOn books with ⟨result, mid⟩
  rw [hrun] at hafter hresult
  cases result with
  | error fault => exact ⟨⟨hbooks.1, hafter.2, hafter.3, hafter.4, hafter.5⟩, hresult⟩
  | ok a => exact ⟨hafter, hresult⟩

theorem Under.tryCatch {handler : Fault → Service α} (h : Under t work Q E)
    (hhandler : ∀ fault, E fault → Under t (handler fault) Q E') :
    Under t (tryCatch work handler) Q E' := by
  intro books hbooks
  obtain ⟨hmid, hresult⟩ := h books hbooks
  rw [runOn_tryCatch]
  rcases hrun : work.runOn books with ⟨result, mid⟩
  rw [hrun] at hmid hresult
  cases result with
  | error fault => exact hhandler fault hresult mid hmid
  | ok a => exact ⟨hmid, hresult⟩

theorem under_pure {a : α} (ha : Q a) : Under t (pure a) Q E := fun _ hbooks => ⟨hbooks, ha⟩

theorem Under.mapM {items : List β} {each : β → Service α}
    (h : ∀ b, Under t (each b) (fun _ => True) E) :
    Under t (items.mapM each) (fun _ => True) E := by
  induction items with
  | nil => exact under_pure trivial
  | cons b rest ih =>
    rw [List.mapM_cons]
    exact (h b).bind fun _ _ => ih.bind fun _ _ => under_pure trivial

theorem Under.forM {items : List β} {each : β → Service PUnit}
    (h : ∀ b, Under t (each b) (fun _ => True) E) :
    Under t (items.forM each) (fun _ => True) E := by
  induction items with
  | nil => exact under_pure trivial
  | cons b rest ih => exact (h b).bind fun _ _ => ih

/-! ## Loading and saving -/

end Work

namespace TriggerClient

variable {c : TriggerClient} {key : String}

end TriggerClient

namespace Service

open Work Purge

variable {Q : α → Prop} {E : Fault → Prop} {next : Int → Service α}

end Service

end StakeLedger
