import StakeLedger.Proofs.Notes
import StakeLedger.Proofs.RemoteSweeps

/-
  Which position the records of a purge tell of.
  The particulars of a position are its id, the pool that is stored for it, and the key of its
  trigger (`Store.particulars`). In the records that are written while a position is processed its
  own particulars are bound and nothing else (`Service.notesAt_process`), and the record of its
  failure in a sweep, written when nothing is bound any more, names it by itself
  (`Service.notesAt_processSafely`). The log of a sweep is what its positions have written, one
  after another (`Session.log_visits`), so no record of it tells of another position than the one
  that was processed (`Session.attributes_step`).
-/

namespace StakeLedger

/-! ## Records about a position -/

namespace Log

/-- The names of the fields that tell of a position. -/
def positionNames : List String := ["position_id", "pool_id", "trigger_key"]

/-- The messages that tell of a failure, once the work that has failed is over. -/
def failureMessages : List String := ["uow_rollback", "purge_failed"]

variable {outer own : Context} {r : Record}

/-- A record about a position with particulars `own`, written in the midst of `outer`: beside that
all particulars are bound in it, or all but the trigger, or nothing if it tells of a failure. What
the record names by itself are particulars of the position. -/
structure Record.About (outer own : Context) (r : Record) : Prop where
  context_cases : r.context = outer ∧ r.message ∈ failureMessages ∨
    r.context = outer.bind { own with trigger := none } ∨ r.context = outer.bind own
  extra_mem : ∀ field ∈ r.extra, field.1 ∈ positionNames → field ∈ own.fields

/-- A record that tells of a position with particulars `own` and of no other: all of them are bound
in its context, or all but the trigger, or nothing if it tells of a failure; and the fields that it
shows of a position are among them. -/
structure Record.TellsOf (own : Context) (r : Record) : Prop where
  context_cases : r.context = {} ∧ r.message ∈ failureMessages ∨
    r.context = { own with trigger := none } ∨ r.context = own
  shown_mem : ∀ time, ∀ field ∈ r.fields time, field.1 ∈ positionNames → field ∈ own.fields

theorem mem_put {name : String} {value : Json} {fields : List (String × Json)}
    {field : String × Json} (h : field ∈ Json.put name value fields) :
    field = (name, value) ∨ field ∈ fields := by
  induction fields with
  | nil => exact .inl (List.mem_singleton.mp h)
  | cons first rest ih =>
    unfold Json.put at h
    split at h
    · exact (List.mem_cons.mp h).imp_right (List.mem_cons_of_mem first)
    · rcases List.mem_cons.mp h with rfl | hrest
      · exact .inr List.mem_cons_self
      · exact (ih hrest).imp_right (List.mem_cons_of_mem first)

/-- A field of a joined object comes from one of the two. -/
theorem mem_putAll {fields news : List (String × Json)} {field : String × Json}
    (h : field ∈ Json.putAll fields news) : field ∈ fields ∨ field ∈ news := by
  induction news generalizing fields with
  | nil => exact .inl h
  | cons first rest ih =>
    rcases ih h with hput | hrest
    · rcases mem_put hput with rfl | hfield
      · exact .inr List.mem_cons_self
      · exact .inl hfield
    · exact .inr (List.mem_cons_of_mem first hrest)

/-- What is told of a fault says nothing of a position. -/
theorem Trouble.not_mem_positionNames {t : Trouble} {field : String × Json}
    (h : field ∈ t.fields) : field.1 ∉ positionNames := by
  have hnames : ∀ name ∈ t.fields.map (·.1), name ∉ positionNames := by
    cases t with
    | error label message code => cases code <;> simp [fields, positionNames]
    | nothing => simp [fields, positionNames]
    | earlier trace => by_cases htrace : trace = "" <;> simp [fields, positionNames, htrace]
  exact hnames field.1 (List.mem_map_of_mem h)

/-- What a record shows of a position comes from the fields that it brings or from its context. -/
theorem Record.mem_extra_or_context {time : String} {field : String × Json}
    (h : field ∈ r.fields time) (hname : field.1 ∈ positionNames) :
    field ∈ r.extra ∨ field ∈ r.context.fields := by
  rcases mem_putAll h with h | htrouble
  · rcases mem_putAll h with h | hcontext
    · rcases mem_putAll h with horigin | hextra
      · have hnames : ∀ name ∈ ["timestamp", "level", "logger", "message"],
            name ∉ positionNames := by decide
        exact absurd hname (hnames _ (List.mem_map_of_mem (f := (·.1)) horigin))
      · exact .inl hextra
    · exact .inr hcontext
  · cases htrouble' : r.trouble with
    | none => rw [htrouble'] at htrouble; cases htrouble
    | some t =>
      rw [htrouble'] at htrouble
      exact absurd hname (Trouble.not_mem_positionNames htrouble)

theorem Context.bind_empty (frame : Context) : Context.bind {} frame = frame := by
  cases frame
  simp [Context.bind]

theorem Context.mem_fields_of_position {id : String} (h : own.position = some id) :
    ("position_id", .text id) ∈ own.fields := by
  simp [fields, h]

theorem Context.mem_fields_of_trigger {key : String} (h : own.trigger = some key) :
    ("trigger_key", .text key) ∈ own.fields := by
  simp [fields, h]

theorem Context.mem_fields_of_trigger_none {field : String × Json}
    (h : field ∈ Context.fields { own with trigger := none }) : field ∈ own.fields := by
  obtain ⟨named, hnamed, hfield⟩ := List.mem_filterMap.mp h
  refine List.mem_filterMap.mpr ⟨named, ?_, hfield⟩
  have hsplit : named ∈ [("command", own.command), ("pool_id", own.pool),
      ("position_id", own.position)] ++ [("trigger_key", none)] := hnamed
  rcases List.mem_append.mp hsplit with hfirst | hlast
  · exact List.mem_append_left [("trigger_key", own.trigger)] hfirst
  · rw [List.mem_singleton.mp hlast] at hfield
    cases hfield

/-- A record about a position, written where nothing else is bound, tells of no other. -/
theorem Record.About.tellsOf (h : r.About {} own) : r.TellsOf own := by
  obtain ⟨hcases, hextra⟩ := h
  rw [Context.bind_empty, Context.bind_empty] at hcases
  refine ⟨hcases, fun time field hfield hname => ?_⟩
  rcases Record.mem_extra_or_context hfield hname with hown | hcontext
  · exact hextra field hown hname
  · rcases hcases with ⟨hbare, -⟩ | hpart | hall
    · rw [hbare] at hcontext
      cases hcontext
    · rw [hpart] at hcontext
      exact Context.mem_fields_of_trigger_none hcontext
    · rw [← hall]
      exact hcontext

end Log

/-- The particulars of the position of an id: the id, the pool that is stored for it, and the key of
its trigger. -/
def Store.particulars (s : Store) (id : String) : Log.Context :=
  match s.position? id with
  | .ok (some p) =>
    { position := some id, pool := some p.pool, trigger := some (Trigger.key id p.index) }
  | _ => { position := some id }

theorem Store.particulars_of_position? {s : Store} {id : String} {p : Position}
    (h : s.position? id = .ok (some p)) :
    s.particulars id =
      { position := some id, pool := some p.pool, trigger := some (Trigger.key id p.index) } := by
  unfold particulars
  rw [h]

theorem Store.position_particulars (s : Store) (id : String) :
    (s.particulars id).position = some id := by
  unfold particulars
  split <;> rfl

/-! ## Processing a position -/

namespace Service

open Work Log

variable {outer own : Context} {books : Books Partners} {id : String}

/-- The record of a failed unit is about any position. -/
theorem about_rollbackRecord (own : Context) (fault : Fault) :
    (rollbackRecord outer fault).About outer own where
  context_cases := .inl ⟨rfl, List.mem_cons_self⟩
  extra_mem := by simp [rollbackRecord, positionNames]

/-- A trigger is moved inside a frame of all particulars of its position. -/
theorem notes_move {p : Position} {r : Purge.Reschedule}
    (hown : own = { position := some p.id, pool := some p.pool, trigger := some r.key }) :
    Notes (· = outer) (·.About outer own) (Purges.move p r) := by
  subst hown
  have hkey : ("trigger_key", .text r.key) ∈
      Context.fields { position := some p.id, pool := some p.pool, trigger := some r.key } :=
    Context.mem_fields_of_trigger rfl
  refine Notes.within (D := (· = outer.bind _)) ?_ fun context hcontext => by rw [hcontext]
  refine (notes_upsert (fun context notice hcontext => ?_) fun context hcontext => ?_).bind
    fun _ => notes_emit fun context hcontext => ?_
  · exact ⟨.inr (.inr hcontext), by simp [retryRecord, positionNames, hkey]⟩
  · exact ⟨.inr (.inr hcontext), by simp [upsertedRecord, positionNames, hkey]⟩
  · exact ⟨.inr (.inr hcontext), by simp [positionNames]⟩

/-- A finalization is stored where all particulars of its position but the trigger are bound. -/
theorem notes_store (p : Position) (time : Int) (f : Purge.Finalization) :
    Notes (· = outer.bind { own with trigger := none }) (·.About outer own)
      (Purges.store p time f) := by
  refine (silent_savePool p.pool f.pool).notes.bind fun _ => ?_
  refine (silent_savePosition f.position).notes.bind fun _ => ?_
  refine notes_emit fun context hcontext => ⟨.inr (.inl hcontext), ?_⟩
  simp [Purges.finalizedFields, positionNames]

/-- The decision on a position is taken, and carried out, inside a frame of its id and pool. -/
theorem notesAt_decideAt (lockup : Lockup.View) (time : Int) (id : String)
    (books : Books Partners) :
    NotesAt books (Purges.decideAt id lockup time)
      (·.About books.context (books.store.particulars id)) := by
  refine NotesAt.unit ?_ fun fault => about_rollbackRecord _ fault
  refine (silent_loadPosition id).notesAt.bind fun p mid hload _ => NotesAt.within ?_
  obtain ⟨hp, rfl⟩ := runOn_loadPosition_ok_iff.mp hload
  have hinside : mid.context.bind (.ofPosition id p.pool) =
      mid.context.bind { mid.store.particulars id with trigger := none } := by
    rw [Store.particulars_of_position? hp]
    rfl
  refine Notes.bind (C := (· = mid.context.bind { mid.store.particulars id with trigger := none }))
    (silent_loadPool p.pool).notes (fun pool => ?_) _ hinside
  refine silent_partners.notes.bind fun present => (silent_check _).notes.bind fun decision => ?_
  cases decision with
  | finalize f => exact (notes_store p time f).bind fun _ => (silent_pure _).notes
  | reschedule r => exact (silent_pure _).notes

/-- What is written while a position is judged is about it. It is looked up twice, and nothing
comes between. -/
theorem notesAt_judge (id : String) (books : Books Partners) :
    NotesAt books (judge id) (·.About books.context (books.store.particulars id)) := by
  have hback : ∀ fault, (rollbackRecord books.context fault).About books.context
      (books.store.particulars id) := about_rollbackRecord _
  refine ((silent_loadPosition id).notesAt.unit hback).bind fun p mid hload _ => ?_
  obtain ⟨-, rfl⟩ := runOn_loadPosition_ok_iff.mp (runOn_unit_ok_iff.mp hload)
  have hlockup : NotesAt mid (lockup id p.index) (·.About mid.context (mid.store.particulars id)) :=
    notes_lockup (C := (· = mid.context)) (fun _ fault hcontext => hcontext ▸ hback fault) _ _ _ rfl
  refine hlockup.bind fun l after hfound _ => ?_
  obtain ⟨-, rfl⟩ := runOn_lockup_ok_iff.mp hfound
  refine silent_now.notesAt.bind fun time last hnow _ => ?_
  obtain ⟨-, rfl⟩ := runOn_now_ok_iff.mp hnow
  exact notesAt_decideAt l.view time id last

/-- What is written while a position is processed is about it. -/
theorem notesAt_process (id : String) (books : Books Partners) :
    NotesAt books (process id) (·.About books.context (books.store.particulars id)) := by
  rw [process_eq]
  refine (notesAt_judge id books).bind fun ⟨p, d⟩ mid hjudge hcontext => ?_
  cases d with
  | finalize f => exact (silent_pure _).notesAt
  | reschedule r =>
    obtain ⟨l, before, hp, -⟩ := runOn_judge_ok hjudge
    have hown : books.store.particulars id =
        { position := some p.id, pool := some p.pool, trigger := some r.key } := by
      rw [Store.particulars_of_position? hp, key_of_judge hjudge, Store.id_of_position? hp]
    exact ((notes_move hown).bind fun _ => (silent_pure _).notes) mid hcontext

/-- So is the record that a sweep writes of its failure, where nothing is bound any more. -/
theorem notesAt_processSafely (id : String) (books : Books Partners) :
    NotesAt books (processSafely id) (·.About books.context (books.store.particulars id)) := by
  have hid : ("position_id", .text id) ∈ (books.store.particulars id).fields :=
    Context.mem_fields_of_position (books.store.position_particulars id)
  refine (notesAt_process id books).tryCatch fun fault after hcontext => ?_
  cases hcode : fault.code? with
  | none => exact (silent_throw fault).notesAt
  | some code =>
    refine NotesAt.bind (notesAt_emit ⟨.inl ⟨hcontext, ?_⟩, ?_⟩) fun _ _ _ _ =>
      (silent_pure _).notesAt
    · exact List.mem_cons_of_mem _ List.mem_cons_self
    · simp [positionNames, hid]

/-- A sweep that finds no pool writes that a unit of work has failed. -/
theorem notesAt_listed (pool : String) (books : Books Partners) :
    NotesAt books (listed pool) (·.context = books.context) := by
  refine NotesAt.unit ?_ fun _ => rfl
  refine Silent.notesAt ((silent_loadPool pool).bind fun _ => ?_)
  exact (silent_readStore _).bind fun found => silent_pure _

end Service

/-! ## Steps -/

namespace Session

open Work Service

variable {books : Books Partners}

/-- Every step gives the context back. -/
theorem tidy_run (s : Step) : Tidy s.run := by
  have hprocess : ∀ id, Tidy (Service.process id) := fun id books _ =>
    (notesAt_process id books).mono fun _ _ => trivial
  have hsweep : ∀ pool, Tidy (Service.sweep pool) := fun pool => by
    have hlisted : Tidy (listed pool) := fun books _ =>
      (notesAt_listed pool books).mono fun _ _ => trivial
    exact hlisted.bind fun ids => Notes.mapM fun id books _ =>
      (notesAt_processSafely id books).mono fun _ _ => trivial
  cases s with
  | setClock time => exact Silent.notes fun _ => ⟨rfl, rfl⟩
  | advanceClock seconds => exact Silent.notes fun _ => ⟨rfl, rfl⟩
  | readClock => exact Silent.notes fun _ => ⟨rfl, rfl⟩
  | registerLockup position index l => exact Silent.notes fun _ => ⟨rfl, rfl⟩
  | storeLockup position index l =>
    exact (Tidy.unit (silent_saveLockup position index l).notes).bind fun _ => (silent_pure _).notes
  | findLockup position index =>
    exact (tidy_lockup position index).bind fun _ => (silent_pure _).notes
  | createPool id time => exact (tidy_createPool id time).bind fun _ => (silent_pure _).notes
  | openPosition p amount l registered =>
    refine (tidy_openPosition p amount l).bind fun pool => ?_
    cases registered with
    | false => exact (silent_pure _).notes
    | true => exact Silent.notes fun _ => ⟨rfl, rfl⟩
  | closePosition id amount =>
    exact (tidy_closePosition id amount).bind fun _ => (silent_pure _).notes
  | poolStatus id => exact (tidy_status id).bind fun _ => (silent_pure _).notes
  | rollForward id => exact (tidy_rollForward id).bind fun _ => (silent_pure _).notes
  | process id => exact (hprocess id).bind fun _ => (silent_pure _).notes
  | sweep pool => exact (hsweep pool).bind fun _ => (silent_pure _).notes
  | fail fault => exact (silent_throw fault).notes

theorem context_step (books : Books Partners) (s : Step) :
    (step books s).books.context = books.context :=
  (tidy_run s (fresh books) trivial).context_eq

/-- Nothing is bound between the steps of a session. -/
theorem context_booksAfter (store : Store) (partners : Partners) (steps : List Step) :
    (booksAfter (start store partners) steps).context = {} := by
  have hstart : (start store partners).context = {} := by
    unfold start Service.startPurges
    rw [runOn_bind, show (Service.partners : Service Partners).runOn _ = (.ok partners, _) from rfl]
    dsimp only
    split <;> rfl
  have hsteps : ∀ books : Books Partners, (booksAfter books steps).context = books.context := by
    induction steps with
    | nil => exact fun _ => rfl
    | cons s rest ih => exact fun books => (ih (step books s).books).trans (context_step books s)
  rw [hsteps, hstart]

/-! ## The parts of a run that handle a position -/

/-- A part of a run in which a position is processed, with the books before it and after it. -/
structure Handling where
  position : String
  before : Books Partners
  after : Books Partners

namespace Handling

/-- The part of a run in which a service handles a position, from some books. -/
def of {α : Type} (position : String) (service : Service α) (books : Books Partners) :
    Handling where
  position := position
  before := books
  after := (service.runOn books).2

/-- The records written meanwhile. -/
def records (h : Handling) : List Log.Record := h.after.log.drop h.before.log.length

/-- The part gives the context back and only adds to the log, and its records tell of its position,
as the store has it at the beginning, and of no other. -/
structure Attributed (h : Handling) : Prop where
  context_eq : h.after.context = h.before.context
  log_eq : h.after.log = h.before.log ++ h.records
  tellsOf : ∀ r ∈ h.records, r.TellsOf (h.before.store.particulars h.position)

variable {α : Type} {position : String} {service : Service α} {P : Log.Record → Prop}

theorem records_of (position : String) (h : NotesAt books service P) :
    (of position service books).after.log = books.log ++ (of position service books).records ∧
      ∀ r ∈ (of position service books).records, P r := by
  obtain ⟨-, records, hlog, hrecords⟩ := h
  have heq : (of position service books).records = records := by
    show (service.runOn books).2.log.drop books.log.length = records
    rw [hlog, List.drop_left]
  rw [heq]
  exact ⟨hlog, hrecords⟩

theorem attributed_of (hbare : books.context = {})
    (h : NotesAt books service (·.About books.context (books.store.particulars position))) :
    (of position service books).Attributed := by
  obtain ⟨hlog, habout⟩ := records_of position h
  refine ⟨h.context_eq, hlog, fun r hr => ?_⟩
  have hr' := habout r hr
  rw [hbare] at hr'
  exact hr'.tellsOf

end Handling

/-- The parts of a sweep through some ids: one each, with the report of its failure, up to a fault
that ends the sweep. -/
def sweepHandlings (books : Books Partners) : List String → List Handling
  | [] => []
  | id :: rest =>
    .of id (processSafely id) books ::
      match (processSafely id).runOn books with
      | (.ok _, after) => sweepHandlings after rest
      | (.error _, _) => []

/-- Every part of a sweep tells of its own position, also after others have failed. -/
theorem attributed_sweepHandlings (hbare : books.context = {}) (ids : List String) :
    ∀ h ∈ sweepHandlings books ids, h.Attributed := by
  induction ids generalizing books with
  | nil => exact fun _ h => nomatch h
  | cons id rest ih =>
    have hnotes := notesAt_processSafely id books
    have hfirst : (Handling.of id (processSafely id) books).Attributed :=
      Handling.attributed_of hbare hnotes
    have hcontext := hnotes.context_eq
    rw [sweepHandlings]
    rcases hrun : (processSafely id).runOn books with ⟨result, after⟩
    rw [hrun] at hcontext
    refine List.forall_mem_cons.mpr ⟨hfirst, ?_⟩
    cases result with
    | ok r => exact ih (hcontext.trans hbare)
    | error fault => exact fun _ h => nomatch h

/-- A sweep writes what its parts write, one after another. -/
theorem log_visits (ids : List String) (books : Books Partners) :
    ((ids.mapM processSafely).runOn books).2.log =
      books.log ++ (sweepHandlings books ids).flatMap (·.records) := by
  induction ids generalizing books with
  | nil => exact (List.append_nil _).symm
  | cons id rest ih =>
    obtain ⟨hlog, -⟩ := Handling.records_of id (notesAt_processSafely id books)
    have hafter : (Handling.of id (processSafely id) books).after =
        ((processSafely id).runOn books).2 := rfl
    rw [hafter] at hlog
    rw [List.mapM_cons, runOn_bind, sweepHandlings, List.flatMap_cons]
    rcases hrun : (processSafely id).runOn books with ⟨result, after⟩
    rw [hrun] at hlog
    cases result with
    | error fault => rw [List.flatMap_nil, List.append_nil]; exact hlog
    | ok r =>
      dsimp only at hlog ⊢
      rw [runOn_bind_pure, ← List.append_assoc, ← hlog]
      exact ih after

/-- Does the step process positions? -/
def Step.isPurge : Step → Bool
  | .process _ => true
  | .sweep _ => true
  | _ => false

/-- The parts of a step in which positions are processed. -/
def Step.handlings (books : Books Partners) : Step → List Handling
  | .process id => [.of id (Service.process id) books]
  | .sweep pool =>
    match (listed pool).runOn books with
    | (.ok ids, after) => sweepHandlings after ids
    | (.error _, _) => []
  | _ => []

/-- A step gives the context back, and each of its parts that processes a position has records
that tell of this position and of no other. If the step is there to process positions, nothing
is bound in the records beside those of its parts. -/
structure Attributes (books : Books Partners) (s : Step) : Prop where
  context_eq : (step books s).books.context = books.context
  attributed : ∀ h ∈ s.handlings (fresh books), h.Attributed
  log_eq : ∃ others, (step books s).books.log =
      others ++ (s.handlings (fresh books)).flatMap (·.records) ∧
    (s.isPurge = true → ∀ r ∈ others, r.context = {})

theorem attributes_of_no_handlings {s : Step} (hhandlings : s.handlings (fresh books) = [])
    (hpurge : s.isPurge = false) : Attributes books s where
  context_eq := context_step books s
  attributed := fun h hmem => by rw [hhandlings] at hmem; cases hmem
  log_eq := by
    refine ⟨(step books s).books.log, ?_, fun h => ?_⟩
    · rw [hhandlings]
      exact (List.append_nil _).symm
    · rw [hpurge] at h
      cases h

theorem attributes_process (hbare : books.context = {}) (id : String) :
    Attributes books (.process id) where
  context_eq := context_step books _
  attributed := by
    refine List.forall_mem_singleton.mpr ?_
    exact Handling.attributed_of hbare (notesAt_process id (fresh books))
  log_eq := by
    refine ⟨[], ?_, fun _ _ h => nomatch h⟩
    obtain ⟨hlog, -⟩ := Handling.records_of id (notesAt_process id (fresh books))
    have hone : (Step.process id).handlings (fresh books) =
        [.of id (Service.process id) (fresh books)] := rfl
    rw [step_eq (s := .process id) rfl, hone, List.flatMap_singleton]
    exact hlog

theorem attributes_sweep (hbare : books.context = {}) (pool : String) :
    Attributes books (.sweep pool) := by
  obtain ⟨hcontext, others, hlog, hothers⟩ := notesAt_listed pool (fresh books)
  have hbooks : (step books (.sweep pool)).books = ((sweep pool).runOn (fresh books)).2 := by
    rw [step_eq (s := .sweep pool) rfl]
  have hrecords : ∀ r ∈ others, r.context = {} := fun r hr => (hothers r hr).trans hbare
  rw [sweep_eq, runOn_bind] at hbooks
  rcases hlisted : (listed pool).runOn (fresh books) with ⟨result, mid⟩
  rw [hlisted] at hcontext hlog hbooks
  cases result with
  | error fault =>
    -- the sweep has ended at its listing
    have hnone : (Step.sweep pool).handlings (fresh books) = [] := by
      rw [Step.handlings, hlisted]
    refine ⟨context_step books _, ?_, others, ?_, fun _ => hrecords⟩
    · rw [hnone]
      exact fun _ h => nomatch h
    · rw [hnone, hbooks]
      exact hlog.trans (List.append_nil _).symm
  | ok ids =>
    have hvisits : (Step.sweep pool).handlings (fresh books) = sweepHandlings mid ids := by
      rw [Step.handlings, hlisted]
    refine ⟨context_step books _, ?_, others, ?_, fun _ => hrecords⟩
    · rw [hvisits]
      exact attributed_sweepHandlings (hcontext.trans hbare) ids
    · have hmid : mid.log = others := hlog
      rw [hvisits, hbooks, ← hmid]
      exact log_visits ids mid

/-- Every step of every session attributes its records, whatever store and partners the session
starts with and whichever steps have failed. The context after a step, failed or not, is the one
before it; and in the records written while a position is processed, alone or among others in a
sweep, nothing is bound, or the position's own id and stored pool, or these and the key of its own
trigger. -/
theorem attributes_step (store : Store) (partners : Partners) (steps : List Step) (s : Step) :
    Attributes (booksAfter (start store partners) steps) s := by
  have hbare := context_booksAfter store partners steps
  cases s with
  | process id => exact attributes_process hbare id
  | sweep pool => exact attributes_sweep hbare pool
  | setClock | advanceClock | readClock | registerLockup | storeLockup | findLockup | createPool
  | openPosition | closePosition | poolStatus | rollForward | fail =>
    exact attributes_of_no_handlings rfl rfl

/-- A service that refuses the first update and accepts the others. -/
def refusingOnce : TriggerClient where
  policy := .standard
  answers := fun n => .response (if n = 0 then 404 else 200) "" none

/-- The partners at time zero, with triggers at that service. -/
def partnersRefusedOnce : Partners where
  registrar := { clock := { set := some 0 } }
  scheduler := .remote refusingOnce

/-- Five positions at time thirty: one has expired and two have not, one would get back more than
an amount can be, and of one the registrar knows no lockup. -/
def fivePositions : List Step :=
  [.createPool "pool" (some 0),
    .openPosition (.running "brief" "pool" 0 10) 900 (.lasting .cliff 0 20) true,
    .openPosition (.running "heavy" "pool" 0 10) 900 (.lasting .cliff 0 20) false,
    .registerLockup "heavy" 0 (.lasting .cliff (-(Nat.pow 10 20)) 0),
    .openPosition (.running "lost" "pool" 0 10) 900 (.lasting .cliff 0 20) false,
    .openPosition (.running "steady" "pool" 0 5) 1000 (.lasting .cliff 0 100) true,
    .openPosition (.running "tardy" "pool" 1 5) 1000 (.lasting .cliff 0 200) true, .setClock 30]

/-- The sweep finalizes one position and fails at three, at one of them inside the frame of all
particulars; the trigger of the last is moved, and its records tell of the last alone. -/
theorem attributes_step_fivePositions :
    (((Step.sweep "pool").handlings
        (fresh (booksAfter (start {} partnersRefusedOnce) fivePositions))).map fun h =>
          (h.position, h.records.map fun r => (r.message, r.context))) =
        [("brief", [("position_finalized", .ofPosition "brief" "pool")]),
          ("heavy", [("uow_rollback", {}), ("purge_failed", {})]),
          ("lost", [("purge_failed", {})]),
          ("steady", [("purge_failed", {})]),
          ("tardy", [("trigger_upserted", ⟨none, "pool", "tardy", Trigger.key "tardy" 1⟩),
            ("purge_rescheduled", ⟨none, "pool", "tardy", Trigger.key "tardy" 1⟩)])] ∧
      Attributes (booksAfter (start {} partnersRefusedOnce) fivePositions) (.sweep "pool") :=
  ⟨by decide +kernel, attributes_step {} partnersRefusedOnce fivePositions (.sweep "pool")⟩

end Session

end StakeLedger
