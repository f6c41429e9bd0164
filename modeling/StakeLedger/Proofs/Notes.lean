import StakeLedger.Proofs.Updates

/-
  What work writes into the log, and in which context.
  Work gives the context back as it found it, whether it fails or not, and only adds records to
  the log (`Work.NotesAt`). A frame ends with the work inside it, so what is bound inside is gone
  outside (`NotesAt.within`), also in the record of a unit of work that has failed around it.
  The services of pools do so, by their parts, whatever of them fails (`Service.Tidy`).
-/

namespace StakeLedger

/-- From the first books to the second nothing happens to the context, and the log only gets
records of which `P` holds. -/
structure Books.Adds {ω : Type} (P : Log.Record → Prop) (before after : Books ω) : Prop where
  context_eq : after.context = before.context
  exists_records : ∃ records, after.log = before.log ++ records ∧ ∀ r ∈ records, P r

namespace Books.Adds

variable {ω : Type} {P : Log.Record → Prop} {before mid after : Books ω} {r : Log.Record}

theorem of_same (hcontext : after.context = before.context) (hlog : after.log = before.log) :
    Adds P before after :=
  ⟨hcontext, [], by rw [hlog, List.append_nil], fun _ hr => nomatch hr⟩

theorem of_record (hcontext : after.context = before.context)
    (hlog : after.log = before.log ++ [r]) (hr : P r) : Adds P before after :=
  ⟨hcontext, [r], hlog, fun _ hmem => List.mem_singleton.mp hmem ▸ hr⟩

theorem trans (h : Adds P before mid) (h' : Adds P mid after) : Adds P before after := by
  obtain ⟨hcontext, records, hlog, hrecords⟩ := h
  obtain ⟨hcontext', records', hlog', hrecords'⟩ := h'
  refine ⟨hcontext'.trans hcontext, records ++ records', ?_, fun r hr => ?_⟩
  · rw [hlog', hlog, List.append_assoc]
  · exact (List.mem_append.mp hr).elim (hrecords r) (hrecords' r)

theorem mono {Q : Log.Record → Prop} (h : Adds P before after) (hPQ : ∀ r, P r → Q r) :
    Adds Q before after := by
  obtain ⟨hcontext, records, hlog, hrecords⟩ := h
  exact ⟨hcontext, records, hlog, fun r hr => hPQ r (hrecords r hr)⟩

end Books.Adds

namespace Work

variable {ω α β : Type} {work : Work ω α} {next : α → Work ω β} {books : Books ω}
  {C D : Log.Context → Prop} {P : Log.Record → Prop} {frame : Log.Context}

/-! ## Records and contexts -/

/-- From these books the work gives the context back, whether it fails or not, and only adds
records to the log, of which `P` holds. -/
def NotesAt (books : Books ω) (work : Work ω α) (P : Log.Record → Prop) : Prop :=
  books.Adds P (work.runOn books).2

/-- The work leaves log and context alone. -/
def Silent (work : Work ω α) : Prop :=
  ∀ books, (work.runOn books).2.context = books.context ∧ (work.runOn books).2.log = books.log

theorem Silent.notesAt (h : Silent work) : NotesAt books work P := .of_same (h books).1 (h books).2

theorem notesAt_emit {level : Int} {logger message : String} {extra : List (String × Json)}
    {trouble : Option Log.Trouble}
    (h : P ⟨level, logger, message, extra, books.context, trouble⟩) :
    NotesAt books (emit level logger message extra trouble) P := .of_record rfl rfl h

/-- Work that goes on from the books that the first part leaves, in the same context. -/
theorem NotesAt.bind (h : NotesAt books work P)
    (hnext : ∀ a after, work.runOn books = (.ok a, after) → after.context = books.context →
      NotesAt after (next a) P) :
    NotesAt books (work >>= next) P := by
  unfold NotesAt at *
  rw [runOn_bind]
  rcases hrun : work.runOn books with ⟨result, mid⟩
  rw [hrun] at h
  cases result with
  | error fault => exact h
  | ok a => exact h.trans (hnext a mid hrun h.context_eq)

/-- What is bound in a frame is gone after it. -/
theorem NotesAt.within
    (h : NotesAt { books with context := books.context.bind frame } work P) :
    NotesAt books (within frame work) P := by
  obtain ⟨hcontext, hrecords⟩ := h
  refine ⟨?_, hrecords⟩
  calc books.context.leave frame
        (work.runOn { books with context := books.context.bind frame }).2.context
      = books.context.leave frame (books.context.bind frame) := by rw [hcontext]
    _ = books.context := Log.Context.leave_bind _ _

/-- The record of a failed unit is written after the work inside it, in the context around. -/
theorem NotesAt.unit (h : NotesAt books work P)
    (hback : ∀ fault, P (rollbackRecord books.context fault)) : NotesAt books (unit work) P := by
  unfold NotesAt Work.unit at *
  rw [runOn_ofRun]
  rcases hrun : work.runOn books with ⟨result, mid⟩
  rw [hrun] at h
  cases result with
  | ok a => exact h
  | error fault =>
    exact h.trans (.of_record rfl rfl (by rw [h.context_eq]; exact hback fault))

theorem NotesAt.mono {Q : Log.Record → Prop} (h : NotesAt books work P)
    (hPQ : ∀ r, P r → Q r) : NotesAt books work Q := Books.Adds.mono h hPQ

theorem NotesAt.tryCatch {work : Service α} {handler : Fault → Service α}
    {books : Books Partners} (h : NotesAt books work P)
    (hhandler : ∀ fault after, after.context = books.context → NotesAt after (handler fault) P) :
    NotesAt books (tryCatch work handler) P := by
  unfold NotesAt at *
  rw [runOn_tryCatch]
  rcases hrun : work.runOn books with ⟨result, mid⟩
  rw [hrun] at h
  cases result with
  | ok a => exact h
  | error fault => exact h.trans (hhandler fault mid h.context_eq)

/-! ## Work from any books -/

/-- In every context of which `C` holds, the work writes records of which `P` holds, and gives
the context back. -/
def Notes (C : Log.Context → Prop) (P : Log.Record → Prop) (work : Work ω α) : Prop :=
  ∀ books, C books.context → NotesAt books work P

theorem Silent.notes (h : Silent work) : Notes C P work := fun _ _ => h.notesAt

theorem notes_emit {level : Int} {logger message : String} {extra : List (String × Json)}
    {trouble : Option Log.Trouble}
    (h : ∀ context, C context → P ⟨level, logger, message, extra, context, trouble⟩) :
    Notes C P (emit level logger message extra trouble : Work ω Unit) :=
  fun books hbooks => notesAt_emit (h books.context hbooks)

theorem Notes.bind (h : Notes C P work) (hnext : ∀ a, Notes C P (next a)) :
    Notes C P (work >>= next) := fun books hbooks =>
  (h books hbooks).bind fun a after _ hcontext => hnext a after (by rw [hcontext]; exact hbooks)

theorem Notes.within (h : Notes D P work) (hframe : ∀ context, C context → D (context.bind frame)) :
    Notes C P (within frame work) := fun _ hbooks => (h _ (hframe _ hbooks)).within

theorem Notes.unit (h : Notes C P work)
    (hback : ∀ context fault, C context → P (rollbackRecord context fault)) :
    Notes C P (unit work) := fun books hbooks =>
  (h books hbooks).unit fun fault => hback books.context fault hbooks

theorem Notes.mapM {items : List β} {each : β → Work ω α} (h : ∀ b, Notes C P (each b)) :
    Notes C P (items.mapM each) := by
  induction items with
  | nil => exact Silent.notes fun _ => ⟨rfl, rfl⟩
  | cons b rest ih =>
    rw [List.mapM_cons]
    exact (h b).bind fun _ => ih.bind fun _ => Silent.notes fun _ => ⟨rfl, rfl⟩

/-! ## Work that writes no records -/

theorem silent_pure (a : α) : Silent (pure a : Work ω α) := fun _ => ⟨rfl, rfl⟩

theorem silent_throw (fault : Fault) : Silent (throw fault : Work ω α) := fun _ => ⟨rfl, rfl⟩

theorem silent_check (r : Except Fault α) : Silent (check r : Work ω α) := fun _ => ⟨rfl, rfl⟩

theorem silent_readStore (f : Store → Except Fault α) : Silent (readStore f : Work ω α) :=
  fun _ => ⟨rfl, rfl⟩

theorem Silent.bind (h : Silent work) (hnext : ∀ a, Silent (next a)) : Silent (work >>= next) := by
  intro books
  obtain ⟨hcontext, hlog⟩ := h books
  rw [runOn_bind]
  rcases hrun : work.runOn books with ⟨result, mid⟩
  rw [hrun] at hcontext hlog
  cases result with
  | error fault => exact ⟨hcontext, hlog⟩
  | ok a => exact ⟨(hnext a mid).1.trans hcontext, (hnext a mid).2.trans hlog⟩

theorem silent_loadPool (id : String) : Silent (loadPool id : Work ω Pool) := by
  refine (silent_readStore _).bind fun found => ?_
  cases found with
  | none => exact silent_throw _
  | some pool => exact silent_pure pool

theorem silent_loadPosition (id : String) : Silent (loadPosition id : Work ω Position) := by
  refine (silent_readStore _).bind fun found => ?_
  cases found with
  | none => exact silent_throw _
  | some p => exact silent_pure p

theorem silent_writeStore (f : Store → Except Fault Store) :
    Silent (writeStore f : Work ω Unit) :=
  (silent_readStore f).bind fun _ _ => ⟨rfl, rfl⟩

theorem silent_savePool (id : String) (pool : Pool) :
    Silent (savePool .readWrite id pool : Work ω Unit) := by
  rw [savePool, guard_readWrite, pure_bind]
  exact silent_writeStore _

theorem silent_savePosition (p : Position) :
    Silent (savePosition .readWrite p : Work ω Unit) := by
  rw [savePosition, guard_readWrite, pure_bind]
  exact silent_writeStore _

theorem silent_saveLockup (position : String) (index : Int) (l : Lockup) :
    Silent (saveLockup .readWrite position index l : Work ω Unit) := by
  rw [saveLockup, guard_readWrite, pure_bind]
  exact silent_writeStore _

end Work

namespace Service

open Work

variable {C : Log.Context → Prop} {P : Log.Record → Prop}

/-! ## Looking up and sending -/

theorem silent_partners : Silent partners := fun _ => ⟨rfl, rfl⟩

theorem silent_now : Silent now := fun _ => ⟨rfl, rfl⟩

/-- Looking a lockup up may write that a unit of work has failed. -/
theorem notes_lockup (hback : ∀ context fault, C context → P (rollbackRecord context fault))
    (position : String) (index : Int) : Notes C P (lockup position index) := by
  have hlookUp : Notes C P (lockup? position index) := by
    refine silent_partners.notes.bind fun present => ?_
    cases present.registrar.lockups with
    | kept table => exact (silent_pure _).notes
    | stored => exact (silent_readStore _).notes.unit hback
  refine hlookUp.bind fun found => ?_
  cases found with
  | none => exact (silent_throw _).notes
  | some l => exact (silent_pure l).notes

/-- Sending an update writes its repetitions, and that the trigger is stored if it is. -/
theorem notes_send {key expression : String}
    (hretry : ∀ context notice, C context → P (retryRecord context key notice))
    (hupserted : ∀ context, C context → P (upsertedRecord context key expression))
    (client : TriggerClient) : Notes C P (Scheduling.send client key expression) := by
  refine (silent_check _).notes.bind fun address => ?_
  refine Silent.notes (fun _ => ⟨rfl, rfl⟩) |>.bind fun _ => ?_
  refine Notes.bind ?_ fun _ => (silent_check _).notes.bind fun _ => notes_emit hupserted
  generalize (client.update address key).notices = notices
  induction notices with
  | nil => exact (silent_pure ()).notes
  | cons notice rest ih =>
    exact Notes.bind (notes_emit fun context hcontext => hretry context notice hcontext) fun _ => ih

/-- A scheduler that keeps the triggers itself writes nothing. -/
theorem notes_upsert {key expression : String}
    (hretry : ∀ context notice, C context → P (retryRecord context key notice))
    (hupserted : ∀ context, C context → P (upsertedRecord context key expression)) :
    Notes C P (upsert key expression) := by
  refine silent_partners.notes.bind fun present => ?_
  cases present.scheduler with
  | kept triggers updates => exact Silent.notes fun _ => ⟨rfl, rfl⟩
  | remote client => exact notes_send hretry hupserted client

/-! ## Services of pools -/

/-- The work gives the context back, in whatever books and whether it fails or not. -/
abbrev Tidy {ω α : Type} (work : Work ω α) : Prop := Notes (fun _ => True) (fun _ => True) work

theorem Tidy.unit {α : Type} {work : Service α} (h : Tidy work) : Tidy (Work.unit work) :=
  Notes.unit h fun _ _ _ => trivial

theorem Tidy.within {α : Type} {work : Service α} (frame : Log.Context) (h : Tidy work) :
    Tidy (Work.within frame work) := Notes.within h fun _ _ => trivial

theorem tidy_emit (level : Int) (logger message : String) (extra : List (String × Json))
    (trouble : Option Log.Trouble) :
    Tidy (Work.emit level logger message extra trouble : Service Unit) :=
  notes_emit fun _ _ => trivial

theorem tidy_lockup (position : String) (index : Int) : Tidy (lockup position index) :=
  notes_lockup (fun _ _ _ => trivial) position index

/-- Work that is refused first under some condition. -/
theorem tidy_unless {α : Type} {c : Prop} [Decidable c] {fault : Fault}
    {rest : PUnit → Service α} (h : Tidy (rest ())) :
    Tidy (if c then throw fault >>= rest else rest ()) := by
  split
  · exact (silent_throw fault).notes.bind fun _ => h
  · exact h

theorem tidy_createPool (id : String) (time : Option Int) : Tidy (createPool id time) := by
  have hadd : ∀ asOf, Tidy (do
      Work.unit do
        if (← readStore (·.pool? id)).isSome then throw (.poolExists id)
        Work.savePool .readWrite id (.empty asOf)
      Pools.log "pool_created" [("pool_id", .text id)]
      pure (.empty asOf) : Service Pool) := by
    intro asOf
    refine Notes.bind (Tidy.unit ?_) fun _ => (tidy_emit _ _ _ _ _).bind fun _ =>
      (silent_pure _).notes
    exact (silent_readStore _).notes.bind fun found => tidy_unless (silent_savePool id _).notes
  cases time with
  | none => exact silent_now.notes.bind fun asOf => hadd asOf
  | some asOf => exact hadd asOf

theorem tidy_status (id : String) : Tidy (status id) :=
  (Tidy.unit (silent_loadPool id).notes).bind fun _ =>
    silent_now.notes.bind fun _ => (silent_check _).notes

theorem tidy_rollForward (id : String) : Tidy (rollForward id) := by
  refine silent_now.notes.bind fun time => Tidy.unit (Tidy.within _ ?_)
  refine (silent_loadPool id).notes.bind fun pool => ?_
  refine (silent_check _).notes.bind fun rolled => ?_
  refine (silent_savePool id rolled).notes.bind fun _ => ?_
  exact (tidy_emit _ _ _ _ _).bind fun _ => (silent_pure _).notes

theorem tidy_openPosition (p : Position) (amount : Int) (l : Lockup) :
    Tidy (openPosition p amount l) := by
  refine silent_now.notes.bind fun time => Tidy.unit (Tidy.within _ ?_)
  refine (silent_readStore _).notes.bind fun found => tidy_unless ?_
  refine (silent_loadPool p.pool).notes.bind fun pool => ?_
  refine (silent_check _).notes.bind fun changed => ?_
  refine (silent_savePool p.pool changed).notes.bind fun _ => ?_
  refine (silent_savePosition p).notes.bind fun _ => ?_
  refine (silent_saveLockup p.id p.index l).notes.bind fun _ => ?_
  exact (tidy_emit _ _ _ _ _).bind fun _ => (silent_pure _).notes

theorem tidy_closePosition (id : String) (amount : Int) : Tidy (closePosition id amount) := by
  refine (Tidy.unit (silent_loadPosition id).notes).bind fun stored => ?_
  refine (silent_check _).notes.bind fun _ => (tidy_lockup id stored.index).bind fun l => ?_
  refine silent_now.notes.bind fun time => Tidy.unit ?_
  refine (silent_loadPosition id).notes.bind fun p => Tidy.within _ ?_
  refine (silent_check _).notes.bind fun closed => (silent_check _).notes.bind fun delta => ?_
  refine (silent_loadPool p.pool).notes.bind fun pool => ?_
  refine (silent_check _).notes.bind fun changed => ?_
  refine (silent_savePool p.pool changed).notes.bind fun _ => ?_
  refine (silent_savePosition closed).notes.bind fun _ => ?_
  exact (tidy_emit _ _ _ _ _).bind fun _ => (silent_pure _).notes

end Service

end StakeLedger
