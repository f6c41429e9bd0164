import StakeLedger.Proofs.Swept

/-
  A sweep made twice.
  Once a sweep is over, a second one at the same time finds the positions that the first has not
  finalized, tells the same of each, and leaves all rows and all triggers as they are. Whatever
  made a position fail persists: its lockup and its schedule are what they were, and the pool has
  only lost rate and gained amount since (`Round.again`). The triggers that the second sweep
  moves stand where the first has moved them.
-/

namespace StakeLedger

namespace Purge

/-- The results but those of finalized positions. -/
def unfinalized (rs : List Result) : List Result := rs.filter fun r => !r.outcome.isFinalized

/-- A finalization moves no trigger. -/
theorem updates_unfinalized (rs : List Result) : updates (unfinalized rs) = updates rs := by
  induction rs with
  | nil => rfl
  | cons r rest ih =>
    unfold updates unfinalized at ih ⊢
    rw [List.flatMap_cons]
    cases hfinal : r.outcome.isFinalized with
    | false =>
      rw [List.filter_cons_of_pos (by rw [hfinal]; rfl), List.flatMap_cons, ih]
    | true =>
      have hnone : r.outcome.updates = [] := by
        cases hr : r.outcome with
        | finalized pool => rfl
        | rescheduled _ => rw [hr] at hfinal; cases hfinal
        | failed _ => rfl
      rw [List.filter_cons_of_neg (by rw [hfinal]; decide), hnone, List.nil_append, ih]

end Purge

namespace Session

open Purge

/-- An answer without the results of finalized positions. -/
def Answer.unfinalized : Answer → Answer
  | .results rs => .results (Purge.unfinalized rs)
  | answer => answer

variable {books : Books Partners} {g : Ledger} {pool : String}

/-- A second sweep of a pool right after a first answers with the results of the first but those
of finalized positions, or with the same fault, and changes no row and no trigger. -/
structure Idempotent (first second : Entry) : Prop where
  answer_eq : second.answer = first.answer.map Answer.unfinalized
  store_eq : second.books.store = first.books.store
  triggers_eq : ∃ firstTriggers firstUpdates secondTriggers secondUpdates,
    first.books.outside.scheduler = .kept firstTriggers firstUpdates ∧
    second.books.outside.scheduler = .kept secondTriggers secondUpdates ∧
    ∀ key, secondTriggers.get? key = firstTriggers.get? key

/-- Whatever the store of a ledger holds, a second sweep repeats the first but for what that has
finalized. -/
theorem sweep_twice (pool : String) (hstore : books.store = g.store)
    (hkeeps : books.outside.scheduler.Keeps) :
    Idempotent (step books (.sweep pool))
      (step (step books (.sweep pool)).books (.sweep pool)) := by
  obtain ⟨triggers, updates, hkept⟩ := hkeeps
  by_cases hpool : g.pools.get? pool = none
  · obtain ⟨hanswer, hstore₁, houtside⟩ := step_sweep_of_none hstore hpool
    obtain ⟨hanswer', hstore₂, houtside'⟩ := step_sweep_of_none hstore₁ hpool
    refine ⟨by rw [hanswer', hanswer]; rfl, hstore₂.trans hstore₁.symm, triggers, updates,
      triggers, updates, by rw [houtside, hkept], by rw [houtside', houtside, hkept],
      fun _ => rfl⟩
  · have hkeeps : books.outside.scheduler.Keeps := ⟨triggers, updates, hkept⟩
    obtain ⟨rs, fault?, g', hround⟩ := exists_round books.outside.registrar
      books.outside.policy g ((g.openPositions pool).map (·.id))
    have hopen : ∀ id ∈ (g.openPositions pool).map (·.id), g.Open pool id :=
      fun id => Ledger.mem_openIds.mp
    obtain ⟨hswept, -⟩ := hround.swept (g.nodup_openIds pool) hopen
    obtain ⟨hanswer, hstore₁, houtside⟩ := step_sweep hstore hkeeps hpool hround
    have hagain := hround.again (g.nodup_openIds pool) hopen hpool (.refl _ pool g')
      fun _ _ => rfl
    rw [← hswept.openIds_eq] at hagain
    obtain ⟨hanswer', hstore₂, houtside'⟩ := step_sweep hstore₁
      (by rw [houtside]; exact hkeeps.moved _) (hswept.pool_ne_none hpool)
      (by rw [houtside]; exact hagain)
    refine ⟨?_, hstore₂.trans hstore₁.symm, ?_⟩
    · rw [hanswer', hanswer]
      cases fault? <;> rfl
    · -- the second sweep moves the triggers that the first has moved
      have hupdates : Purge.updates (rs.filter fun r => !r.outcome.isFinalized) =
          Purge.updates rs := updates_unfinalized rs
      rw [hupdates] at houtside'
      exact ⟨_, _, _, _, by rw [houtside, hkept]; rfl, by rw [houtside', houtside, hkept]; rfl,
        Table.get?_putAll_again (Purge.updates rs) triggers⟩

/-- A sweep is idempotent at a fixed clock, on every store that a session reaches, with every
registrar, all rules for purges and a scheduler that keeps any triggers. -/
theorem sweep_idempotent (partners : Partners) (steps : List Step) (registrar : Registrar)
    (policy : Purge.Policy) (triggers : Table String String) (updates : List (String × String))
    (pool : String) :
    Idempotent
      (step (reached partners steps ⟨registrar, .kept triggers updates, policy⟩) (.sweep pool))
      (step (step (reached partners steps ⟨registrar, .kept triggers updates, policy⟩)
        (.sweep pool)).books (.sweep pool)) := by
  have hempty : (start {} partners).store = Ledger.store {} := (start_eq {} partners).1
  obtain ⟨g, hreached, -⟩ := exists_grows hempty steps
  have hstore : (reached partners steps ⟨registrar, .kept triggers updates, policy⟩).store =
      g.store := hreached
  exact sweep_twice pool hstore ⟨triggers, updates, rfl⟩

end Session

end StakeLedger
