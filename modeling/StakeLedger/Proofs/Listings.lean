import StakeLedger.Proofs.PoolPositions

/-
  Listings in the order of ids.
  A table with distinct keys is listed with its keys strictly ascending (`pairwise_sorted`), and
  a list that ascends strictly is known by its members (`eq_of_ascending`). So the open positions
  of a pool are listed as one list and no other: they ascend by id, and they are the running
  positions of the pool (`openPositions_store`, `mem_openPositions`).
-/

namespace StakeLedger

namespace Table

variable {κ α β : Type} {before : κ → κ → Bool}

/-- An entry whose key is comparable to all others is inserted in its place. -/
theorem pairwise_insertEntry (htrans : ∀ a b c, before a b → before b c → before a c)
    {entry : κ × α} {entries : List (κ × α)}
    (hentries : entries.Pairwise fun a b => before a.1 b.1)
    (hentry : ∀ other ∈ entries, before entry.1 other.1 ∨ before other.1 entry.1) :
    (insertEntry before entry entries).Pairwise fun a b => before a.1 b.1 := by
  induction entries with
  | nil => exact List.pairwise_singleton _ _
  | cons first rest ih =>
    obtain ⟨hfirst, hrest⟩ := List.pairwise_cons.mp hentries
    obtain ⟨hcompare, hothers⟩ := List.forall_mem_cons.mp hentry
    unfold insertEntry
    split
    · next hbefore =>
      refine List.pairwise_cons.mpr ⟨fun other hother => ?_, ih hrest hothers⟩
      rcases (mem_insertEntry before entry other rest).mp hother with rfl | hmem
      · exact hbefore
      · exact hfirst other hmem
    · next hbefore =>
      have hafter : before entry.1 first.1 := hcompare.resolve_right hbefore
      refine List.pairwise_cons.mpr ⟨fun other hother => ?_, hentries⟩
      rcases List.mem_cons.mp hother with rfl | hmem
      · exact hafter
      · exact htrans _ _ _ hafter (hfirst other hmem)

/-- A table with distinct keys is listed with its keys strictly ascending. -/
theorem pairwise_sorted (htrans : ∀ a b c, before a b → before b c → before a c)
    (htotal : ∀ a b, a ≠ b → before a b ∨ before b a) {t : Table κ α} (hnodup : t.keys.Nodup) :
    (t.sorted before).Pairwise fun a b => before a.1 b.1 := by
  unfold sorted
  unfold keys at hnodup
  revert hnodup
  induction t.entries with
  | nil => exact fun _ => .nil
  | cons entry rest ih =>
    intro hnodup
    rw [List.map_cons, List.nodup_cons] at hnodup
    refine pairwise_insertEntry htrans (ih hnodup.2) fun other hother => ?_
    refine htotal _ _ fun heq => hnodup.1 ?_
    have hmem : other ∈ rest := (mem_sorted before ⟨rest⟩ other).mp hother
    exact List.mem_map.mpr ⟨other, hmem, heq.symm⟩

theorem sorted_image (before : κ → κ → Bool) (row : α → β) (t : Table κ α) :
    (t.image id row).sorted before = (t.sorted before).map (Prod.map id row) := by
  have hinsert : ∀ (entry : κ × α) (entries : List (κ × α)),
      insertEntry before (Prod.map id row entry) (entries.map (Prod.map id row)) =
        (insertEntry before entry entries).map (Prod.map id row) := by
    intro entry entries
    induction entries with
    | nil => rfl
    | cons first rest ih =>
      simp only [List.map_cons, insertEntry, Prod.map_fst, id, ih]
      split <;> rfl
  unfold sorted image
  dsimp only
  induction t.entries with
  | nil => rfl
  | cons entry rest ih => rw [List.map_cons, List.foldr_cons, List.foldr_cons, ih, hinsert]

end Table

theorem Store.idBefore_iff {a b : String} : idBefore a b = true ↔ a < b := decide_eq_true_iff

/-- A table with distinct ids is listed with its ids strictly ascending. -/
theorem Store.pairwise_sorted_ids {α : Type} {t : Table String α} (hnodup : t.keys.Nodup) :
    (t.sorted idBefore).Pairwise fun a b => a.1 < b.1 := by
  have hsorted : (t.sorted idBefore).Pairwise fun a b => idBefore a.1 b.1 := by
    refine Table.pairwise_sorted (fun _ _ _ h h' => ?_) (fun _ _ h => ?_) hnodup
    · exact idBefore_iff.mpr (String.lt_trans (idBefore_iff.mp h) (idBefore_iff.mp h'))
    · exact (lt_or_gt_of_ne h).imp idBefore_iff.mpr idBefore_iff.mpr
  exact hsorted.imp idBefore_iff.mp

/-- A list that ascends strictly is known by its members. -/
theorem eq_of_ascending {α : Type} (key : α → String) {l l' : List α}
    (h : l.Pairwise fun a b => key a < key b) (h' : l'.Pairwise fun a b => key a < key b)
    (hmem : ∀ a, a ∈ l ↔ a ∈ l') : l = l' := by
  have hnodup : ∀ {l : List α}, l.Pairwise (fun a b => key a < key b) → l.Nodup := by
    intro l hl
    refine List.Pairwise.imp (fun hlt heq => ?_) hl
    rw [heq] at hlt
    exact String.lt_irrefl _ hlt
  have hperm : l.Perm l' := (List.perm_ext_iff_of_nodup (hnodup h) (hnodup h')).mpr hmem
  refine hperm.eq_of_pairwise (fun a b _ _ hab hba => ?_) h h'
  exact absurd (String.lt_trans hab hba) (String.lt_irrefl _)

namespace Ledger

variable {g : Ledger} {p : Position} {pool : String}

/-- The open positions of a pool, by ascending id. -/
def openPositions (g : Ledger) (pool : String) : List Position :=
  ((g.positions.sorted Store.idBefore).map (·.2)).filter fun p =>
    p.pool = pool ∧ p.phase = .running

theorem isOpenIn_ofPosition (p : Position) (pool : String) :
    (PositionRow.ofPosition p).isOpenIn pool = decide (p.pool = pool ∧ p.phase = .running) := by
  have hflag : decide (Cell.ofFlag p.phase.isFinalized = .int 0) = decide (p.phase = .running) := by
    cases p.phase <;> decide
  show (decide (p.pool = pool) && decide (Cell.ofFlag p.phase.isFinalized = .int 0)) = _
  rw [hflag, Bool.decide_and]

theorem openPositions_store (g : Ledger) (pool : String) :
    g.store.openPositions pool = .ok (g.openPositions pool) := by
  have hkeyed : ∀ entry ∈ g.positions.sorted Store.idBefore, entry.2.id = entry.1 :=
    fun entry h => g.keyed entry ((Table.mem_sorted _ _ _).mp h)
  unfold Store.openPositions openPositions store
  dsimp only
  rw [Table.sorted_image]
  revert hkeyed
  induction g.positions.sorted Store.idBefore with
  | nil => exact fun _ => rfl
  | cons entry rest ih =>
    intro hkeyed
    obtain ⟨hentry, hrest⟩ := List.forall_mem_cons.mp hkeyed
    have hread : (PositionRow.ofPosition entry.2).read entry.1 = .ok entry.2 := by
      rw [← hentry]
      exact PositionRow.read_ofPosition entry.2
    have hopen : (Prod.map id PositionRow.ofPosition entry).2.isOpenIn pool =
        decide (entry.2.pool = pool ∧ entry.2.phase = .running) := isOpenIn_ofPosition entry.2 pool
    rw [List.map_cons, List.map_cons]
    by_cases h : entry.2.pool = pool ∧ entry.2.phase = .running
    · rw [List.filter_cons_of_pos (by rw [hopen, decide_eq_true h]),
        List.filter_cons_of_pos (by rw [decide_eq_true h]), List.mapM_cons, ih hrest]
      show ((PositionRow.ofPosition entry.2).read entry.1 >>= _) = _
      rw [hread]
      rfl
    · rw [List.filter_cons_of_neg (by rw [hopen, decide_eq_false h]; decide),
        List.filter_cons_of_neg (by rw [decide_eq_false h]; decide)]
      exact ih hrest

/-- The open positions of a pool are its running positions. -/
theorem mem_openPositions :
    p ∈ g.openPositions pool ↔
      g.positions.get? p.id = some p ∧ p.pool = pool ∧ p.phase = .running := by
  have hlisted : p ∈ (g.positions.sorted Store.idBefore).map (·.2) ↔
      g.positions.get? p.id = some p := by
    rw [List.mem_map]
    constructor
    · rintro ⟨entry, hentry, rfl⟩
      have hmem := (Table.mem_sorted _ _ _).mp hentry
      rw [g.keyed entry hmem]
      exact Table.get?_of_mem g.ids_nodup hmem
    · intro hp
      exact ⟨(p.id, p), (Table.mem_sorted _ _ _).mpr (Table.mem_of_get? hp), rfl⟩
  rw [openPositions, List.mem_filter, hlisted, decide_eq_true_iff]

/-- The open positions of a pool ascend by id. -/
theorem pairwise_openPositions (g : Ledger) (pool : String) :
    (g.openPositions pool).Pairwise fun p q => p.id < q.id := by
  refine List.Pairwise.filter _ (List.pairwise_map.mpr ?_)
  refine List.Pairwise.imp_of_mem (fun ha hb hlt => ?_) (Store.pairwise_sorted_ids g.ids_nodup)
  rw [g.keyed _ ((Table.mem_sorted _ _ _).mp ha), g.keyed _ ((Table.mem_sorted _ _ _).mp hb)]
  exact hlt

/-! ### Pools -/

theorem poolIds_store (g : Ledger) :
    g.store.poolIds = (g.pools.sorted Store.idBefore).map (·.1) := by
  unfold Store.poolIds store
  dsimp only
  rw [Table.sorted_image, List.map_map]
  rfl

/-- Exactly the ids of the pools there are are listed. -/
theorem mem_poolIds {id : String} :
    id ∈ (g.pools.sorted Store.idBefore).map (·.1) ↔ (g.pools.get? id).isSome := by
  rw [List.mem_map, Option.isSome_iff_exists]
  constructor
  · rintro ⟨entry, hentry, rfl⟩
    have hmem := (Table.mem_sorted _ _ _).mp hentry
    exact Table.exists_get?_of_mem_keys (List.mem_map.mpr ⟨entry, hmem, rfl⟩)
  · rintro ⟨found, hfound⟩
    exact ⟨(id, found), (Table.mem_sorted _ _ _).mpr (Table.mem_of_get? hfound), rfl⟩

theorem pairwise_poolIds (hnodup : g.pools.keys.Nodup) :
    ((g.pools.sorted Store.idBefore).map (·.1)).Pairwise (· < ·) :=
  List.pairwise_map.mpr (Store.pairwise_sorted_ids hnodup)

end Ledger

end StakeLedger
