import Mathlib
import StakeLedger.Store.Table

/-
  More on tables: what is in them, sums over their rows, and their images under other keys and
  rows. Entries are counted by `sum`, which a put changes by the new row and the old
  (`sum_put`). Keys that are distinct stay so (`nodup_keys_put`), and then a table is as good
  as its view (`get?_of_mem`).
-/

namespace StakeLedger

namespace Table

variable {κ κ' α β : Type}

/-- The keys of a table. -/
def keys (t : Table κ α) : List κ := t.entries.map (·.1)

/-- The sum of a quantity over all rows. -/
def sum (f : α → Int) (t : Table κ α) : Int := (t.entries.map fun entry => f entry.2).sum

/-- The table with other keys and rows in the places of its own. -/
def image (key : κ → κ') (row : α → β) (t : Table κ α) : Table κ' β :=
  ⟨t.entries.map (Prod.map key row)⟩

theorem get?_image [DecidableEq κ] [DecidableEq κ'] {key : κ → κ'} (hkey : key.Injective)
    (row : α → β) (t : Table κ α) (k : κ) :
    (t.image key row).get? (key k) = (t.get? k).map row := by
  unfold image get?
  dsimp only
  induction t.entries with
  | nil => rfl
  | cons entry rest ih =>
    simp only [List.map_cons, rowOf, Prod.map_fst, Prod.map_snd, hkey.eq_iff, ih]
    split <;> rfl

/-- A key that is no image of a key is not in the image of a table. -/
theorem get?_image_of_ne [DecidableEq κ'] {key : κ → κ'} (row : α → β) (t : Table κ α) {k' : κ'}
    (h : ∀ k, key k ≠ k') : (t.image key row).get? k' = none := by
  unfold image get?
  dsimp only
  induction t.entries with
  | nil => rfl
  | cons entry rest ih => rw [List.map_cons, rowOf, Prod.map_fst, if_neg (h entry.1), ih]

theorem put_image [DecidableEq κ] [DecidableEq κ'] {key : κ → κ'} (hkey : key.Injective)
    (row : α → β) (t : Table κ α) (k : κ) (a : α) :
    (t.image key row).put (key k) (row a) = (t.put k a).image key row := by
  unfold image put
  dsimp only
  rw [mk.injEq]
  induction t.entries with
  | nil => rfl
  | cons entry rest ih =>
    simp only [List.map_cons, putEntry, Prod.map_fst, hkey.eq_iff, ih]
    split <;> rfl

variable [DecidableEq κ] {t : Table κ α} {key : κ} {row : α}

theorem mem_of_get? (h : t.get? key = some row) : (key, row) ∈ t.entries := by
  unfold get? at h
  induction htable : t.entries generalizing t with
  | nil => rw [htable] at h; cases h
  | cons entry rest ih =>
    rw [htable, rowOf] at h
    split at h
    · next hkey =>
      cases h
      rw [← hkey]
      exact List.mem_cons_self
    · exact List.mem_cons_of_mem entry (ih (t := ⟨rest⟩) h rfl)

theorem get?_of_mem (hnodup : t.keys.Nodup) (h : (key, row) ∈ t.entries) :
    t.get? key = some row := by
  unfold get? keys at *
  induction htable : t.entries generalizing t with
  | nil => rw [htable] at h; cases h
  | cons entry rest ih =>
    rw [htable] at h hnodup
    rw [List.map_cons, List.nodup_cons] at hnodup
    rw [rowOf]
    rcases List.mem_cons.mp h with rfl | hmem
    · rw [if_pos rfl]
    · have hne : entry.1 ≠ key := by
        intro heq
        exact hnodup.1 (List.mem_map.mpr ⟨_, hmem, heq.symm⟩)
      rw [if_neg hne]
      exact ih (t := ⟨rest⟩) hnodup.2 hmem rfl

theorem exists_get?_of_mem_keys (h : key ∈ t.keys) : ∃ row, t.get? key = some row := by
  unfold get? keys at *
  induction htable : t.entries generalizing t with
  | nil => rw [htable] at h; cases h
  | cons entry rest ih =>
    rw [htable, List.map_cons] at h
    rw [rowOf]
    by_cases hkey : entry.1 = key
    · exact ⟨entry.2, if_pos hkey⟩
    · rw [if_neg hkey]
      rcases List.mem_cons.mp h with heq | hmem
      · exact absurd heq.symm hkey
      · exact ih (t := ⟨rest⟩) hmem rfl

/-- A table holds what it held and what was put. -/
theorem mem_put {entry : κ × α} (h : entry ∈ (t.put key row).entries) :
    entry = (key, row) ∨ entry ∈ t.entries := by
  unfold put at h
  dsimp only at h
  induction htable : t.entries generalizing t with
  | nil => rw [htable] at h; exact Or.inl (List.mem_singleton.mp h)
  | cons first rest ih =>
    rw [htable, putEntry] at h
    split at h
    · rcases List.mem_cons.mp h with heq | hmem
      · exact Or.inl heq
      · exact Or.inr (List.mem_cons_of_mem first hmem)
    · rcases List.mem_cons.mp h with heq | hmem
      · exact Or.inr (heq ▸ List.mem_cons_self)
      · rcases ih (t := ⟨rest⟩) hmem rfl with heq | hmem
        · exact Or.inl heq
        · exact Or.inr (List.mem_cons_of_mem first hmem)

/-- Putting adds no key that is there already. -/
theorem nodup_keys_put (h : t.keys.Nodup) : (t.put key row).keys.Nodup := by
  unfold keys at *
  induction htable : t.entries generalizing t with
  | nil => simp [put, putEntry, htable]
  | cons first rest ih =>
    rw [htable, List.map_cons, List.nodup_cons] at h
    unfold put
    dsimp only
    rw [htable, putEntry]
    split
    · next hkey =>
      rw [List.map_cons, List.nodup_cons, ← hkey]
      exact h
    · next hkey =>
      rw [List.map_cons, List.nodup_cons]
      refine ⟨?_, ih (t := ⟨rest⟩) h.2 rfl⟩
      intro hmem
      obtain ⟨entry, hentry, heq⟩ := List.mem_map.mp hmem
      rcases mem_put (t := ⟨rest⟩) hentry with rfl | hrest
      · exact hkey heq.symm
      · exact h.1 (List.mem_map.mpr ⟨entry, hrest, heq⟩)

/-- Of two rows put under one key the second stays. -/
theorem put_put (t : Table κ α) (key : κ) (row row' : α) :
    (t.put key row).put key row' = t.put key row' := by
  unfold put
  dsimp only
  rw [mk.injEq]
  induction t.entries with
  | nil => simp [putEntry]
  | cons first rest ih =>
    rw [putEntry]
    split
    · next hkey => rw [putEntry, if_pos rfl, putEntry, if_pos hkey]
    · next hkey => rw [putEntry, if_neg hkey, ih, putEntry, if_neg hkey]

/-- Rows put one after another: the last one put under a key stands there. -/
theorem get?_putAll (rows : List (κ × α)) (t : Table κ α) (key : κ) :
    (rows.foldl (fun t entry => t.put entry.1 entry.2) t).get? key =
      ((ofList rows).get? key).or (t.get? key) := by
  induction rows generalizing t with
  | nil => rfl
  | cons entry rest ih =>
    rw [ofList, List.foldl_cons, List.foldl_cons, ih, ih (put {} entry.1 entry.2),
      Option.or_assoc, get?_put, get?_put]
    split <;> rfl

/-- Putting the same rows once more changes no row. -/
theorem get?_putAll_again (rows : List (κ × α)) (t : Table κ α) (key : κ) :
    (rows.foldl (fun t entry => t.put entry.1 entry.2)
        (rows.foldl (fun t entry => t.put entry.1 entry.2) t)).get? key =
      (rows.foldl (fun t entry => t.put entry.1 entry.2) t).get? key := by
  rw [get?_putAll rows (rows.foldl _ t), get?_putAll rows t, ← Option.or_assoc]
  cases (ofList rows).get? key <;> rfl

/-- Putting a row changes a sum by what the row adds and what the row before it had added. -/
theorem sum_put (f : α → Int) :
    (t.put key row).sum f = t.sum f + f row - (t.get? key).elim 0 f := by
  unfold put get? sum
  dsimp only
  induction t.entries with
  | nil => simp [putEntry, rowOf]
  | cons first rest ih =>
    rw [putEntry, rowOf]
    split
    · simp only [List.map_cons, List.sum_cons, Option.elim_some]
      omega
    · simp only [List.map_cons, List.sum_cons, ih]
      omega

end Table

end StakeLedger
