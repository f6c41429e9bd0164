/-
  Tables: rows under keys, at most one row a key.
  The view of a table is `get?`: putting a row changes it at the row's key and nowhere else
  (`get?_put`). A listing shows the rows in an order of their keys.
-/

namespace StakeLedger

/-- Rows under keys. -/
structure Table (κ α : Type) where
  entries : List (κ × α) := []
  deriving DecidableEq, Repr

namespace Table

variable {κ α : Type}

/-- The row of the first entry with a key. -/
def rowOf [DecidableEq κ] (key : κ) : List (κ × α) → Option α
  | [] => none
  | entry :: rest => if entry.1 = key then some entry.2 else rowOf key rest

/-- Puts an entry into a list: in the place of the first one with its key, or at the end. -/
def putEntry [DecidableEq κ] (key : κ) (row : α) : List (κ × α) → List (κ × α)
  | [] => [(key, row)]
  | entry :: rest =>
    if entry.1 = key then (key, row) :: rest else entry :: putEntry key row rest

/-- The row under a key. -/
def get? [DecidableEq κ] (t : Table κ α) (key : κ) : Option α := rowOf key t.entries

/-- Puts a row under a key, in the place of any earlier one. -/
def put [DecidableEq κ] (t : Table κ α) (key : κ) (row : α) : Table κ α :=
  ⟨putEntry key row t.entries⟩

/-- The table with the rows of a list, put one after another. -/
def ofList [DecidableEq κ] (entries : List (κ × α)) : Table κ α :=
  entries.foldl (fun t entry => t.put entry.1 entry.2) {}

/-- Inserts an entry before the first one whose key does not come before its key. -/
def insertEntry (before : κ → κ → Bool) (entry : κ × α) : List (κ × α) → List (κ × α)
  | [] => [entry]
  | other :: rest =>
    if before other.1 entry.1 then other :: insertEntry before entry rest
    else entry :: other :: rest

/-- The entries in an order of their keys. -/
def sorted (before : κ → κ → Bool) (t : Table κ α) : List (κ × α) :=
  t.entries.foldr (insertEntry before) []

theorem rowOf_putEntry [DecidableEq κ] (key other : κ) (row : α) (entries : List (κ × α)) :
    rowOf other (putEntry key row entries) =
      if other = key then some row else rowOf other entries := by
  induction entries with
  | nil => simp [putEntry, rowOf, eq_comm]
  | cons entry rest ih =>
    unfold putEntry
    split <;> simp only [rowOf, ih] <;> grind

/-- Putting a row changes the view at its key and nowhere else. -/
@[simp] theorem get?_put [DecidableEq κ] (t : Table κ α) (key other : κ) (row : α) :
    (t.put key row).get? other = if other = key then some row else t.get? other :=
  rowOf_putEntry key other row t.entries

theorem mem_insertEntry (before : κ → κ → Bool) (entry other : κ × α)
    (entries : List (κ × α)) :
    other ∈ insertEntry before entry entries ↔ other = entry ∨ other ∈ entries := by
  induction entries with
  | nil => simp [insertEntry]
  | cons first rest ih =>
    unfold insertEntry
    split <;> simp [ih, or_left_comm]

/-- A listing shows the entries of the table and no others. -/
theorem mem_sorted (before : κ → κ → Bool) (t : Table κ α) (entry : κ × α) :
    entry ∈ t.sorted before ↔ entry ∈ t.entries := by
  unfold sorted
  induction t.entries with
  | nil => simp
  | cons first rest ih => simp [mem_insertEntry, ih]

end Table

end StakeLedger
