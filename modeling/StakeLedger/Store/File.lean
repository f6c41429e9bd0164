import StakeLedger.Store.Basic

/-
  Stores as texts: a row a line, the fields of a row divided by tabs, the first of them the name
  of its table. Inside a field a backslash, a tab and the ends of lines are written as escapes.
  A cell is written as its integer, as the bits of its double behind a number sign, or as its
  text behind an equals sign. Reading a field gives back what was written (`unescape_escape`),
  and what is written never looks like a divider (`not_mem_escape`). A line that is no row is
  left out.
-/

namespace StakeLedger

namespace StoreFile

/-- The letter that stands behind a backslash for a character, if the character needs it. -/
def letterOf (c : Char) : Option Char :=
  if c = '\\' then some '\\'
  else if c = '\t' then some 't'
  else if c = '\n' then some 'n'
  else if c = '\r' then some 'r'
  else none

/-- The character that a letter behind a backslash stands for. -/
def ofLetter (c : Char) : Char :=
  if c = 't' then '\t' else if c = 'n' then '\n' else if c = 'r' then '\r' else c

/-- The field of a text. -/
def escape : List Char → List Char
  | [] => []
  | c :: rest =>
    match letterOf c with
    | some letter => '\\' :: letter :: escape rest
    | none => c :: escape rest

/-- The text of a field. -/
def unescape : List Char → List Char
  | [] => []
  | [c] => [c]
  | c :: d :: rest =>
    if c = '\\' then ofLetter d :: unescape rest else c :: unescape (d :: rest)

theorem ofLetter_of_letterOf {c letter : Char} (h : letterOf c = some letter) :
    ofLetter letter = c := by
  unfold letterOf at h
  grind [ofLetter]

theorem unescape_cons {c : Char} (h : c ≠ '\\') (rest : List Char) :
    unescape (c :: rest) = c :: unescape rest := by
  cases rest <;> simp [unescape, h]

/-- Reading a field gives back what was written. -/
theorem unescape_escape (cs : List Char) : unescape (escape cs) = cs := by
  induction cs with
  | nil => rfl
  | cons c rest ih =>
    unfold escape
    split
    · next h => simp [unescape, ofLetter_of_letterOf h, ih]
    · next h =>
      have : c ≠ '\\' := by rintro rfl; simp [letterOf] at h
      rw [unescape_cons this, ih]

/-- No tab and no end of a line stands in a field. -/
theorem not_mem_escape {d : Char} (hd : d = '\t' ∨ d = '\n' ∨ d = '\r') (cs : List Char) :
    d ∉ escape cs := by
  induction cs with
  | nil => simp [escape]
  | cons c rest ih =>
    unfold escape
    split
    · next h => unfold letterOf at h; grind
    · next h => unfold letterOf at h; grind

/-- The parts of a text between dividers. -/
def split (divider : Char) (s : String) : List String :=
  s.splitOn (String.singleton divider)

/-- The field of a string. -/
def field (s : String) : String := String.ofList (escape s.toList)

/-- The field of a cell. -/
def cellField : Cell → String
  | .int n => Text.writeInt n
  | .real x => "#" ++ toString x.bits
  | .text s => "=" ++ field s

/-- The string of a field. -/
def readField (s : String) : String := String.ofList (unescape s.toList)

/-- The cell of a field. -/
def readCell (s : String) : Option Cell :=
  match s.toList with
  | '#' :: rest => (String.ofList rest).toNat?.map fun bits => .real (.ofBits bits)
  | '=' :: rest => some (.text (String.ofList (unescape rest)))
  | _ => s.toInt?.map .int

/-- A line with some fields. -/
def line (fields : List String) : String := "\t".intercalate fields ++ "\n"

/-- Puts the row of a line into a store, if the line has one. -/
def putLine (s : Store) (text : String) : Store :=
  let row : Option Store := match split '\t' text with
    | ["pool", id, staked, rate, asOf] => do
      let asOf ← readCell asOf
      pure { s with
        pools := s.pools.put (readField id) ⟨readField staked, readField rate, asOf⟩ }
    | ["position", id, pool, index, rate, finalized, closed] => do
      let index ← readCell index
      let finalized ← readCell finalized
      let closed ← readCell closed
      pure { s with
        positions := s.positions.put (readField id)
          ⟨readField pool, index, readField rate, finalized, closed⟩ }
    | ["lockup", id, index, kind, start, stop] => do
      let index ← readCell index
      let start ← readCell start
      let stop ← readCell stop
      pure { s with
        lockups := s.lockups.put (readField id, index) ⟨readField kind, start, stop⟩ }
    | _ => none
  row.getD s

end StoreFile

namespace Store

/-- The text of a store. -/
def toText (s : Store) : String :=
  let pools := s.pools.entries.map fun (id, row) => StoreFile.line
    ["pool", StoreFile.field id, StoreFile.field row.staked, StoreFile.field row.rate,
      StoreFile.cellField row.asOf]
  let positions := s.positions.entries.map fun (id, row) => StoreFile.line
    ["position", StoreFile.field id, StoreFile.field row.pool, StoreFile.cellField row.index,
      StoreFile.field row.rate, StoreFile.cellField row.finalized,
      StoreFile.cellField row.closed]
  let lockups := s.lockups.entries.map fun (key, row) => StoreFile.line
    ["lockup", StoreFile.field key.1, StoreFile.cellField key.2, StoreFile.field row.kind,
      StoreFile.cellField row.start, StoreFile.cellField row.stop]
  String.join (pools ++ positions ++ lockups)

/-- The store of a text. -/
def ofText (text : String) : Store :=
  (StoreFile.split '\n' text).foldl StoreFile.putLine {}

end Store

end StakeLedger
