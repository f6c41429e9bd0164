import StakeLedger.Text.Upper

/-
  Lower-case text. A character has a lower-case form of one character: one that it is the
  upper-case form of, of several the first, unless a run of its own says otherwise. Only the
  capital I with a dot keeps the dot as a second character. The form of a character does not
  depend on its neighbours. Unicode 14.
-/

namespace StakeLedger.Text

/-- The characters whose lower-case form is not the first character that they are the upper-case
form of, ascending. -/
def lowerRuns : List CaseRun :=
  [⟨452, 458, 3, 2⟩, ⟨453, 459, 3, 1⟩, ⟨497, 497, 1, 2⟩, ⟨498, 498, 1, 1⟩, ⟨921, 921, 1, 32⟩,
   ⟨924, 924, 1, 32⟩, ⟨931, 931, 1, 32⟩, ⟨1012, 1012, 1, -60⟩, ⟨7838, 7838, 1, -7615⟩,
   ⟨8072, 8079, 1, -8⟩, ⟨8088, 8095, 1, -8⟩, ⟨8104, 8111, 1, -8⟩, ⟨8124, 8124, 1, -9⟩,
   ⟨8140, 8140, 1, -9⟩, ⟨8188, 8188, 1, -9⟩, ⟨8486, 8486, 1, -7517⟩, ⟨8490, 8490, 1, -8383⟩,
   ⟨8491, 8491, 1, -8262⟩, ⟨42570, 42570, 1, 1⟩]

/-- The code point that a run moves onto another, if there is one. -/
def CaseRun.source? (r : CaseRun) (n : Nat) : Option Nat :=
  let source := ((n : Int) - r.shift).toNat
  if r.shift ≤ n ∧ r.holds source then some source else none

/-- The lower-case form of one character. -/
def lowerOf (c : Char) : List Char :=
  if c = '\u0130' then ['i', '\u0307']
  else
    match lowerRuns.find? (·.holds c.toNat) with
    | some r => [Char.ofNat ((c.toNat : Int) + r.shift).toNat]
    | none => [((upperRuns.findSome? (·.source? c.toNat)).map Char.ofNat).getD c]

/-- The text in lower case, character by character. -/
def toLower (s : String) : String :=
  String.ofList (s.toList.flatMap lowerOf)

end StakeLedger.Text
