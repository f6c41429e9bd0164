/-
  Blank characters, and text without the blanks at its ends.
  Two sets are in use. `isWhite` is the Unicode property White_Space: 25 characters.
  `isBlank` adds the four information separators U+001C to U+001F. A numeral may stand
  between white characters; the ends of a free text are cleared of blanks.
-/

namespace StakeLedger.Text

/-- Closed ranges of the characters with the property White_Space, ascending and apart. -/
def whiteRanges : List (Nat × Nat) :=
  [(0x09, 0x0D), (0x20, 0x20), (0x85, 0x85), (0xA0, 0xA0), (0x1680, 0x1680), (0x2000, 0x200A),
   (0x2028, 0x2029), (0x202F, 0x202F), (0x205F, 0x205F), (0x3000, 0x3000)]

/-- Does the character have the property White_Space? -/
def isWhite (c : Char) : Bool :=
  whiteRanges.any fun r => r.1 ≤ c.toNat && c.toNat ≤ r.2

/-- Is the character white, or one of the information separators? -/
def isBlank (c : Char) : Bool :=
  isWhite c || (0x1C ≤ c.toNat && c.toNat ≤ 0x1F)

/-- The list without the leading members that satisfy `p`, and without the trailing ones. -/
def trimBy (p : Char → Bool) (cs : List Char) : List Char :=
  ((cs.dropWhile p).reverse.dropWhile p).reverse

/-- The list without the trailing members that satisfy `p`. -/
def trimEndBy (p : Char → Bool) (cs : List Char) : List Char :=
  (cs.reverse.dropWhile p).reverse

/-- The text without the blanks at its ends. -/
def trimBlank (s : String) : String :=
  String.ofList (trimBy isBlank s.toList)

/-- The pieces of a list between members that satisfy `p`, empty pieces included. -/
def piecesBy (p : Char → Bool) : List Char → List (List Char)
  | [] => [[]]
  | c :: rest =>
    match piecesBy p rest with
    | [] => [[c]]
    | piece :: more => if p c then [] :: piece :: more else (c :: piece) :: more

/-- The words of a list: its longest stretches without blanks. -/
def words (cs : List Char) : List (List Char) :=
  (piecesBy isBlank cs).filter (· ≠ [])

end StakeLedger.Text
