import StakeLedger.Address.Composite
import StakeLedger.Address.Direction
import StakeLedger.Address.Joining
import StakeLedger.Address.Punycode
import StakeLedger.Text.Blank

/-
  Domain names with characters beyond ASCII.
  A name is made of labels between full stops, of which Unicode has four; one may end it. A
  label has letters, digits, marks, and hyphens that stand neither at an end nor at its third
  and fourth place together; no mark begins it, and a few more characters may stand in some
  places. It is composed and has one direction. A label with characters beyond ASCII is written
  in Punycode with a mark in front; what such a label stands for must be one too. A label has
  at most 63 characters, a name 253.
-/

namespace StakeLedger.Address.Domain

/-- Closed ranges of Greek characters of labels. -/
def greekRanges : List (Nat × Nat) :=
  [(0x371, 0x3E1), (0x3F3, 0x3FC), (0x1D26, 0x1D2A), (0x1F00, 0x1FF6), (0xAB65, 0xAB65)]

/-- Closed ranges of Hebrew characters of labels. -/
def hebrewRanges : List (Nat × Nat) := [(0x591, 0x5F4), (0xFB1E, 0xFB1E)]

/-- Closed ranges of the characters of labels in the scripts of Japanese; its middle dot lies
inside. -/
def japaneseRanges : List (Nat × Nat) :=
  [(0x3005, 0x3005), (0x3007, 0x3007), (0x3041, 0x3096), (0x309D, 0x30FA), (0x30FD, 0x30FE),
   (0x31F0, 0x9FFF), (0xFA0E, 0xFA29), (0x16FE3, 0x16FE3), (0x16FF0, 0x16FF1),
   (0x1AFF0, 0x1B167), (0x20000, 0x3134A)]

/-- The digits of Arabic. -/
def isArabicDigit (c : Char) : Bool := inRanges [(0x660, 0x669)] c

/-- The digits of Persian. -/
def isPersianDigit (c : Char) : Bool := inRanges [(0x6F0, 0x6F9)] c

/-- May a character stand between what stands before it in a label, the nearest first, and what
stands behind it? -/
def charFits (before : List Char) (c : Char) (after : List Char) : Bool :=
  if c = '\u00b7' then before.head? = some 'l' && after.head? = some 'l'
  else if c = '\u0375' then after.head?.any (inRanges greekRanges)
  else if c = '\u05f3' || c = '\u05f4' then before.head?.any (inRanges hebrewRanges)
  else if c = '\u30fb' then (before ++ after).any (inRanges japaneseRanges)
  else if isArabicDigit c then !(before ++ after).any isPersianDigit
  else if isPersianDigit c then !(before ++ after).any isArabicDigit
  else if c = joiner || c = nonJoiner then joinerFits c before after
  else isLabelChar c

/-- May all characters of a label stand where they do, behind others in reverse? -/
def charsFit (before : List Char) : List Char → Bool
  | [] => true
  | c :: after => charFits before c after && charsFit (c :: before) after

/-- Is the character a full stop? -/
def isStop (c : Char) : Bool := c = '.' || c = '\u3002' || c = '\uff0e' || c = '\uff61'

/-- The mark in front of a label in Punycode. -/
def mark : List Char := ['x', 'n', '-', '-']

/-- Are the hyphens of a label in their places? -/
def hyphensFit (label : List Char) : Bool :=
  label.head? ≠ some '-' && label.getLast? ≠ some '-' && (label.drop 2).take 2 ≠ ['-', '-']

/-- Is the text a label? -/
def isLabel (label : List Char) : Bool :=
  label ≠ [] && isComposed label && hyphensFit label && !label.head?.any isMark
    && charsFit [] label && Direction.fits label

/-- A label in ASCII. -/
def asciiLabel? (label : List Char) : Option (List Char) :=
  let isAscii := label.all (·.toNat < 0x80)
  let written := if isAscii then label else mark ++ Punycode.encode label
  let meant :=
    if isAscii && mark.isPrefixOf label then
      if label.getLast? = some '-' then none else Punycode.decode? (label.drop mark.length)
    else some label
  if meant.any isLabel && written.length ≤ 63 then some written else none

/-- The labels of a name, and whether a full stop ends it. -/
def labels (name : List Char) : List (List Char) × Bool :=
  let pieces := Text.piecesBy isStop name
  if pieces.getLast? = some [] then (pieces.dropLast, true) else (pieces, false)

/-- The most characters of a name without the full stop at its end. -/
def lengthLimit : Nat := 253

/-- A name in ASCII. -/
def ascii? (name : List Char) : Option (List Char) := do
  let name := name.flatMap Text.lowerOf
  guard (name.length ≤ lengthLimit + 1)
  let (found, stopped) := labels name
  let written ← found.mapM asciiLabel?
  let whole := ['.'].intercalate written
  if found ≠ [] && whole.length ≤ lengthLimit then
    some (whole ++ if stopped then ['.'] else [])
  else none

end StakeLedger.Address.Domain
