import StakeLedger.Address.Letter

/-
  Directions of labels.
  A label with a character of a script that is written from right to left, or with a digit of
  such a script, has to begin with such a character. It then has nothing that is written from
  left to right, digits of one kind, and a letter or a digit before the marks at its end.
  Unicode 14.
-/

namespace StakeLedger.Address

/-- How a character is written. -/
inductive Direction where
  | rightward
  | leftward
  /-- Digits, written in the direction of the text, and those of scripts written leftward. -/
  | digit
  | leftwardDigit
  /-- What has no direction of its own. -/
  | neutral
  | mark
  deriving DecidableEq, Repr

namespace Direction

/-- Closed ranges of the letters that are written from right to left. -/
def leftwardRanges : List (Nat × Nat) :=
  [(0x5D0, 0x5F4), (0x620, 0x64A), (0x66E, 0x66F), (0x671, 0x6D5), (0x6E5, 0x6E6), (0x6EE, 0x6EF),
   (0x6FA, 0x710), (0x712, 0x72F), (0x74D, 0x7A5), (0x7B1, 0x7EA), (0x7F4, 0x7F5), (0x800, 0x815),
   (0x81A, 0x81A), (0x824, 0x824), (0x828, 0x828), (0x840, 0x858), (0x860, 0x88E), (0x8A0, 0x8C9),
   (0xFE73, 0xFE73), (0x10800, 0x10A00), (0x10A10, 0x10A35), (0x10A60, 0x10AE4),
   (0x10B00, 0x10D23), (0x10E80, 0x10EA9), (0x10EB0, 0x10F45), (0x10F70, 0x10F81),
   (0x10FB0, 0x10FF6), (0x1E800, 0x1E8C4), (0x1E922, 0x1E943), (0x1E94B, 0x1E959)]

/-- Closed ranges of the digits of scripts that are written from right to left. -/
def leftwardDigitRanges : List (Nat × Nat) :=
  [(0x660, 0x669), (0x10D30, 0x10D39)]

/-- Closed ranges of characters without a direction. -/
def neutralRanges : List (Nat × Nat) :=
  [(0xB7, 0xB7), (0x2B9, 0x2BA), (0x2C6, 0x2CF), (0x2EC, 0x2EC), (0x375, 0x375), (0x200C, 0x200D),
   (0x2E2F, 0x2E2F), (0x30FB, 0x30FB), (0xA67F, 0xA67F), (0xA717, 0xA71F), (0xA788, 0xA788)]

/-- How a character of a label is written. -/
def ofChar (c : Char) : Direction :=
  if c.isDigit || inRanges [(0x6F0, 0x6F9)] c then .digit
  else if c = '-' || inRanges neutralRanges c then .neutral
  else if isMark c then .mark
  else if inRanges leftwardRanges c then .leftward
  else if inRanges leftwardDigitRanges c then .leftwardDigit
  else .rightward

/-- Does a text have one direction, as a label has to? -/
def fits (label : List Char) : Bool :=
  let found := label.map ofChar
  if !found.any fun d => d = leftward || d = leftwardDigit then true
  else
    found.head? = some leftward
      && found.all (· ≠ rightward)
      && !(found.contains digit && found.contains leftwardDigit)
      && (found.reverse.dropWhile (· = mark)).head?.any (· ≠ neutral)

end Direction

end StakeLedger.Address
