/-
  Digits of every script. Each script with decimal digits has ten consecutive code points, zero
  to nine, so the first table holds the zeros only. Beside them there are characters that show
  a digit and are no part of a decimal numeral, such as superscripts and encircled digits: the
  second table. Unicode 14.
-/

namespace StakeLedger.Text

/-- The zero of each run of ten decimal digits, ascending. -/
def digitZeros : List Nat :=
  [0x30, 0x660, 0x6f0, 0x7c0, 0x966, 0x9e6, 0xa66, 0xae6, 0xb66, 0xbe6, 0xc66, 0xce6, 0xd66,
   0xde6, 0xe50, 0xed0, 0xf20, 0x1040, 0x1090, 0x17e0, 0x1810, 0x1946, 0x19d0, 0x1a80, 0x1a90,
   0x1b50, 0x1bb0, 0x1c40, 0x1c50, 0xa620, 0xa8d0, 0xa900, 0xa9d0, 0xa9f0, 0xaa50, 0xabf0,
   0xff10, 0x104a0, 0x10d30, 0x11066, 0x110f0, 0x11136, 0x111d0, 0x112f0, 0x11450, 0x114d0,
   0x11650, 0x116c0, 0x11730, 0x118e0, 0x11950, 0x11c50, 0x11d50, 0x11da0, 0x16a60, 0x16ac0,
   0x16b50, 0x1d7ce, 0x1d7d8, 0x1d7e2, 0x1d7ec, 0x1d7f6, 0x1e140, 0x1e2f0, 0x1e950, 0x1fbf0]

/-- The value of a decimal digit of any script. -/
def digitValue? (c : Char) : Option Nat :=
  (digitZeros.find? fun first => first ≤ c.toNat && c.toNat < first + 10).map (c.toNat - ·)

/-- Is the character a decimal digit of some script? -/
def isDecimalDigit (c : Char) : Bool :=
  (digitValue? c).isSome

/-- Closed ranges of the characters that show a digit and are no decimal digits, ascending. -/
def shownDigitRanges : List (Nat × Nat) :=
  [(0xB2, 0xB3), (0xB9, 0xB9), (0x1369, 0x1371), (0x19DA, 0x19DA), (0x2070, 0x2070),
   (0x2074, 0x2079), (0x2080, 0x2089), (0x2460, 0x2468), (0x2474, 0x247C), (0x2488, 0x2490),
   (0x24EA, 0x24EA), (0x24F5, 0x24FD), (0x24FF, 0x24FF), (0x2776, 0x277E), (0x2780, 0x2788),
   (0x278A, 0x2792), (0x10A40, 0x10A43), (0x10E60, 0x10E68), (0x11052, 0x1105A),
   (0x1F100, 0x1F10A)]

/-- Does the character show a digit, in a decimal numeral or not? -/
def showsDigit (c : Char) : Bool :=
  isDecimalDigit c || shownDigitRanges.any fun r => r.1 ≤ c.toNat && c.toNat ≤ r.2

/-- The character that writes a digit below ten. -/
def digitChar (d : Nat) : Char :=
  Char.ofNat (0x30 + d)

end StakeLedger.Text
