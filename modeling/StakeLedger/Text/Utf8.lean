/-
  UTF-8: the bytes of text, and text read from any bytes.
  Bytes that are no text are read with replacement characters: one for every stretch that begins
  a character and is not continued, and one for every byte that begins none.
-/

namespace StakeLedger.Text

/-- The bytes of a character. -/
def bytesOf (c : Char) : List Nat := (String.utf8EncodeChar c).map UInt8.toNat

/-- What is shown for bytes that are no text. -/
def replacement : Char := '\ufffd'

/-- A character of which some bytes have been read: their bits, the number of bytes to come, and
the bounds of the next one. -/
structure OpenChar where
  bits : Nat
  left : Nat
  least : Nat
  most : Nat
  deriving DecidableEq, Repr

/-- The character of several bytes that a byte begins. The bounds leave out what has a shorter
form, surrogates, and what lies beyond the last code point. -/
def OpenChar.ofFirst? (b : Nat) : Option OpenChar :=
  if 0xC2 ≤ b ∧ b ≤ 0xDF then some ⟨b % 0x20, 1, 0x80, 0xBF⟩
  else if 0xE0 ≤ b ∧ b ≤ 0xEF then
    some ⟨b % 0x10, 2, if b = 0xE0 then 0xA0 else 0x80, if b = 0xED then 0x9F else 0xBF⟩
  else if 0xF0 ≤ b ∧ b ≤ 0xF4 then
    some ⟨b % 0x08, 3, if b = 0xF0 then 0x90 else 0x80, if b = 0xF4 then 0x8F else 0xBF⟩
  else none

/-- What a byte at the start of a character gives. -/
def firstByte (b : Nat) : List Char × Option OpenChar :=
  if b < 0x80 then ([Char.ofNat b], none)
  else
    match OpenChar.ofFirst? b with
    | some c => ([], some c)
    | none => ([replacement], none)

/-- The text of bytes that follow an open character, if there is one. -/
def decodeFrom : Option OpenChar → List Nat → List Char
  | none, [] => []
  | some _, [] => [replacement]
  | none, b :: rest => (firstByte b).1 ++ decodeFrom (firstByte b).2 rest
  | some c, b :: rest =>
    if c.least ≤ b ∧ b ≤ c.most then
      let bits := c.bits * 0x40 + b % 0x40
      if c.left = 1 then Char.ofNat bits :: decodeFrom none rest
      else decodeFrom (some ⟨bits, c.left - 1, 0x80, 0xBF⟩) rest
    else replacement :: (firstByte b).1 ++ decodeFrom (firstByte b).2 rest

/-- The text of some bytes. -/
def decode (bytes : List Nat) : String := String.ofList (decodeFrom none bytes)

/-- Text of ASCII is its own bytes. -/
theorem decodeFrom_ascii (bytes : List Nat) (h : ∀ b ∈ bytes, b < 0x80) :
    decodeFrom none bytes = bytes.map Char.ofNat := by
  induction bytes with
  | nil => rfl
  | cons b rest ih =>
    have hb : b < 0x80 := h b (by simp)
    simp [decodeFrom, firstByte, hb, ih fun x hx => h x (by simp [hx])]

end StakeLedger.Text
