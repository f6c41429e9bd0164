import StakeLedger.Text.Quoted
import StakeLedger.Text.Utf8

/-
  Percent escapes: a byte as a percent sign and two hexadecimal digits.
  Encoding writes the bytes of every character that is not to be kept; where the percent sign is
  kept, escapes that are there already stay. Decoding reads the escapes, and keeps a percent
  sign that begins none.
-/

namespace StakeLedger.Text

/-- The escape of a byte, with capital digits. -/
def percentByte (b : Nat) : List Char := '%' :: (hex 2 b).map Char.toUpper

/-- The text with every character escaped that is not kept. -/
def percentEncode (keep : Char → Bool) (cs : List Char) : List Char :=
  cs.flatMap fun c => if keep c then [c] else (bytesOf c).flatMap percentByte

/-- The value of a hexadecimal digit, small or capital. -/
def hexValue? (c : Char) : Option Nat :=
  if '0' ≤ c ∧ c ≤ '9' then some (c.toNat - 0x30)
  else if 'a' ≤ c ∧ c ≤ 'f' then some (c.toNat - 0x57)
  else if 'A' ≤ c ∧ c ≤ 'F' then some (c.toNat - 0x37)
  else none

/-- The bytes of a text with escapes. -/
def percentBytes : List Char → List Nat
  | '%' :: a :: b :: rest =>
    match hexValue? a, hexValue? b with
    | some high, some low => (16 * high + low) :: percentBytes rest
    | _, _ => '%'.toNat :: percentBytes (a :: b :: rest)
  | c :: rest => bytesOf c ++ percentBytes rest
  | [] => []

/-- The text that a text with escapes stands for. -/
def percentDecode (cs : List Char) : String := decode (percentBytes cs)

/-- Characters that are kept stay as they are. -/
theorem percentEncode_of_kept (keep : Char → Bool) (cs : List Char)
    (h : ∀ c ∈ cs, keep c = true) : percentEncode keep cs = cs := by
  induction cs with
  | nil => rfl
  | cons c rest ih =>
    have hc : keep c = true := h c (by simp)
    have hr : percentEncode keep rest = rest := ih fun x hx => h x (by simp [hx])
    unfold percentEncode at hr ⊢
    rw [List.flatMap_cons, hr]
    simp [hc]

end StakeLedger.Text
