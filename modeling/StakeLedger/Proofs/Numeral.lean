import Mathlib
import StakeLedger.Text.Numeral

/-
  Written integers read back: `readInt_writeInt`.
  A written numeral has ASCII digits only, behind a minus sign for a negative number. None of
  these is white, so nothing is trimmed, and each digit has its value. What is left is the
  limit on the number of digits, which writing and reading share.
-/

namespace StakeLedger.Text

attribute [local instance (high)] instPowNat

/-- All but enormous integers have a numeral. -/
theorem fitsNumeral_of_lt {n : Int} (h : n.natAbs < 10 ^ 40) : fitsNumeral n = true := by
  rw [fitsNumeral, decide_eq_true_iff]
  exact lt_of_lt_of_le h (Nat.pow_le_pow_right (by decide) (by decide))

theorem toNat_of_isDigit {c : Char} (h : c.isDigit = true) : 0x30 ≤ c.toNat ∧ c.toNat ≤ 0x39 := by
  simp only [Char.isDigit, Bool.and_eq_true, decide_eq_true_eq, ge_iff_le,
    UInt32.le_iff_toNat_le] at h
  exact h

theorem isWhite_of_isDigit {c : Char} (h : c.isDigit = true) : isWhite c = false := by
  obtain ⟨hlow, hhigh⟩ := toNat_of_isDigit h
  simp [isWhite, whiteRanges]
  omega

theorem digitValue?_of_isDigit {c : Char} (h : c.isDigit = true) :
    digitValue? c = some (c.toNat - '0'.toNat) := by
  obtain ⟨hlow, hhigh⟩ := toNat_of_isDigit h
  have hfirst : (decide (0x30 ≤ c.toNat) && decide (c.toNat < 0x30 + 10)) = true := by
    simp only [Bool.and_eq_true, decide_eq_true_eq]
    omega
  have hfind : digitZeros.find? (fun first => decide (first ≤ c.toNat) &&
      decide (c.toNat < first + 10)) = some 0x30 := List.find?_cons_of_pos hfirst
  rw [digitValue?, hfind]
  rfl

theorem trimBy_of_forall {p : Char → Bool} {cs : List Char} (h : ∀ c ∈ cs, p c = false) :
    trimBy p cs = cs := by
  have hdrop : ∀ l : List Char, (∀ c ∈ l, p c = false) → l.dropWhile p = l := by
    intro l hl
    cases l with
    | nil => rfl
    | cons c rest => rw [List.dropWhile_cons_of_neg (by simp [hl c List.mem_cons_self])]
  rw [trimBy, hdrop cs h, hdrop cs.reverse (fun c hc => h c (List.mem_reverse.mp hc)),
    List.reverse_reverse]

/-- A run of ASCII digits is read digit by digit. -/
theorem bodyDigits_of_isDigit {cs : List Char} (h : ∀ c ∈ cs, c.isDigit = true) (b : Bool)
    (hne : cs ≠ [] ∨ b = true) :
    bodyDigits b cs = some (cs.map fun c => c.toNat - '0'.toNat) := by
  induction cs generalizing b with
  | nil =>
    obtain hne | rfl := hne
    · exact absurd rfl hne
    · rfl
  | cons c rest ih =>
    have hrest := ih (fun d hd => h d (List.mem_cons_of_mem c hd)) true (Or.inr rfl)
    rw [bodyDigits, digitValue?_of_isDigit (h c List.mem_cons_self)]
    simp only [hrest, Option.map_some, List.map_cons]

/-- The digits of a number are read as the number, if they are not too many. -/
theorem readBody_toDigits {n : Nat} (h : n < 10 ^ digitLimit) :
    readBody (Nat.toDigits 10 n) = .ok n := by
  have hdigit : ∀ c ∈ Nat.toDigits 10 n, c.isDigit = true := fun c hc =>
    Nat.isDigit_of_mem_toDigits (by decide) (by decide) hc
  have hrun : (Nat.toDigits 10 n).takeWhile (fun c => isDecimalDigit c || c = '_') =
      Nat.toDigits 10 n := by
    rw [List.takeWhile_eq_self_iff]
    intro c hc
    simp [isDecimalDigit, digitValue?_of_isDigit (hdigit c hc)]
  have hlength : ((Nat.toDigits 10 n).map fun c => c.toNat - '0'.toNat).length ≤ digitLimit := by
    rw [List.length_map]
    exact (Nat.length_toDigits_le_iff (by decide) (by decide)).mpr h
  have hvalue : valueOfDigits ((Nat.toDigits 10 n).map fun c => c.toNat - '0'.toNat) = n := by
    rw [valueOfDigits, List.foldl_map]
    exact Nat.ofDigitChars_ten_toDigits
  unfold readBody
  simp only [hrun, bodyDigits_of_isDigit hdigit false (Or.inl Nat.toDigits_ne_nil)]
  rw [if_neg (by omega), if_pos trivial, hvalue]

/-- A written integer consists of ASCII digits and a minus sign. -/
theorem isDigit_of_mem_writeInt {n : Int} {c : Char} (h : c ∈ (writeInt n).toList) :
    c.isDigit = true ∨ c = '-' := by
  have hdigit : ∀ m : Nat, c ∈ m.repr.toList → c.isDigit = true := fun m hc =>
    Nat.isDigit_of_mem_toDigits (by decide) (by decide) (Nat.toList_repr ▸ hc)
  rw [writeInt, Int.toString_eq_repr, Int.repr_eq_if] at h
  split at h
  · exact .inl (hdigit _ h)
  · rw [String.toList_append] at h
    rcases List.mem_append.mp h with hsign | hc
    · exact .inr (by simpa using hsign)
    · exact .inl (hdigit _ hc)

/-- Reading gives back the integer that was written, up to the limit of both. -/
theorem readInt_writeInt {n : Int} (h : fitsNumeral n = true) : readInt (writeInt n) = .ok n := by
  have hbound : n.natAbs < 10 ^ digitLimit := by simpa [fitsNumeral] using h
  have hdigit : ∀ m : Nat, ∀ c ∈ Nat.toDigits 10 m, c.isDigit = true := fun m c hc =>
    Nat.isDigit_of_mem_toDigits (by decide) (by decide) hc
  unfold readInt writeInt
  rw [Int.toString_eq_repr, Int.repr_eq_if]
  by_cases hn : 0 ≤ n
  · have htrim : trimBy isWhite (Nat.toDigits 10 n.toNat) = Nat.toDigits 10 n.toNat :=
      trimBy_of_forall fun c hc => isWhite_of_isDigit (hdigit _ c hc)
    have hsign : splitSign (Nat.toDigits 10 n.toNat) = (false, Nat.toDigits 10 n.toNat) := by
      unfold splitSign
      split
      · next heq => exact absurd (hdigit n.toNat '-' (by simp [heq])) (by decide)
      · next heq => exact absurd (hdigit n.toNat '+' (by simp [heq])) (by decide)
      · rfl
    rw [if_pos hn, Nat.toList_repr, htrim, hsign]
    dsimp only
    rw [readBody_toDigits (by omega)]
    exact congrArg Except.ok (Int.toNat_of_nonneg hn)
  · have htrim : trimBy isWhite ('-' :: Nat.toDigits 10 (-n).toNat) =
        '-' :: Nat.toDigits 10 (-n).toNat := by
      apply trimBy_of_forall
      intro c hc
      rcases List.mem_cons.mp hc with rfl | hc
      · decide
      · exact isWhite_of_isDigit (hdigit _ c hc)
    have hlist : ("-" ++ (-n).toNat.repr).toList = '-' :: Nat.toDigits 10 (-n).toNat := by simp
    rw [if_neg hn, hlist, htrim, splitSign]
    dsimp only
    rw [readBody_toDigits (by omega)]
    have hvalue : -((-n).toNat : Int) = n := by
      clear hbound
      omega
    exact congrArg Except.ok hvalue

end StakeLedger.Text
