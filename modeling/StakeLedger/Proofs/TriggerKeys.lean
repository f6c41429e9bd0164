import StakeLedger.Proofs.Numeral
import StakeLedger.Trigger

/-
  Which deposit entries share a key.
  The id of a position is free text, with colons and numbers in it as may be, but a label has no
  colon. So the last colon of the text that is hashed is the one in front of the label, whatever
  stands before it (`front_subject`, `back_subject`), and the entry can be read off the text. Two
  entries have one key only by a collision of the digests of two texts (`key_eq_iff`).
-/

namespace StakeLedger

namespace Text

variable {mark : Char} {front back : List Char}

/-- What stands in front of the last character `mark`. -/
def frontOfLast (mark : Char) (cs : List Char) : List Char :=
  ((cs.reverse.dropWhile (· ≠ mark)).drop 1).reverse

/-- What stands behind the last character `mark`. -/
def backOfLast (mark : Char) (cs : List Char) : List Char :=
  (cs.reverse.takeWhile (· ≠ mark)).reverse

/-- A text that is put together at a mark, backwards: the mark is not in the back. -/
theorem reverse_marked (front back : List Char) :
    (front ++ mark :: back).reverse = back.reverse ++ mark :: front.reverse := by
  simp

theorem forall_ne_of_not_mem (h : mark ∉ back) :
    ∀ c ∈ back.reverse, decide (c ≠ mark) = true := by
  intro c hc
  refine decide_eq_true ?_
  rintro rfl
  exact h (List.mem_reverse.mp hc)

theorem frontOfLast_append (h : mark ∉ back) :
    frontOfLast mark (front ++ mark :: back) = front := by
  rw [frontOfLast, reverse_marked, List.dropWhile_append_of_pos (forall_ne_of_not_mem h)]
  simp

theorem backOfLast_append (h : mark ∉ back) :
    backOfLast mark (front ++ mark :: back) = back := by
  rw [backOfLast, reverse_marked, List.takeWhile_append_of_pos (forall_ne_of_not_mem h)]
  simp

theorem writeInt_injective {m n : Int} (h : writeInt m = writeInt n) : m = n := by
  unfold writeInt at h
  rw [Int.toString_eq_repr, Int.toString_eq_repr] at h
  exact Int.repr_injective h

/-- Bytes are listed in their order. -/
theorem toList_loop (bytes : ByteArray) (i : Nat) (done : List UInt8) :
    ByteArray.toList.loop bytes i done = done.reverse ++ bytes.data.toList.drop i := by
  fun_induction ByteArray.toList.loop bytes i done with
  | case1 i done h ih =>
    have hi : i < bytes.data.toList.length := h
    have hbyte : bytes.get! i = bytes.data.toList[i] := getElem!_pos bytes.data i h
    rw [ih, List.drop_eq_getElem_cons hi, List.reverse_cons, List.append_assoc, hbyte]
    rfl
  | case2 i done h =>
    have hi : bytes.data.toList.length ≤ i := Nat.not_lt.mp h
    rw [List.drop_eq_nil_of_le hi, List.append_nil]

/-- Texts with the same bytes in UTF-8 are the same. -/
theorem eq_of_utf8 {s t : String} (h : s.toUTF8.toList = t.toUTF8.toList) : s = t := by
  have hlist : ∀ bytes : ByteArray, bytes.toList = bytes.data.toList := fun bytes =>
    toList_loop bytes 0 []
  rw [hlist, hlist, Array.toList_inj, ← ByteArray.ext_iff] at h
  exact String.toByteArray_inj.mp h

end Text

/-- Two byte strings of which the digests begin with the same sixteen digits. -/
def Digest.Collide (a b : List UInt8) : Prop :=
  a ≠ b ∧ (hexDigest a).take 16 = (hexDigest b).take 16

namespace Trigger

variable {position position' : String} {index index' : Int}

/-- The bytes that are hashed for a key. -/
def hashed (position : String) (index : Int) : List UInt8 :=
  (subject position index).toUTF8.toList

theorem colon_not_mem_label (index : Int) : ':' ∉ (label index).toList := by
  intro h
  rw [label, String.toList_append] at h
  rcases List.mem_append.mp h with h | h
  · exact absurd h (by decide)
  · rcases Text.isDigit_of_mem_writeInt h with hdigit | hsign
    · exact absurd hdigit (by decide)
    · exact absurd hsign (by decide)

theorem label_injective (h : label index = label index') : index = index' :=
  Text.writeInt_injective (String.append_right_inj "purge-" |>.mp h)

theorem toList_subject (position : String) (index : Int) :
    (subject position index).toList = position.toList ++ ':' :: (label index).toList := by
  simp [subject]

/-- The position is read off the text. -/
theorem front_subject (position : String) (index : Int) :
    Text.frontOfLast ':' (subject position index).toList = position.toList := by
  rw [toList_subject, Text.frontOfLast_append (colon_not_mem_label index)]

/-- So is the label. -/
theorem back_subject (position : String) (index : Int) :
    Text.backOfLast ':' (subject position index).toList = (label index).toList := by
  rw [toList_subject, Text.backOfLast_append (colon_not_mem_label index)]

theorem subject_injective (h : subject position index = subject position' index') :
    position = position' ∧ index = index' := by
  have hfront := front_subject position index
  have hback := back_subject position index
  rw [h, front_subject] at hfront
  rw [h, back_subject] at hback
  exact ⟨String.toList_injective hfront.symm, label_injective (String.toList_injective hback.symm)⟩

/-- An id that ends like a label of its own brings no text of another entry. -/
example : subject "a" 12 = "a:purge-12" ∧ subject "a:purge-1" 2 = "a:purge-1:purge-2" := by decide

theorem hashed_eq_iff :
    hashed position index = hashed position' index' ↔ position = position' ∧ index = index' := by
  constructor
  · intro h
    exact subject_injective (Text.eq_of_utf8 h)
  · rintro ⟨rfl, rfl⟩
    rfl

/-- A key is the beginning of the digest of what is hashed. -/
theorem key_eq_key_iff :
    key position index = key position' index' ↔
      (Digest.hexDigest (hashed position index)).take 16 =
        (Digest.hexDigest (hashed position' index')).take 16 := by
  unfold key shortHash
  rw [String.append_right_inj, String.ofList_inj]
  rfl

/-- The texts that are hashed for two deposit entries are the same only if the entries are. So two
entries have one key exactly if they are one entry, or their texts are two of which the digests
begin with the same sixteen digits. -/
theorem key_eq_iff (position position' : String) (index index' : Int) :
    (hashed position index = hashed position' index' ↔
      position = position' ∧ index = index') ∧
    (key position index = key position' index' ↔
      (position = position' ∧ index = index') ∨
        Digest.Collide (hashed position index) (hashed position' index')) := by
  refine ⟨hashed_eq_iff, ?_⟩
  rw [key_eq_key_iff, Digest.Collide, ← hashed_eq_iff]
  constructor
  · intro hdigits
    by_cases h : hashed position index = hashed position' index'
    · exact .inl h
    · exact .inr ⟨h, hdigits⟩
  · rintro (h | ⟨-, hdigits⟩)
    · rw [h]
    · exact hdigits

end Trigger

end StakeLedger
