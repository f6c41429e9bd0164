import StakeLedger.Proofs.TriggerAddresses

/-
  Percent escapes in texts, and pieces between marks.
  Encoding leaves what is kept and adds only escapes, of which every one has a percent sign
  (`mem_percentEncode`, `percentEncode_of_no_percent`). Decoding knows where it is at each slash:
  no escape goes across one, and no character of several bytes does (`percentDecode_append_slash`).
-/

namespace StakeLedger

namespace Text

variable {c : Char} {cs front back : List Char}

theorem piecesBy_eq_splitOnP (p : Char → Bool) (cs : List Char) :
    piecesBy p cs = cs.splitOnP p := by
  induction cs with
  | nil => rfl
  | cons c rest ih =>
    rw [piecesBy, ih, List.splitOnP_cons_eq_if_modifyHead]
    cases hpieces : rest.splitOnP p with
    | nil => exact absurd hpieces (List.splitOnP_ne_nil p rest)
    | cons piece more => rfl

/-- A piece between marks has no mark. -/
theorem not_mem_of_mem_splitOn {mark : Char} {piece : List Char}
    (h : piece ∈ cs.splitOn mark) : mark ∉ piece := by
  induction cs generalizing piece with
  | nil =>
    rw [List.splitOn_nil, List.mem_singleton] at h
    rw [h]
    exact List.not_mem_nil
  | cons c rest ih =>
    unfold List.splitOn at h ih
    rw [List.splitOnP_cons_eq_if_modifyHead] at h
    split at h
    · rcases List.mem_cons.mp h with rfl | h
      · exact List.not_mem_nil
      · exact ih h
    · next hc =>
      cases hpieces : rest.splitOnP (· == mark) with
      | nil => exact absurd hpieces (List.splitOnP_ne_nil _ rest)
      | cons first more =>
        rw [hpieces, List.modifyHead_cons] at h
        rcases List.mem_cons.mp h with rfl | h
        · have hfirst := ih (hpieces ▸ List.mem_cons_self)
          simp only [beq_iff_eq] at hc
          rw [List.mem_cons, not_or]
          exact ⟨fun heq => hc heq.symm, hfirst⟩
        · exact ih (hpieces ▸ List.mem_cons_of_mem _ h)

/-! ## Escapes -/

theorem percentEncode_append (keep : Char → Bool) (front back : List Char) :
    percentEncode keep (front ++ back) = percentEncode keep front ++ percentEncode keep back := by
  unfold percentEncode
  exact List.flatMap_append

theorem isPlain_toUpper_hexDigit (n : Nat) (h : n < 16) :
    isPlain (hexDigit n).toUpper = true := by
  decide +revert

theorem eq_or_isPlain_of_mem_percentByte {b : Nat} (h : c ∈ percentByte b) :
    c = '%' ∨ isPlain c = true := by
  rcases List.mem_cons.mp h with rfl | h
  · exact .inl rfl
  · obtain ⟨digit, hdigit, rfl⟩ := List.mem_map.mp h
    obtain ⟨k, hk, rfl⟩ := exists_hexDigit_of_mem_hex hdigit
    exact .inr (isPlain_toUpper_hexDigit k hk)

/-- What stands in an encoded text was kept, or belongs to an escape. -/
theorem mem_percentEncode {keep : Char → Bool} (h : c ∈ percentEncode keep cs) :
    (c ∈ cs ∧ keep c = true) ∨ c = '%' ∨ isPlain c = true := by
  obtain ⟨d, hd, hc⟩ := List.mem_flatMap.mp h
  split at hc
  · next hkeep =>
    rw [List.mem_singleton.mp hc]
    exact .inl ⟨hd, hkeep⟩
  · obtain ⟨b, -, hb⟩ := List.mem_flatMap.mp hc
    exact .inr (eq_or_isPlain_of_mem_percentByte hb)

/-- Every escape has a percent sign. -/
theorem percentEncode_of_no_percent {keep : Char → Bool} (h : '%' ∉ percentEncode keep cs) :
    percentEncode keep cs = cs := by
  refine percentEncode_of_kept keep cs fun c hc => ?_
  by_contra hkeep
  have hlength := String.length_utf8EncodeChar c
  have hpos := Char.utf8Size_pos c
  rw [← hlength] at hpos
  obtain ⟨byte, hbyte⟩ := List.exists_mem_of_length_pos hpos
  refine h (List.mem_flatMap.mpr ⟨c, hc, ?_⟩)
  rw [if_neg hkeep]
  exact List.mem_flatMap.mpr ⟨byte.toNat, List.mem_map_of_mem hbyte, List.mem_cons_self⟩

theorem percentBytes_of_ne (hc : c ≠ '%') (rest : List Char) :
    percentBytes (c :: rest) = bytesOf c ++ percentBytes rest := by
  rw [percentBytes]
  rintro a b more heq -
  exact hc heq

/-- A percent sign in front of what is no escape. -/
theorem percentBytes_of_none {a b : Char} (rest : List Char)
    (h : ∀ high low, hexValue? a = some high → hexValue? b = some low → False) :
    percentBytes ('%' :: a :: b :: rest) = '%'.toNat :: percentBytes (a :: b :: rest) := by
  rw [percentBytes]
  split
  · next high low hhigh hlow => exact (h high low hhigh hlow).elim
  · rfl

theorem percentBytes_percent_slash (back : List Char) :
    percentBytes ('%' :: '/' :: back) = '%'.toNat :: percentBytes ('/' :: back) := by
  cases back with
  | nil => rfl
  | cons b rest => exact percentBytes_of_none rest nofun

/-- A slash ends any escape. -/
theorem percentBytes_append_slash (front back : List Char) :
    percentBytes (front ++ '/' :: back) = percentBytes front ++ '/'.toNat :: percentBytes back := by
  fun_induction percentBytes front with
  | case1 a b rest high low hhigh hlow ih =>
    rw [List.cons_append, List.cons_append, List.cons_append, percentBytes]
    simp only [hhigh, hlow, ih, List.cons_append]
  | case2 a b rest hnone ih =>
    have hfront := percentBytes_of_none (rest ++ '/' :: back) hnone
    exact hfront.trans (congrArg ('%'.toNat :: ·) ih)
  | case3 c rest hother ih =>
    by_cases hc : c = '%'
    · subst hc
      -- the escape that the percent sign could begin would have the slash in it
      have hfront : percentBytes ('%' :: (rest ++ '/' :: back)) =
          '%'.toNat :: percentBytes (rest ++ '/' :: back) := by
        match rest, hother with
        | [], _ => exact percentBytes_percent_slash back
        | [a], _ => exact percentBytes_of_none back nofun
        | a :: b :: more, hother => exact (hother a b more rfl rfl).elim
      exact hfront.trans (congrArg ('%'.toNat :: ·) ih)
    · rw [List.cons_append, percentBytes_of_ne hc, ih, List.append_assoc]
  | case4 => exact percentBytes_of_ne (by decide) back

/-! ## Bytes -/

/-- No byte of ASCII may follow in an open character. -/
def NotAscii (o : Option OpenChar) : Prop := ∀ c, o = some c → 0x80 ≤ c.least

theorem notAscii_none : NotAscii none := by
  intro c h
  cases h

theorem notAscii_firstByte (b : Nat) : NotAscii (firstByte b).2 := by
  intro c h
  unfold firstByte at h
  split at h
  · cases h
  · unfold OpenChar.ofFirst? at h
    split_ifs at h <;> cases h <;> simp

theorem decodeFrom_none_ascii {b : Nat} (h : b < 0x80) (rest : List Nat) :
    decodeFrom none (b :: rest) = Char.ofNat b :: decodeFrom none rest := by
  rw [decodeFrom, firstByte, if_pos h]
  rfl

/-- A byte of ASCII ends an open character, and begins anew. -/
theorem decodeFrom_append_ascii {b : Nat} (hb : b < 0x80) (front back : List Nat)
    (o : Option OpenChar) (ho : NotAscii o) :
    decodeFrom o (front ++ b :: back) =
      decodeFrom o front ++ Char.ofNat b :: decodeFrom none back := by
  induction front generalizing o with
  | nil =>
    cases o with
    | none => exact decodeFrom_none_ascii hb back
    | some c =>
      have hleast := ho c rfl
      have hopen : decodeFrom (some c) (b :: back) =
          replacement :: decodeFrom none (b :: back) := if_neg (by omega)
      rw [List.nil_append, hopen, decodeFrom_none_ascii hb]
      rfl
  | cons x rest ih =>
    cases o with
    | none =>
      rw [List.cons_append, decodeFrom, ih _ (notAscii_firstByte x), decodeFrom, List.append_assoc]
    | some c =>
      rw [List.cons_append, decodeFrom, decodeFrom]
      split
      · dsimp only
        split
        · rw [ih none notAscii_none, List.cons_append]
        · refine ih _ ?_
          rintro _ ⟨⟩
          exact le_rfl
      · rw [ih _ (notAscii_firstByte x), List.append_assoc]

/-- What is shown of a text with escapes, up to a slash and behind it. -/
theorem percentDecode_append_slash (front back : List Char) :
    percentDecode (front ++ '/' :: back) =
      percentDecode (front ++ ['/']) ++ percentDecode back := by
  have hslash : '/'.toNat < 0x80 := by decide
  rw [← String.toList_inj, String.toList_append]
  simp only [percentDecode, decode, String.toList_ofList, percentBytes_append_slash,
    decodeFrom_append_ascii hslash _ _ none notAscii_none]
  rw [List.append_assoc]
  rfl

theorem bytesOf_ascii (h : c.toNat < 0x80) : bytesOf c = [c.toNat] := by
  have hval : c.val.toNat ≤ 0x7F := Nat.le_of_lt_succ h
  have hbyte : c.val.toNat.toUInt8.toNat = c.toNat := by
    show c.toNat % 2 ^ 8 = c.toNat
    omega
  unfold bytesOf String.utf8EncodeChar
  dsimp only
  rw [if_pos hval, List.map_singleton, hbyte]

/-- Text of ASCII without escapes is shown as it is. -/
theorem percentDecode_of_ascii (h : ∀ c ∈ cs, c ≠ '%' ∧ c.toNat < 0x80) :
    percentDecode cs = String.ofList cs := by
  have hbytes : percentBytes cs = cs.map Char.toNat := by
    induction cs with
    | nil => rfl
    | cons c rest ih =>
      obtain ⟨hpercent, hascii⟩ := h c List.mem_cons_self
      rw [percentBytes_of_ne hpercent, bytesOf_ascii hascii,
        ih fun x hx => h x (List.mem_cons_of_mem c hx)]
      rfl
  have hall : ∀ b ∈ cs.map Char.toNat, b < 0x80 := by
    intro b hb
    obtain ⟨c, hc, rfl⟩ := List.mem_map.mp hb
    exact (h c hc).2
  have hback : Char.ofNat ∘ Char.toNat = id := funext Char.ofNat_toNat
  rw [percentDecode, decode, hbytes, decodeFrom_ascii _ hall, List.map_map, hback, List.map_id]

end Text

end StakeLedger
