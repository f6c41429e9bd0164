import StakeLedger.Scheduler
import StakeLedger.Trigger
import Mathlib

/-
  The addresses of triggers.
  A key is made of letters, digits and a colon (`Trigger.isPlain_of_mem_shortHash`), which no
  reader of addresses escapes or takes for a mark. So the key stands in the path as it is: a
  service on the same machine has an address for every trigger, and its answers have a place for
  their cookies (`TriggerClient.placed_ofThisMachine`).
-/

namespace StakeLedger

/-! ## Keys -/

namespace Text

/-- A letter or digit of ASCII, or a colon. -/
def isPlain (c : Char) : Bool := c.isAlphanum || c = ':'

variable {c : Char} {cs : List Char}

theorem isPlain_hexDigit (n : Nat) (h : n < 16) : isPlain (hexDigit n) = true := by
  decide +revert

theorem exists_hexDigit_of_mem_hex {width n : Nat} (h : c ∈ hex width n) :
    ∃ k < 16, c = hexDigit k := by
  induction width generalizing n with
  | zero => cases h
  | succ width ih =>
    rw [hex, List.mem_append, List.mem_singleton] at h
    rcases h with h | rfl
    · exact ih h
    · exact ⟨n % 16, Nat.mod_lt _ (by decide), rfl⟩

theorem isPlain_of_mem_hex {width n : Nat} (h : c ∈ hex width n) : isPlain c = true := by
  obtain ⟨k, hk, rfl⟩ := exists_hexDigit_of_mem_hex h
  exact isPlain_hexDigit k hk

theorem length_hex (width n : Nat) : (hex width n).length = width := by
  induction width generalizing n with
  | zero => rfl
  | succ width ih => simp [hex, ih]

/-- A plain character is visible ASCII. -/
theorem range_of_isPlain (h : isPlain c = true) : 0x2F < c.toNat ∧ c.toNat < 0x7B := by
  simp only [isPlain, Char.isAlphanum, Char.isAlpha, Char.isUpper, Char.isLower, Char.isDigit,
    Bool.or_eq_true, Bool.and_eq_true, decide_eq_true_eq, ge_iff_le, UInt32.le_iff_toNat_le] at h
  rcases h with ((h | h) | h) | rfl
  · exact ⟨Nat.lt_of_lt_of_le (by decide) h.1, Nat.lt_of_le_of_lt h.2 (by decide)⟩
  · exact ⟨Nat.lt_of_lt_of_le (by decide) h.1, Nat.lt_of_le_of_lt h.2 (by decide)⟩
  · exact ⟨Nat.lt_of_lt_of_le (by decide) h.1, Nat.lt_of_le_of_lt h.2 (by decide)⟩
  · decide

theorem piecesBy_of_forall {p : Char → Bool} (h : ∀ c ∈ cs, p c = false) :
    piecesBy p cs = [cs] := by
  induction cs with
  | nil => rfl
  | cons c rest ih =>
    rw [piecesBy, ih fun x hx => h x (List.mem_cons_of_mem c hx)]
    simp [h c List.mem_cons_self]

end Text

namespace Trigger

variable {text : String}

/-- What stands in a key behind its mark is plain. -/
theorem isPlain_of_mem_shortHash {c : Char} (h : c ∈ (shortHash text).toList) :
    Text.isPlain c = true := by
  rw [shortHash, String.toList_ofList] at h
  obtain ⟨word, -, hword⟩ := List.mem_flatMap.mp (List.mem_of_mem_take h)
  exact Text.isPlain_of_mem_hex hword

theorem length_shortHash (text : String) : (shortHash text).toList.length = 16 := by
  have hdigest : (Digest.hexDigest text.toUTF8.toList).length = 64 := by
    simp [Digest.hexDigest, Digest.digest, Text.length_hex]
  rw [shortHash, String.toList_ofList, List.length_take, hdigest]
  rfl

end Trigger

/-! ## Addresses -/

namespace Address

variable {cs hash : List Char}

theorem splitMark_of_not_mem {mark : Char} (h : mark ∉ cs) : splitMark mark cs = (cs, none) := by
  have hall : ∀ c ∈ cs, decide (c ≠ mark) = true := by
    intro c hc
    exact decide_eq_true fun heq => h (heq ▸ hc)
  unfold splitMark
  rw [List.takeWhile_eq_self_iff.mpr hall, List.dropWhile_eq_nil_iff.mpr hall]

/-- The path of a trigger, by what stands in its key behind the mark. -/
def triggerPath (hash : List Char) : List Char :=
  ['/', 't', 'r', 'i', 'g', 'g', 'e', 'r', 's', '/', 't', 'r', 'g', ':'] ++ hash

/-- The address of a trigger on the same machine. -/
def ofTrigger (hash : List Char) : Address :=
  { ofThisMachine with path := String.ofList (triggerPath hash) }

theorem mem_triggerPath (hplain : ∀ c ∈ hash, Text.isPlain c = true) :
    ∀ c ∈ triggerPath hash, c = '/' ∨ Text.isPlain c = true := by
  have hall : ((triggerPath []).all fun c => c = '/' || Text.isPlain c) = true := by decide
  have hfront : ∀ c ∈ triggerPath [], c = '/' ∨ Text.isPlain c = true := by simpa using hall
  intro c hc
  rcases List.mem_append.mp hc with h | h
  · exact hfront c h
  · exact .inr (hplain c h)

/-- A character that is neither plain nor a slash is not in the path. -/
theorem not_mem_triggerPath (hplain : ∀ c ∈ hash, Text.isPlain c = true) {c : Char}
    (hslash : c ≠ '/') (hc : Text.isPlain c = false) : c ∉ triggerPath hash := by
  intro hmem
  rcases mem_triggerPath hplain c hmem with h | h
  · exact hslash h
  · rw [hc] at h
    cases h

/-- The characters that a path does not keep as they are. -/
def pathLeftOut : List Char := ['"', '#', '<', '>', '?', '\x60', '\x7b', '\x7d']

/-- A plain character is kept in paths. -/
theorem isPathChar_of_isPlain {c : Char} (h : Text.isPlain c = true) : isPathChar c = true := by
  have hleftOut : (pathLeftOut.all fun x => !Text.isPlain x) = true := by decide
  have hnot : c ∉ pathLeftOut := by
    intro hc
    have := List.all_eq_true.mp hleftOut c hc
    rw [h] at this
    cases this
  have hrange := Text.range_of_isPlain h
  show isKept pathLeftOut c = true
  simp only [isKept, Bool.and_eq_true, decide_eq_true_eq, Bool.not_eq_true',
    List.contains_eq_mem, decide_eq_false_iff_not]
  exact ⟨⟨by omega, by omega⟩, hnot⟩

/-- The characters of the path are kept in paths. -/
theorem isPathChar_of_mem (hplain : ∀ c ∈ hash, Text.isPlain c = true) {c : Char}
    (hc : c ∈ triggerPath hash) : isPathChar c = true := by
  rcases mem_triggerPath hplain c hc with rfl | h
  · decide
  · exact isPathChar_of_isPlain h

theorem percentEncode_triggerPath (hplain : ∀ c ∈ hash, Text.isPlain c = true) :
    Text.percentEncode isPathChar (triggerPath hash) = triggerPath hash :=
  Text.percentEncode_of_kept _ _ fun _ hc => isPathChar_of_mem hplain hc

/-- The path has no steps. -/
theorem plainPath_triggerPath (hplain : ∀ c ∈ hash, Text.isPlain c = true) :
    plainPath (triggerPath hash) = triggerPath hash := by
  have hslash : ∀ c ∈ hash, decide (c = '/') = false := by
    intro c hc
    refine decide_eq_false ?_
    rintro rfl
    exact absurd (hplain '/' hc) (by decide)
  have hpieces : Text.piecesBy (fun c => decide (c = '/')) (triggerPath hash) =
      [[], ['t', 'r', 'i', 'g', 'g', 'e', 'r', 's'], ['t', 'r', 'g', ':'] ++ hash] := by
    show Text.piecesBy _ ('/' :: 't' :: 'r' :: 'i' :: 'g' :: 'g' :: 'e' :: 'r' :: 's' :: '/' ::
      't' :: 'r' :: 'g' :: ':' :: hash) = _
    simp only [Text.piecesBy, Text.piecesBy_of_forall hslash]
    rfl
  rw [plainPath, hpieces]
  show ['/'].intercalate [[], ['t', 'r', 'i', 'g', 'g', 'e', 'r', 's'],
    ['t', 'r', 'g', ':'] ++ hash] = _
  simp [List.intercalate, List.intersperse, triggerPath]

theorem split_triggerPath (hplain : ∀ c ∈ hash, Text.isPlain c = true) :
    split (triggerPath hash) = { path := triggerPath hash } := by
  have hfragment : '#' ∉ triggerPath hash := not_mem_triggerPath hplain (by decide) (by decide)
  have hquery : '?' ∉ triggerPath hash := not_mem_triggerPath hplain (by decide) (by decide)
  unfold split
  rw [splitMark_of_not_mem hfragment]
  dsimp only
  rw [splitMark_of_not_mem hquery]
  rfl

theorem length_triggerPath (hlength : hash.length = 16) : (triggerPath hash).length = 30 := by
  rw [triggerPath, List.length_append, hlength]
  rfl

theorem read_triggerPath (hplain : ∀ c ∈ hash, Text.isPlain c = true)
    (hlength : hash.length = 16) :
    read (String.ofList (triggerPath hash)) =
      .ok { path := String.ofList (triggerPath hash) } := by
  have hlimit : ¬ lengthLimit < (triggerPath hash).length := by
    rw [length_triggerPath hlength]
    decide
  have hcontrol : (triggerPath hash).find? isControl = none := by
    rw [List.find?_eq_none]
    intro c hc
    have hkept := isPathChar_of_mem hplain hc
    simp only [isPathChar, isKept, Bool.and_eq_true, decide_eq_true_eq] at hkept
    simp only [isControl, Bool.or_eq_true, decide_eq_true_eq, not_or, not_lt]
    refine ⟨hkept.1.1.le, ?_⟩
    rintro rfl
    exact absurd hkept.1.2 (by decide)
  unfold read
  dsimp only
  rw [String.toList_ofList, if_neg hlimit, hcontrol, split_triggerPath hplain]
  show ofWritten { path := triggerPath hash } = _
  have hencode := percentEncode_triggerPath hplain
  have hwritten : ofWritten { path := triggerPath hash } = .ok
    { path := String.ofList (Text.percentEncode isPathChar (triggerPath hash)) } := rfl
  rw [hwritten, hencode]

/-- The address of this machine with the path of a trigger. -/
theorem withTarget_triggerPath (hplain : ∀ c ∈ hash, Text.isPlain c = true)
    (hlength : hash.length = 16) {target : String} (htarget : target.toList = triggerPath hash) :
    ofThisMachine.withTarget target = .ok (ofTrigger hash) := by
  have hquery : '?' ∉ triggerPath hash := not_mem_triggerPath hplain (by decide) (by decide)
  have hlimit : ¬lengthLimit < (triggerPath hash).length := by
    rw [length_triggerPath hlength]
    decide
  have hwritten : ofWritten
      { scheme := "http".toList, authority := "localhost".toList, path := triggerPath hash } =
        .ok { ofThisMachine with
          path := String.ofList (Text.percentEncode isPathChar (plainPath (triggerPath hash))) } :=
    rfl
  unfold withTarget
  rw [htarget, splitMark_of_not_mem hquery]
  simp only [checkPart, if_neg hlimit]
  rw [plainPath_triggerPath hplain, percentEncode_triggerPath hplain] at hwritten
  exact hwritten

/-- The path of a trigger goes behind that of the base. -/
theorem below_triggerPath (hplain : ∀ c ∈ hash, Text.isPlain c = true)
    (hlength : hash.length = 16) (base : Address) :
    base.below (String.ofList (triggerPath hash)) =
      base.withTarget (base.target ++ String.ofList ((triggerPath hash).drop 1)) := by
  have hne : String.ofList (triggerPath hash) ≠ "" := by
    intro h
    have hnil := congrArg String.toList h
    rw [String.toList_ofList] at hnil
    cases hnil
  have hpath : ({ path := String.ofList (triggerPath hash) } : Address).target.toList =
      triggerPath hash := by
    simp [target, hne, marked]
  unfold below
  rw [read_triggerPath hplain hlength]
  simp only [bind, Except.bind]
  rw [hpath]
  rfl

theorem toList_target_below {base : Address} {front : List Char}
    (h : base.target.toList = front ++ ['/']) :
    (base.target ++ String.ofList ((triggerPath hash).drop 1)).toList =
      front ++ triggerPath hash := by
  rw [String.toList_append, h, String.toList_ofList, List.append_assoc]
  rfl

/-- Below the address of this machine, the path of a trigger leads to the trigger. -/
theorem below_ofThisMachine (hplain : ∀ c ∈ hash, Text.isPlain c = true)
    (hlength : hash.length = 16) :
    ofThisMachine.below (String.ofList (triggerPath hash)) = .ok (ofTrigger hash) := by
  have hroot : ofThisMachine.target.toList = [] ++ ['/'] := by decide
  rw [below_triggerPath hplain hlength]
  refine withTarget_triggerPath hplain hlength ?_
  rw [toList_target_below hroot, List.nil_append]

theorem place_ofTrigger (hash : List Char) : (ofTrigger hash).place = "localhost" := by
  simp [place, ofTrigger, ofThisMachine]

theorem checkPlace_ofTrigger (hash : List Char) : (ofTrigger hash).checkPlace = .ok () := by
  unfold checkPlace
  rw [place_ofTrigger]
  rfl

/-- Scheme and authority of this machine, as they stand in front of a path. -/
def machineFront : List Char :=
  ['h', 't', 't', 'p', ':', '/', '/', 'l', 'o', 'c', 'a', 'l', 'h', 'o', 's', 't']

/-- The text by which cookies are looked up. -/
theorem toList_cookieText (hplain : ∀ c ∈ hash, Text.isPlain c = true) :
    (ofTrigger hash).cookieText.toList = machineFront ++ triggerPath hash := by
  have hmark : '#' ∉ triggerPath hash := not_mem_triggerPath hplain (by decide) (by decide)
  have hauthority : (ofTrigger hash).authority = "localhost" := by
    rw [authority, place_ofTrigger]
    rfl
  have htext : (ofTrigger hash).text.toList = machineFront ++ triggerPath hash := by
    unfold text
    rw [hauthority]
    simp [ofTrigger, ofThisMachine, marked, machineFront]
  have hurl : "URL:".toList.isPrefixOf (machineFront ++ triggerPath hash) = false := rfl
  have hlast : (machineFront ++ triggerPath hash).getLast? ≠ some '#' := by
    intro h
    rcases List.mem_append.mp (List.mem_of_getLast? h) with h | h
    · exact absurd h (by decide)
    · exact hmark h
  unfold cookieText
  rw [htext]
  simp only [hurl, Bool.false_eq_true, if_false, if_neg hlast, String.toList_ofList]

end Address

/-- The path of a trigger by its key. -/
theorem Trigger.path_eq (position : String) (index : Int) :
    "/triggers/" ++ key position index =
      String.ofList (Address.triggerPath (shortHash (subject position index)).toList) := by
  rw [← String.toList_inj, String.toList_append, key, String.toList_append]
  simp only [String.toList_ofList]
  rfl

namespace TriggerClient

/-- A trigger has an address, at which the cookies of answers have a place. -/
structure Placed (c : TriggerClient) (key : String) (address : Address) : Prop where
  address_eq : c.address key = .ok address
  hasScheme : Address.beginsWithScheme address.cookieText = true
  noLoneBracket : Address.hasLoneBracket address.cookieText = false

/-- A service on the same machine has a place for every trigger. -/
theorem placed_ofThisMachine {c : TriggerClient} (hbase : c.base = .ofThisMachine)
    (position : String) (index : Int) :
    c.Placed (Trigger.key position index)
      (.ofTrigger (Trigger.shortHash (Trigger.subject position index)).toList) := by
  have hplain : ∀ x ∈ (Trigger.shortHash (Trigger.subject position index)).toList,
      Text.isPlain x = true := fun _ => Trigger.isPlain_of_mem_shortHash
  have hlength := Trigger.length_shortHash (Trigger.subject position index)
  have hpath := Trigger.path_eq position index
  generalize hhash : (Trigger.shortHash (Trigger.subject position index)).toList = hash at *
  have hfragment : '#' ∉ Address.machineFront ++ Address.triggerPath hash := by
    rw [List.mem_append, not_or]
    exact ⟨by decide, Address.not_mem_triggerPath hplain (by decide) (by decide)⟩
  have hquery : '?' ∉ Address.machineFront ++ Address.triggerPath hash := by
    rw [List.mem_append, not_or]
    exact ⟨by decide, Address.not_mem_triggerPath hplain (by decide) (by decide)⟩
  have hcookies := Address.toList_cookieText hplain
  refine ⟨?_, ?_, ?_⟩
  · unfold TriggerClient.address
    rw [hbase, hpath, Address.below_ofThisMachine hplain hlength]
    simp only [Except.mapError, bind, Except.bind, Address.checkPlace_ofTrigger, pure, Except.pure]
  · unfold Address.beginsWithScheme
    rw [hcookies]
    rfl
  · unfold Address.hasLoneBracket Address.split
    rw [hcookies, Address.splitMark_of_not_mem hfragment]
    dsimp only
    rw [Address.splitMark_of_not_mem hquery]
    rfl

end TriggerClient

end StakeLedger
