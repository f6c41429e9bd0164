import StakeLedger.Proofs.Decay
import StakeLedger.Proofs.PercentTexts

/-
  Paths below a base.
  A base is read once, and its path comes out without steps and with every character escaped that
  is not kept (`leads_of_readBase`). Reading it again with something behind it changes neither, and
  the slash at its end keeps both apart, also where escapes are shown as what they stand for. So
  the path of a trigger is that of the base with the trigger's own behind it (`shownPath_below`).
-/

namespace StakeLedger

namespace Address

open Text

variable {c : Char} {cs front back name : List Char} {names done : List (List Char)}

/-! ## Steps -/

/-- The name of a step to the same or to the upper directory. -/
def IsStep (name : List Char) : Prop := name = ['.'] ∨ name = ['.', '.']

/-- A path without steps. -/
def Steady (cs : List Char) : Prop := ∀ name ∈ cs.splitOn '/', ¬IsStep name

theorem steady_nil : Steady [] := by simp [Steady, IsStep]

theorem dropSteps_of_steady (h : ∀ name ∈ names, ¬IsStep name) :
    dropSteps done names = done ++ names := by
  induction names generalizing done with
  | nil => rw [dropSteps, List.append_nil]
  | cons name rest ih =>
    have hname := not_or.mp (h name List.mem_cons_self)
    rw [dropSteps, if_neg hname.1, if_neg hname.2,
      ih fun x hx => h x (List.mem_cons_of_mem name hx), List.append_assoc]
    rfl

theorem dropSteps_concat (h : ¬IsStep name) (done names : List (List Char)) :
    dropSteps done (names ++ [name]) = dropSteps done names ++ [name] := by
  induction names generalizing done with
  | nil =>
    have hsteady : ∀ x ∈ [name], ¬IsStep x := by simpa using h
    exact dropSteps_of_steady hsteady
  | cons first rest ih =>
    rw [List.cons_append, dropSteps, dropSteps]
    split
    · exact ih done
    · split
      · exact ih _
      · exact ih _

/-- Dropping steps leaves names that are none. -/
theorem mem_dropSteps (h : name ∈ dropSteps done names) :
    name ∈ done ∨ (name ∈ names ∧ ¬IsStep name) := by
  induction names generalizing done with
  | nil => exact .inl h
  | cons first rest ih =>
    rw [dropSteps] at h
    split at h
    · exact (ih h).imp_right fun ⟨hmem, hstep⟩ => ⟨List.mem_cons_of_mem _ hmem, hstep⟩
    · next hsame =>
      split at h
      · rcases ih h with hdone | ⟨hmem, hstep⟩
        · left
          split at hdone
          · exact hdone
          · exact List.mem_of_mem_dropLast hdone
        · exact .inr ⟨List.mem_cons_of_mem _ hmem, hstep⟩
      · next hupper =>
        rcases ih h with hdone | ⟨hmem, hstep⟩
        · rcases List.mem_append.mp hdone with hdone | hfirst
          · exact .inl hdone
          · rw [List.mem_singleton.mp hfirst]
            exact .inr ⟨List.mem_cons_self, not_or.mpr ⟨hsame, hupper⟩⟩
        · exact .inr ⟨List.mem_cons_of_mem _ hmem, hstep⟩

theorem piecesBy_slash (cs : List Char) :
    piecesBy (fun c => decide (c = '/')) cs = cs.splitOn '/' :=
  piecesBy_eq_splitOnP _ cs

/-- A path without steps is plain. -/
theorem plainPath_of_steady (h : Steady cs) : plainPath cs = cs := by
  rw [plainPath, piecesBy_slash, dropSteps_of_steady h, List.nil_append]
  exact List.intercalate_splitOn '/'

/-- The plain path of any path has no steps. -/
theorem steady_plainPath (cs : List Char) : Steady (plainPath cs) := by
  have hnames : ∀ name ∈ dropSteps [] (cs.splitOn '/'), '/' ∉ name ∧ ¬IsStep name := by
    intro name hname
    rcases mem_dropSteps hname with h | ⟨hmem, hstep⟩
    · cases h
    · exact ⟨not_mem_of_mem_splitOn hmem, hstep⟩
  unfold Steady
  rw [plainPath, piecesBy_slash]
  by_cases hnil : dropSteps [] (cs.splitOn '/') = []
  · rw [hnil]
    exact steady_nil
  · rw [List.splitOn_intercalate '/' (fun name h => (hnames name h).1) hnil]
    exact fun name h => (hnames name h).2

theorem steady_append_slash : Steady (front ++ '/' :: back) ↔ Steady front ∧ Steady back := by
  unfold Steady List.splitOn
  rw [List.splitOnP_append_cons _ _ (by rfl)]
  exact List.forall_mem_append

/-- Escapes make no steps. -/
theorem not_isStep_percentEncode {keep : Char → Bool} (h : ¬IsStep name) :
    ¬IsStep (percentEncode keep name) := by
  intro hstep
  have hpercent : '%' ∉ percentEncode keep name := by
    rcases hstep with hstep | hstep <;> rw [hstep] <;> decide
  rw [percentEncode_of_no_percent hpercent] at hstep
  exact h hstep

theorem not_mem_percentEncode {keep : Char → Bool} (h : '/' ∉ name) :
    '/' ∉ percentEncode keep name := by
  intro hmem
  rcases mem_percentEncode hmem with ⟨hname, -⟩ | heq | hplain
  · exact h hname
  · exact absurd heq (by decide)
  · exact absurd hplain (by decide)

theorem percentEncode_intercalate (names : List (List Char)) :
    percentEncode isPathChar (['/'].intercalate names) =
      ['/'].intercalate (names.map (percentEncode isPathChar)) := by
  induction names with
  | nil => rfl
  | cons name rest ih =>
    cases rest with
    | nil => simp [List.intercalate]
    | cons next rest =>
      rw [List.map_cons] at ih
      rw [List.map_cons, List.map_cons, List.intercalate_cons_cons, List.intercalate_cons_cons,
        ← ih, percentEncode_append, percentEncode_append]
      rfl

/-- A path without steps has none either when it is encoded. -/
theorem steady_percentEncode (h : Steady cs) : Steady (percentEncode isPathChar cs) := by
  have hencoded : percentEncode isPathChar cs =
      ['/'].intercalate ((cs.splitOn '/').map (percentEncode isPathChar)) := by
    rw [← percentEncode_intercalate, List.intercalate_splitOn '/']
  have hne : (cs.splitOn '/').map (percentEncode isPathChar) ≠ [] := by
    rw [Ne, List.map_eq_nil_iff]
    exact List.splitOnP_ne_nil _ cs
  have hslash : ∀ name ∈ (cs.splitOn '/').map (percentEncode isPathChar), '/' ∉ name := by
    intro name hname
    obtain ⟨plain, hplain, rfl⟩ := List.mem_map.mp hname
    exact not_mem_percentEncode (not_mem_of_mem_splitOn hplain)
  unfold Steady
  rw [hencoded, List.splitOn_intercalate '/' hslash hne]
  intro name hname
  obtain ⟨plain, hplain, rfl⟩ := List.mem_map.mp hname
  exact not_isStep_percentEncode (h plain hplain)

/-! ## Paths that are read -/

theorem isPathChar_of_mem_percentEncode (h : c ∈ percentEncode isPathChar cs) :
    isPathChar c = true := by
  rcases mem_percentEncode h with ⟨-, hkept⟩ | rfl | hplain
  · exact hkept
  · decide
  · exact isPathChar_of_isPlain hplain

theorem place_eq_empty_iff (a : Address) : a.place = "" ↔ a.host = "" ∧ a.port = none := by
  rw [place, String.append_eq_empty_iff]
  refine and_congr ?_ ?_
  · split
    · next hcolon =>
      refine iff_of_false (by simp) ?_
      intro hhost
      rw [hhost] at hcolon
      cases hcolon
    · exact Iff.rfl
  · cases a.port with
    | none => simp
    | some port => simp

theorem authority_eq_empty_iff (a : Address) :
    a.authority = "" ↔ a.user = "" ∧ a.host = "" ∧ a.port = none := by
  rw [authority, String.append_eq_empty_iff, place_eq_empty_iff]
  refine and_congr_left fun _ => ?_
  split
  · next huser => simp [huser]
  · next huser => simp [huser]

/-- The address has a scheme or an authority. -/
def Anchored (a : Address) : Prop := a.scheme ≠ "" ∨ a.authority ≠ ""

instance (a : Address) : Decidable a.Anchored := inferInstanceAs (Decidable (_ ∨ _))

theorem anchored_iff (a : Address) :
    a.Anchored ↔ a.scheme ≠ "" ∨ a.user ≠ "" ∨ a.host ≠ "" ∨ a.port ≠ none := by
  refine or_congr_right ?_
  rw [Ne, authority_eq_empty_iff, not_and_or, not_and_or]

/-- What is read of a path that is written. Steps are dropped from that of an anchored address. -/
theorem ofWritten_ok {w : Written} {a : Address} (h : ofWritten w = .ok a) :
    a.path.toList = percentEncode isPathChar (if a.Anchored then plainPath w.path else w.path) ∧
      (a.query = none ↔ w.query = none) ∧ (w.scheme = [] → w.authority = [] → ¬a.Anchored) := by
  unfold ofWritten at h
  dsimp only at h
  obtain ⟨host, hhost, h⟩ := bind_eq_ok_iff.mp h
  obtain ⟨port, hport, h⟩ := bind_eq_ok_iff.mp h
  obtain ⟨-, -, h⟩ := bind_eq_ok_iff.mp h
  have ha := Except.ok.inj h
  have hscheme : a.scheme ≠ "" ↔ w.scheme ≠ [] := by
    rw [← ha, Ne, String.ofList_eq_empty_iff, List.map_eq_nil_iff]
  have huser : a.user ≠ "" ↔ percentEncode isUserChar (splitUser w.authority).1 ≠ [] := by
    rw [← ha, Ne, String.ofList_eq_empty_iff]
  have hhost' : a.host ≠ "" ↔ host ≠ [] := by
    rw [← ha, Ne, String.ofList_eq_empty_iff]
  have hport' : a.port ≠ none ↔ port.isSome = true := by
    rw [← ha, Ne, Option.isSome_iff_ne_none]
  have hanchored := a.anchored_iff
  rw [hscheme, huser, hhost', hport'] at hanchored
  refine ⟨?_, ?_, ?_⟩
  · rw [← congrArg Address.path ha, String.toList_ofList]
    simp only [hanchored, Bool.or_eq_true, decide_eq_true_eq, or_assoc]
  · rw [← congrArg Address.query ha]
    exact Option.map_eq_none_iff
  · intro hnoScheme hnoAuthority
    rw [hnoAuthority] at hhost hport hanchored
    cases hhost
    cases hport
    rw [hanchored, hnoScheme]
    have hnobody : percentEncode isUserChar (splitUser []).1 = [] := rfl
    simp [hnobody]

/-! ## Bases -/

theorem exists_intercalate_concat_nil (names : List (List Char)) :
    ['/'].intercalate (names ++ [[]]) = [] ∨
      ∃ front, ['/'].intercalate (names ++ [[]]) = front ++ ['/'] := by
  induction names with
  | nil => exact .inl rfl
  | cons name rest ih =>
    right
    rw [List.cons_append, List.intercalate_cons_of_ne_nil (by simp)]
    rcases ih with h | ⟨front, h⟩
    · rw [h, List.append_nil]
      exact ⟨name, rfl⟩
    · rw [h, ← List.append_assoc]
      exact ⟨_, rfl⟩

/-- The plain path of one that ends with a slash does so too, if anything is left of it. -/
theorem exists_plainPath_slash (front : List Char) :
    plainPath (front ++ ['/']) = [] ∨ ∃ front', plainPath (front ++ ['/']) = front' ++ ['/'] := by
  have hstep : ¬IsStep [] := by simp [IsStep]
  have hnames : (front ++ ['/']).splitOn '/' = front.splitOn '/' ++ [[]] :=
    List.splitOnP_append_cons front [] rfl
  rw [plainPath, piecesBy_slash, hnames, dropSteps_concat hstep]
  exact exists_intercalate_concat_nil _

theorem percentEncode_slash (front : List Char) :
    percentEncode isPathChar (front ++ ['/']) = percentEncode isPathChar front ++ ['/'] := by
  rw [percentEncode_append]
  rfl

theorem not_mem_of_splitMark {mark : Char} (h : (splitMark mark cs).2 = none) : mark ∉ cs := by
  have hdrop : cs.dropWhile (· ≠ mark) = [] := by
    unfold splitMark at h
    dsimp only at h
    split at h
    · next hdrop => exact hdrop
    · cases h
  have hall := List.dropWhile_eq_nil_iff.mp hdrop
  intro hmem
  simpa using hall mark hmem

theorem withTarget_ok {a b : Address} {target : String} (h : a.withTarget target = .ok b) :
    ofWritten ⟨a.scheme.toList, a.authority.toList, (splitMark '?' target.toList).1,
      (splitMark '?' target.toList).2, a.fragment.map String.toList⟩ = .ok b := by
  unfold withTarget at h
  dsimp only at h
  obtain ⟨-, -, h⟩ := bind_eq_ok_iff.mp h
  obtain ⟨-, -, h⟩ := bind_eq_ok_iff.mp h
  obtain ⟨-, -, h⟩ := bind_eq_ok_iff.mp h
  obtain ⟨-, -, h⟩ := bind_eq_ok_iff.mp h
  obtain ⟨-, -, h⟩ := bind_eq_ok_iff.mp h
  exact h

/-- Paths may follow that of the address: it keeps all characters, has no steps where they would be
dropped, and ends with a slash. -/
structure Leads (a : Address) : Prop where
  kept : ∀ c ∈ a.path.toList, isPathChar c = true
  steady : a.Anchored → Steady a.path.toList
  slash : a.path = "" ∨ ∃ front, a.path.toList = front ++ ['/']

theorem leads_of_ofWritten {w : Written} {a : Address} (h : ofWritten w = .ok a)
    (hslash : a.path = "" ∨ ∃ front, a.path.toList = front ++ ['/']) : a.Leads where
  kept := by
    rw [(ofWritten_ok h).1]
    exact fun c => isPathChar_of_mem_percentEncode
  steady := by
    intro hanchored
    rw [(ofWritten_ok h).1, if_pos hanchored]
    exact steady_percentEncode (steady_plainPath w.path)
  slash := hslash

/-- Reading keeps a slash at the end of what is written. -/
theorem slash_of_ofWritten {w : Written} {a : Address} (h : ofWritten w = .ok a)
    {front : List Char} (hpath : w.path = front ++ ['/']) :
    a.path = "" ∨ ∃ front', a.path.toList = front' ++ ['/'] := by
  rw [← String.toList_inj, (ofWritten_ok h).1, hpath]
  split
  · rcases exists_plainPath_slash front with hplain | ⟨front', hplain⟩
    · rw [hplain]
      exact .inl rfl
    · rw [hplain, percentEncode_slash]
      exact .inr ⟨_, rfl⟩
  · rw [percentEncode_slash]
    exact .inr ⟨_, rfl⟩

/-- A base without a query leads on. -/
theorem leads_of_readBase {s : String} {a : Address} (h : readBase s = .ok a)
    (hquery : a.query = none) : a.Leads := by
  unfold readBase at h
  obtain ⟨first, hread, h⟩ := bind_eq_ok_iff.mp h
  split at h
  · next hend =>
    cases h
    have hwritten : ∃ w, ofWritten w = .ok a := by
      unfold read at hread
      dsimp only at hread
      split at hread
      · cases hread
      · split at hread
        · cases hread
        · exact ⟨_, hread⟩
    obtain ⟨w, hw⟩ := hwritten
    refine leads_of_ofWritten hw ?_
    by_cases hpath : a.path = ""
    · exact .inl hpath
    · rw [target, hquery, if_neg hpath, String.toList_append] at hend
      obtain ⟨front, hfront⟩ := List.getLast?_eq_some_iff.mp hend
      refine .inr ⟨front, ?_⟩
      rw [← hfront]
      exact (List.append_nil _).symm
  · have hw := withTarget_ok h
    have hmark := not_mem_of_splitMark ((ofWritten_ok hw).2.1.mp hquery)
    rw [splitMark_of_not_mem hmark] at hw
    exact leads_of_ofWritten hw (slash_of_ofWritten hw String.toList_append)

/-! ## Triggers below a base -/

variable {a b : Address} {hash : List Char}

/-- Path and query of an address that leads on, without the slash at their end. -/
theorem Leads.exists_front (h : a.Leads) (hquery : a.query = none) :
    ∃ front, a.target.toList = front ++ ['/'] ∧
      a.shownPath = percentDecode (front ++ ['/']) ∧ (∀ c ∈ front, isPathChar c = true) ∧
      (a.Anchored → Steady front) := by
  have htarget : a.target = if a.path = "" then "/" else a.path := by
    rw [target, hquery]
    exact String.append_empty
  by_cases hpath : a.path = ""
  · refine ⟨[], ?_, ?_, fun c hc => absurd hc List.not_mem_nil, fun _ => steady_nil⟩
    · rw [htarget, if_pos hpath]
      rfl
    · rw [shownPath, if_pos hpath]
      rfl
  · obtain ⟨front, hfront⟩ := h.slash.resolve_left hpath
    refine ⟨front, ?_, ?_, fun c hc => h.kept c ?_, fun hanchored => ?_⟩
    · rw [htarget, if_neg hpath, hfront]
    · rw [shownPath, if_neg hpath, hfront]
    · rw [hfront]
      exact List.mem_append_left _ hc
    · have hsteady := h.steady hanchored
      rw [hfront] at hsteady
      exact (steady_append_slash.mp hsteady).1

theorem steady_of_not_mem (hslash : '/' ∉ name) (hstep : ¬IsStep name) : Steady name := by
  have hone : name.splitOn '/' = [name] := by
    refine List.splitOnP_eq_singleton fun c hc => ?_
    rw [beq_eq_false_iff_ne]
    rintro rfl
    exact hslash hc
  unfold Steady
  rw [hone]
  simpa using hstep

/-- The path of a trigger without the slash that it begins with. -/
def triggerTail (hash : List Char) : List Char := (triggerPath hash).drop 1

theorem triggerPath_eq (hash : List Char) : triggerPath hash = '/' :: triggerTail hash := rfl

theorem steady_triggerTail (hplain : ∀ c ∈ hash, isPlain c = true) :
    Steady (triggerTail hash) := by
  have hslash : '/' ∉ 't' :: 'r' :: 'g' :: ':' :: hash := by
    have hhash : '/' ∉ hash := fun h => absurd (hplain '/' h) (by decide)
    simpa using hhash
  have hparts : Steady (['t', 'r', 'i', 'g', 'g', 'e', 'r', 's'] ++
      '/' :: 't' :: 'r' :: 'g' :: ':' :: hash) := by
    refine steady_append_slash.mpr ⟨steady_of_not_mem (by decide) ?_, steady_of_not_mem hslash ?_⟩
    · simp [IsStep]
    · simp [IsStep]
  exact hparts

/-- The path of a trigger is shown as it is. -/
theorem percentDecode_triggerTail (hplain : ∀ c ∈ hash, isPlain c = true) :
    percentDecode (triggerTail hash) = String.ofList (triggerTail hash) := by
  refine percentDecode_of_ascii fun c hc => ?_
  rcases mem_triggerPath hplain c (List.mem_of_mem_drop hc) with rfl | h
  · decide
  · have hrange := range_of_isPlain h
    refine ⟨?_, by omega⟩
    rintro rfl
    exact absurd hrange.1 (by decide)

/-- Behind an address that leads on, the path of a trigger stays as it is. -/
theorem Leads.path_below (h : a.Leads) (hquery : a.query = none)
    (hplain : ∀ c ∈ hash, isPlain c = true) (hlength : hash.length = 16)
    (hbelow : a.below (String.ofList (triggerPath hash)) = .ok b) :
    ∃ front, a.shownPath = percentDecode (front ++ ['/']) ∧
      b.path.toList = front ++ triggerPath hash := by
  obtain ⟨front, htarget, hshown, hkept, hsteady⟩ := h.exists_front hquery
  have hall : ∀ c ∈ front ++ triggerPath hash, isPathChar c = true := by
    intro c hc
    rcases List.mem_append.mp hc with hc | hc
    · exact hkept c hc
    · exact isPathChar_of_mem hplain hc
  have hmark : '?' ∉ front ++ triggerPath hash := fun hc => absurd (hall '?' hc) (by decide)
  rw [below_triggerPath hplain hlength] at hbelow
  have hw := withTarget_ok hbelow
  rw [toList_target_below htarget, splitMark_of_not_mem hmark] at hw
  obtain ⟨hpath, -, hunanchored⟩ := ofWritten_ok hw
  refine ⟨front, hshown, ?_⟩
  rw [hpath]
  split
  · next hb =>
    have ha : a.Anchored := by
      by_contra hnot
      obtain ⟨hscheme, hauthority⟩ := not_or.mp hnot
      refine hunanchored ?_ ?_ hb
      · exact congrArg String.toList (not_not.mp hscheme)
      · exact congrArg String.toList (not_not.mp hauthority)
    have hwhole : Steady (front ++ triggerPath hash) := by
      rw [triggerPath_eq, steady_append_slash]
      exact ⟨hsteady ha, steady_triggerTail hplain⟩
    rw [plainPath_of_steady hwhole, percentEncode_of_kept _ _ hall]
  · exact percentEncode_of_kept _ _ hall

theorem Leads.shownPath_below (h : a.Leads) (hquery : a.query = none)
    (hplain : ∀ c ∈ hash, isPlain c = true) (hlength : hash.length = 16)
    (hbelow : a.below (String.ofList (triggerPath hash)) = .ok b) :
    b.shownPath = a.shownPath ++ String.ofList (triggerTail hash) := by
  obtain ⟨front, hshown, hpath⟩ := h.path_below hquery hplain hlength hbelow
  have hne : b.path ≠ "" := by
    intro hempty
    rw [hempty, triggerPath_eq] at hpath
    exact List.append_ne_nil_of_right_ne_nil front (List.cons_ne_nil _ _) hpath.symm
  rw [shownPath, if_neg hne, hpath, triggerPath_eq, percentDecode_append_slash,
    percentDecode_triggerTail hplain, hshown]

end Address

namespace TriggerClient

variable {c : TriggerClient} {address : Address}

/-- The address of a trigger lies below that of the service. -/
theorem below_of_address {key : String} (h : c.address key = .ok address) :
    c.base.below ("/triggers/" ++ key) = .ok address := by
  unfold TriggerClient.address at h
  obtain ⟨found, hbelow, h⟩ := bind_eq_ok_iff.mp h
  obtain ⟨-, -, h⟩ := bind_eq_ok_iff.mp h
  cases h
  cases hread : c.base.below ("/triggers/" ++ key) with
  | error problem =>
    rw [hread] at hbelow
    cases hbelow
  | ok read =>
    rw [hread] at hbelow
    cases hbelow
    rfl

/-- Below a service without a query in its address, a trigger has the service's path in front of
its own. -/
theorem shownPath_of_address {url position : String} {index : Int}
    (haddress : c.address (Trigger.key position index) = .ok address)
    (hbase : Address.readBase url = .ok c.base) (hquery : c.base.query = none) :
    address.shownPath = c.base.shownPath ++ "triggers/" ++ Trigger.key position index := by
  have htail : "triggers/" ++ Trigger.key position index = String.ofList
      (Address.triggerTail (Trigger.shortHash (Trigger.subject position index)).toList) := by
    rw [← String.toList_inj, String.toList_append, Trigger.key, String.toList_append]
    simp only [String.toList_ofList]
    rfl
  have hbelow := below_of_address haddress
  rw [Trigger.path_eq] at hbelow
  rw [String.append_assoc, htail]
  exact (Address.leads_of_readBase hbase hquery).shownPath_below hquery
    (fun _ => Trigger.isPlain_of_mem_shortHash) (Trigger.length_shortHash _) hbelow

end TriggerClient

end StakeLedger
