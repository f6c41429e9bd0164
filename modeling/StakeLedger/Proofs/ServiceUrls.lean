import Mathlib
import StakeLedger.Settings.Basic

/-
  What normalizing does to the address of a service.
  The blanks around a text are taken away first, and the slashes behind the rest then
  (`normalUrl_eq_some_iff`). This leaves no slash at the end, but may leave a blank there: one that
  stood in front of the slashes (`settles_iff`). What is left stays as it is under a second
  normalizing exactly if there is no such blank. Normalizing again and again comes to an end, as
  all but the last time the address gets shorter (`exists_settled`).
-/

namespace StakeLedger

namespace Text

variable {p : Char → Bool} {before middle after cs : List Char} {c : Char}

/-! ## Trimming -/

theorem trimEndBy_append (cs : List Char) (h : ∀ c ∈ after, p c = true) :
    trimEndBy p (cs ++ after) = trimEndBy p cs := by
  have hreverse : ∀ c ∈ after.reverse, p c = true := fun c hc => h c (List.mem_reverse.mp hc)
  unfold trimEndBy
  rw [List.reverse_append, List.dropWhile_append_of_pos hreverse]

theorem trimEndBy_of_back (h : ∀ c ∈ cs.getLast?, p c = false) : trimEndBy p cs = cs := by
  refine List.rdropWhile_eq_self_iff.mpr fun hne => ?_
  rw [h (cs.getLast hne) (List.getLast?_eq_some_getLast hne)]
  decide

theorem back_trimEndBy (cs : List Char) (h : c ∈ (trimEndBy p cs).getLast?) : p c = false := by
  have hne : trimEndBy p cs ≠ [] := by
    rintro hnil
    rw [hnil] at h
    cases h
  obtain rfl : (trimEndBy p cs).getLast hne = c := by
    rw [List.getLast?_eq_some_getLast hne] at h
    exact Option.some.inj h
  exact Bool.eq_false_iff.mpr (List.rdropWhile_last_not p cs hne)

theorem exists_trimEndBy (p : Char → Bool) (cs : List Char) :
    ∃ after, cs = trimEndBy p cs ++ after ∧ ∀ c ∈ after, p c = true :=
  ⟨cs.rtakeWhile p, List.rdropWhile_append_rtakeWhile.symm, fun _ => List.mem_rtakeWhile_imp⟩

theorem front_dropWhile (cs : List Char) (h : c ∈ (cs.dropWhile p).head?) : p c = false := by
  have hnot := List.head?_dropWhile_not p cs
  rw [h] at hnot
  exact hnot

/-- What is left of a text stands between members that are taken away. -/
theorem exists_trimBy (p : Char → Bool) (cs : List Char) :
    ∃ before after, cs = before ++ trimBy p cs ++ after ∧ (∀ c ∈ before, p c = true) ∧
      ∀ c ∈ after, p c = true := by
  obtain ⟨after, hafter, hall⟩ := exists_trimEndBy p (cs.dropWhile p)
  refine ⟨cs.takeWhile p, after, ?_, fun _ => List.mem_takeWhile_imp, hall⟩
  calc cs = cs.takeWhile p ++ cs.dropWhile p := List.takeWhile_append_dropWhile.symm
    _ = cs.takeWhile p ++ (trimBy p cs ++ after) := congrArg (cs.takeWhile p ++ ·) hafter
    _ = cs.takeWhile p ++ trimBy p cs ++ after := (List.append_assoc ..).symm

theorem front_trimBy (cs : List Char) (h : c ∈ (trimBy p cs).head?) : p c = false := by
  obtain ⟨after, hafter, -⟩ := exists_trimEndBy p (cs.dropWhile p)
  refine front_dropWhile cs ?_
  rw [hafter, List.head?_append, show trimEndBy p (cs.dropWhile p) = trimBy p cs from rfl,
    Option.mem_def.mp h]
  rfl

theorem trimBy_append (hbefore : ∀ c ∈ before, p c = true) (hafter : ∀ c ∈ after, p c = true)
    (hfront : ∀ c ∈ middle.head?, p c = false) (hback : ∀ c ∈ middle.getLast?, p c = false) :
    trimBy p (before ++ middle ++ after) = middle := by
  have htrim : trimBy p (before ++ middle ++ after) =
      trimEndBy p ((middle ++ after).dropWhile p) := by
    rw [List.append_assoc]
    exact congrArg (trimEndBy p) (List.dropWhile_append_of_pos hbefore)
  rw [htrim]
  cases middle with
  | nil =>
    rw [List.nil_append, List.dropWhile_eq_nil_iff.mpr hafter]
    rfl
  | cons first rest =>
    have hfirst : ¬p first = true := Bool.eq_false_iff.mp (hfront first rfl)
    rw [List.cons_append, List.dropWhile_cons_of_neg hfirst, ← List.cons_append,
      trimEndBy_append _ hafter, trimEndBy_of_back hback]

end Text

namespace Settings

open Text

variable {url r : String} {before core slashes after : List Char}

/-! ## What is left of an address -/

/-- A text in pieces: blanks, what is left of it, slashes, and blanks again. -/
structure Pieces (url : String) (before core slashes after : List Char) : Prop where
  text_eq : url.toList = before ++ (core ++ slashes) ++ after
  blank_before : ∀ c ∈ before, isBlank c = true
  slash : ∀ c ∈ slashes, c = '/'
  blank_after : ∀ c ∈ after, isBlank c = true
  front : ∀ c ∈ core.head?, isBlank c = false
  back : ∀ c ∈ core.getLast?, c ≠ '/'
  /-- Only slashes can hide a blank. -/
  hidden : slashes = [] → ∀ c ∈ core.getLast?, isBlank c = false

theorem exists_pieces (url : String) :
    ∃ before slashes after,
      Pieces url before (trimEndBy (· = '/') (trimBy isBlank url.toList)) slashes after := by
  obtain ⟨before, after, htext, hbefore, hafter⟩ := exists_trimBy isBlank url.toList
  obtain ⟨slashes, hcore, hslashes⟩ := exists_trimEndBy (· = '/') (trimBy isBlank url.toList)
  refine ⟨before, slashes, after, hcore ▸ htext, hbefore, ?_, hafter, ?_, ?_, ?_⟩
  · exact fun c hc => of_decide_eq_true (hslashes c hc)
  · intro c hc
    refine front_trimBy url.toList ?_
    rw [hcore, List.head?_append, Option.mem_def.mp hc]
    rfl
  · exact fun c hc => of_decide_eq_false (back_trimEndBy _ hc)
  · rintro rfl c hc
    rw [List.append_nil] at hcore
    rw [← hcore] at hc
    exact back_trimEndBy (url.toList.dropWhile isBlank) hc

/-- What is left is found again by trimming. -/
theorem Pieces.trim_eq (h : Pieces url before core slashes after) :
    trimEndBy (· = '/') (trimBy isBlank url.toList) = core := by
  have hslash : ∀ c, c ∈ slashes.head? ∨ c ∈ slashes.getLast? → isBlank c = false := by
    rintro c (hc | hc)
    · rw [h.slash c (List.mem_of_mem_head? hc)]
      decide
    · rw [h.slash c (List.mem_of_getLast? hc)]
      decide
  have htrim : trimBy isBlank url.toList = core ++ slashes := by
    rw [h.text_eq]
    refine trimBy_append h.blank_before h.blank_after (fun c hc => ?_) fun c hc => ?_
    · rw [List.head?_append] at hc
      rcases Option.or_eq_some_iff.mp hc with hc | ⟨-, hc⟩
      · exact h.front c hc
      · exact hslash c (.inl hc)
    · rw [List.getLast?_append] at hc
      rcases Option.or_eq_some_iff.mp hc with hc | ⟨hnone, hc⟩
      · exact hslash c (.inr hc)
      · exact h.hidden (List.getLast?_eq_none_iff.mp hnone) c hc
  rw [htrim, trimEndBy_append _ fun c hc => decide_eq_true (h.slash c hc)]
  exact trimEndBy_of_back fun c hc => decide_eq_false (h.back c hc)

/-- Normalizing gives what is left of a text, if anything is. -/
theorem normalUrl_eq_some_iff :
    normalUrl url = some r ↔
      r ≠ "" ∧ ∃ before slashes after, Pieces url before r.toList slashes after := by
  have hlist : (trimBlank url).toList = trimBy isBlank url.toList := String.toList_ofList
  unfold normalUrl
  rw [hlist]
  obtain ⟨before, slashes, after, hpieces⟩ := exists_pieces url
  dsimp only
  constructor
  · intro h
    split at h
    · cases h
    · next hne =>
      obtain rfl := Option.some.inj h
      refine ⟨fun hempty => hne (String.ofList_eq_empty_iff.mp hempty), before, slashes, after, ?_⟩
      rwa [String.toList_ofList]
  · rintro ⟨hne, before', slashes', after', hpieces'⟩
    rw [hpieces'.trim_eq, if_neg fun hnil => hne (String.toList_eq_nil_iff.mp hnil),
      String.ofList_toList]

/-! ## Addresses that stay as they are -/

/-- The address is not empty, has no blank at its ends, and no slash behind it. -/
structure IsNormal (url : String) : Prop where
  ne_empty : url ≠ ""
  front : ∀ c ∈ url.toList.head?, isBlank c = false
  back : ∀ c ∈ url.toList.getLast?, isBlank c = false ∧ c ≠ '/'

/-- What is left of the text, if anything is, is normal and stays as it is. -/
def Settles (url : String) : Prop :=
  ∀ r, normalUrl url = some r → IsNormal r ∧ normalUrl r = some r

/-- Behind a character that is no blank, a blank stands in front of the slashes at the end. -/
def HidesBlank (url : String) : Prop :=
  ∃ front blank slashes after, url.toList = front ++ blank :: slashes ++ after ∧
    (∃ c ∈ front, isBlank c = false) ∧ isBlank blank = true ∧ slashes ≠ [] ∧
    (∀ c ∈ slashes, c = '/') ∧ ∀ c ∈ after, isBlank c = true

/-- The addresses that normalizing leaves as they are. -/
theorem normalUrl_eq_self_iff : normalUrl r = some r ↔ IsNormal r := by
  rw [normalUrl_eq_some_iff]
  constructor
  · rintro ⟨hne, before, slashes, after, h⟩
    have hlength := congrArg List.length h.text_eq
    simp only [List.length_append] at hlength
    have hslashes : slashes = [] := List.eq_nil_of_length_eq_zero (by omega)
    exact ⟨hne, h.front, fun c hc => ⟨h.hidden hslashes c hc, h.back c hc⟩⟩
  · intro h
    refine ⟨h.ne_empty, [], [], [], ?_, nofun, nofun, nofun, h.front, ?_, ?_⟩
    · rw [List.nil_append, List.append_nil, List.append_nil]
    · exact fun c hc => (h.back c hc).2
    · exact fun _ c hc => (h.back c hc).1

/-- What is left of a text is normal, or ends in a blank that its slashes have hidden. -/
theorem isNormal_or_hidden (h : normalUrl url = some r) :
    IsNormal r ∨ ∃ front blank before slashes after, r.toList = front ++ [blank] ∧
      isBlank blank = true ∧ slashes ≠ [] ∧ Pieces url before r.toList slashes after := by
  obtain ⟨hne, before, slashes, after, hpieces⟩ := normalUrl_eq_some_iff.mp h
  cases hlast : r.toList.getLast? with
  | none => exact absurd (String.toList_eq_nil_iff.mp (List.getLast?_eq_none_iff.mp hlast)) hne
  | some blank =>
    obtain ⟨front, hfront⟩ := List.getLast?_eq_some_iff.mp hlast
    cases hblank : isBlank blank with
    | false =>
      refine .inl ⟨hne, hpieces.front, fun c hc => ?_⟩
      obtain rfl : blank = c := Option.some.inj (hlast.symm.trans hc)
      exact ⟨hblank, hpieces.back blank hlast⟩
    | true =>
      refine .inr ⟨front, blank, before, slashes, after, hfront, hblank, fun hnil => ?_, hpieces⟩
      rw [hpieces.hidden hnil blank hlast] at hblank
      cases hblank

theorem hidesBlank_of_not_isNormal (h : normalUrl url = some r) (hr : ¬IsNormal r) :
    HidesBlank url := by
  obtain ⟨front, blank, before, slashes, after, hfront, hblank, hslashes, hpieces⟩ :=
    (isNormal_or_hidden h).resolve_left hr
  refine ⟨before ++ front, blank, slashes, after, ?_, ?_, hblank, hslashes, hpieces.slash,
    hpieces.blank_after⟩
  · rw [hpieces.text_eq, hfront]
    simp
  · -- what is left does not begin with a blank, so the blank at its end is not all of it
    cases front with
    | nil =>
      have hfirst := hpieces.front blank (by rw [hfront]; rfl)
      rw [hblank] at hfirst
      cases hfirst
    | cons first rest =>
      exact ⟨first, by simp, hpieces.front first (by rw [hfront]; rfl)⟩

theorem exists_of_hidesBlank (h : HidesBlank url) : ∃ r, normalUrl url = some r ∧ ¬IsNormal r := by
  obtain ⟨front, blank, slashes, after, htext, ⟨c, hc, hvisible⟩, hblank, hslashes, hall, hafter⟩ :=
    h
  have hne : front.dropWhile isBlank ≠ [] := by
    intro hnil
    rw [List.dropWhile_eq_nil_iff.mp hnil c hc] at hvisible
    cases hvisible
  have hpieces : Pieces url (front.takeWhile isBlank) (front.dropWhile isBlank ++ [blank]) slashes
      after := by
    refine ⟨?_, fun _ => List.mem_takeWhile_imp, hall, hafter, ?_, ?_, fun hnil => ?_⟩
    · calc url.toList = front ++ (blank :: slashes ++ after) := by rw [htext]; simp
        _ = front.takeWhile isBlank ++ front.dropWhile isBlank ++ (blank :: slashes ++ after) := by
          rw [List.takeWhile_append_dropWhile]
        _ = _ := by simp only [List.append_assoc, List.cons_append, List.nil_append]
    · intro x hx
      rw [List.head?_append_of_ne_nil _ hne] at hx
      exact front_dropWhile _ hx
    · intro x hx
      rw [List.getLast?_concat] at hx
      obtain rfl := Option.some.inj hx
      rintro rfl
      exact absurd hblank (by decide)
    · exact absurd hnil hslashes
  refine ⟨String.ofList (front.dropWhile isBlank ++ [blank]), ?_, fun hnormal => ?_⟩
  · rw [normalUrl_eq_some_iff, String.toList_ofList]
    exact ⟨by simp, _, _, _, hpieces⟩
  · have hback := (hnormal.back blank (by simp)).1
    rw [hblank] at hback
    cases hback

/-- Normalizing again and again settles the address. -/
theorem exists_settled (url : String) :
    ∃ n ≤ url.toList.length + 1, ∀ r, (Option.bind · normalUrl)^[n] (some url) = some r →
      IsNormal r ∧ normalUrl r = some r := by
  -- by induction on the length, as an address that does not settle gets shorter
  induction hlength : url.toList.length using Nat.strong_induction_on generalizing url with
  | _ length ih =>
    cases hurl : normalUrl url with
    | none =>
      refine ⟨1, Nat.le_add_left _ _, fun r hr => ?_⟩
      rw [Function.iterate_one, Option.bind_some, hurl] at hr
      cases hr
    | some next =>
      rcases isNormal_or_hidden hurl with hnormal | ⟨_, _, _, slashes, _, -, -, hslashes, hpieces⟩
      · refine ⟨1, Nat.le_add_left _ _, fun r hr => ?_⟩
        rw [Function.iterate_one, Option.bind_some, hurl] at hr
        obtain rfl := Option.some.inj hr
        exact ⟨hnormal, normalUrl_eq_self_iff.mpr hnormal⟩
      · have hshorter : next.toList.length < length := by
          have hlengths := congrArg List.length hpieces.text_eq
          have hpos := List.length_pos_iff.mpr hslashes
          simp only [List.length_append] at hlengths
          omega
        obtain ⟨n, hn, hsettled⟩ := ih _ hshorter next rfl
        refine ⟨n + 1, by omega, fun r hr => hsettled r ?_⟩
        rwa [Function.iterate_succ_apply, Option.bind_some, hurl] at hr

/-- A blank that stands in front of slashes is left at the end of the address. -/
theorem not_allSettle : ¬∀ url, Settles url := by
  intro h
  have hnormal := (h "http://scheduler.local /" "http://scheduler.local " (by decide +kernel)).1
  exact absurd (hnormal.back ' ' (by decide)).1 (by decide)

/-- What normalizing leaves of a text is never empty, does not begin with a blank, and does not end
in a slash. It may end in a blank, and it stays as it is exactly if it does not: that is the case
for all texts but those in which a blank is hidden by slashes at the end. Normalizing again and
again settles those as well. -/
theorem settles_iff (url : String) :
    (Settles url ↔ ¬HidesBlank url) ∧
    (∀ r, normalUrl url = some r →
      r ≠ "" ∧ (∀ c ∈ r.toList.head?, isBlank c = false) ∧ (∀ c ∈ r.toList.getLast?, c ≠ '/') ∧
        (normalUrl r = some r ↔ ∀ c ∈ r.toList.getLast?, isBlank c = false)) ∧
    ∃ n ≤ url.toList.length + 1, ∀ r, (Option.bind · normalUrl)^[n] (some url) = some r →
      IsNormal r ∧ normalUrl r = some r := by
  refine ⟨⟨fun hsettles hhides => ?_, fun hhides r h => ?_⟩, fun r h => ?_, exists_settled url⟩
  · obtain ⟨r, hr, hnormal⟩ := exists_of_hidesBlank hhides
    exact hnormal (hsettles r hr).1
  · have hnormal : IsNormal r := by
      by_contra hnot
      exact hhides (hidesBlank_of_not_isNormal h hnot)
    exact ⟨hnormal, normalUrl_eq_self_iff.mpr hnormal⟩
  · obtain ⟨hne, _, _, _, hpieces⟩ := normalUrl_eq_some_iff.mp h
    refine ⟨hne, hpieces.front, hpieces.back, normalUrl_eq_self_iff.trans ⟨?_, ?_⟩⟩
    · exact fun hnormal c hc => (hnormal.back c hc).1
    · exact fun hback => ⟨hne, hpieces.front, fun c hc => ⟨hback c hc, hpieces.back c hc⟩⟩

/-- An address with blanks around it and a slash settles at once; one with a blank between its
slashes keeps it, and has to be normalized again. -/
theorem settles_iff_spaced :
    normalUrl " https://scheduler.example/ " = some "https://scheduler.example" ∧
      Settles " https://scheduler.example/ " ∧
      normalUrl "http://host/ /" = some "http://host/ " ∧
      normalUrl "http://host/ " ≠ some "http://host/ " := by
  have hplain : normalUrl " https://scheduler.example/ " = some "https://scheduler.example" := by
    decide +kernel
  have hspaced : normalUrl "http://host/ /" = some "http://host/ " := by decide +kernel
  obtain ⟨hsettles, hleft, -⟩ := settles_iff " https://scheduler.example/ "
  obtain ⟨-, hleft', -⟩ := settles_iff "http://host/ /"
  refine ⟨hplain, ?_, hspaced, fun hsame => ?_⟩
  · intro r hr
    obtain rfl : r = "https://scheduler.example" := Option.some.inj (hr.symm.trans hplain)
    have hlast : "https://scheduler.example".toList.getLast? = some 'e' := by decide
    have hsame := (hleft _ hplain).2.2.2.mpr fun c hc => by
      obtain rfl : 'e' = c := Option.some.inj (hlast.symm.trans hc)
      decide
    exact ⟨normalUrl_eq_self_iff.mp hsame, hsame⟩
  · exact absurd ((hleft' _ hspaced).2.2.2.mp hsame ' ' (by decide)) (by decide)

end Settings

end StakeLedger
