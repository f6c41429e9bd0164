import StakeLedger.OneShot
import Mathlib

/-
  Dates and instants of UTC.
  A date is found from its day by cutting off cycles of years and then months. The days of the
  cycles that are cut off are the days before the year (`daysBeforeYear_cycles`), and what is
  left is less than the year's length, leap years included (`yearLength_cycles`). So every day
  has a date of the calendar, and the date has that day again; the instant of a unix time has
  that time; and a one-shot expression fires at the start of the minute it was made for.
-/

namespace StakeLedger

namespace Date

variable {lengths : List Nat} {day : Nat}

/-- The days of a year. -/
def yearLength (year : Int) : Nat := if isLeap year then 366 else 365

theorem sum_monthLengths (year : Int) : (monthLengths (isLeap year)).sum = yearLength year := by
  unfold yearLength
  cases isLeap year <;> rfl

/-! ## Days and years -/

section Cycles

variable {cycles centuries fours years : Int}

/-- The days before a year, by the cycles that lie before it. -/
theorem daysBeforeYear_cycles (hcenturies : 0 ≤ centuries ∧ centuries ≤ 3)
    (hfours : 0 ≤ fours ∧ fours ≤ 24) (hyears : 0 ≤ years ∧ years ≤ 3) :
    daysBeforeYear (400 * cycles + 100 * centuries + 4 * fours + years + 1) =
      146097 * cycles + 36524 * centuries + 1461 * fours + 365 * years := by
  simp only [daysBeforeYear]
  omega

/-- The last of four years has a leap day, unless it ends a century that does not end a cycle of
four centuries. -/
theorem yearLength_cycles (hcenturies : 0 ≤ centuries ∧ centuries ≤ 3)
    (hfours : 0 ≤ fours ∧ fours ≤ 24) (hyears : 0 ≤ years ∧ years ≤ 3) :
    yearLength (400 * cycles + 100 * centuries + 4 * fours + years + 1) =
      if years = 3 ∧ (fours = 24 → centuries = 3) then 366 else 365 := by
  simp only [yearLength, isLeap, Bool.and_eq_true, Bool.or_eq_true, decide_eq_true_eq]
  split <;> split <;> omega

end Cycles

/-- The date of a day lies in the year that the day lies in. -/
theorem exists_ofDayNumber (n : Int) :
    ∃ (year : Int) (day : Nat), day < yearLength year ∧ n + epochDay = daysBeforeYear year + day ∧
      ofDayNumber n = ⟨year, (monthAndDay 1 (monthLengths (isLeap year)) day).1,
        (monthAndDay 1 (monthLengths (isLeap year)) day).2⟩ := by
  unfold ofDayNumber
  generalize n + epochDay = day
  obtain ⟨centuries, hcenturies⟩ : ∃ c, c = min 3 (day % 146097 / 36524) := ⟨_, rfl⟩
  obtain ⟨inCentury, hinCentury⟩ : ∃ d, d = day % 146097 - 36524 * centuries := ⟨_, rfl⟩
  obtain ⟨fours, hfours⟩ : ∃ f, f = inCentury / 1461 := ⟨_, rfl⟩
  obtain ⟨inFour, hinFour⟩ : ∃ d, d = inCentury - 1461 * fours := ⟨_, rfl⟩
  obtain ⟨years, hyears⟩ : ∃ y, y = min 3 (inFour / 365) := ⟨_, rfl⟩
  have hcenturiesRange : 0 ≤ centuries ∧ centuries ≤ 3 := by omega
  have hfoursRange : 0 ≤ fours ∧ fours ≤ 24 := by omega
  have hyearsRange : 0 ≤ years ∧ years ≤ 3 := by omega
  have hinYear : 0 ≤ inFour - 365 * years := by omega
  simp only [← hcenturies, ← hinCentury, ← hfours, ← hinFour, ← hyears]
  refine ⟨_, _, ?_, ?_, rfl⟩
  · rw [yearLength_cycles hcenturiesRange hfoursRange hyearsRange]
    split <;> omega
  · rw [daysBeforeYear_cycles hcenturiesRange hfoursRange hyearsRange]
    omega

/-! ## Days and months -/

/-- The month of a day of the year is the one whose days hold it. -/
theorem exists_monthAndDay (h : day < lengths.sum) (month : Nat) :
    ∃ k, ∃ hk : k < lengths.length, (lengths.take k).sum ≤ day ∧
      day < (lengths.take k).sum + lengths[k] ∧
      monthAndDay month lengths day = (month + k, day - (lengths.take k).sum + 1) := by
  induction lengths generalizing month day with
  | nil => simp at h
  | cons length rest ih =>
    by_cases hday : day < length
    · exact ⟨0, by simp, by simp, by simpa using hday, by simp [monthAndDay, hday]⟩
    · have hrest : day - length < rest.sum := by
        rw [List.sum_cons] at h
        omega
      obtain ⟨k, hk, hle, hlt, heq⟩ := ih hrest (month + 1)
      refine ⟨k + 1, by simpa using hk, ?_, ?_, ?_⟩
      · simp only [List.take_succ_cons, List.sum_cons]
        omega
      · simp only [List.take_succ_cons, List.sum_cons, List.getElem_cons_succ]
        omega
      · rw [monthAndDay, if_neg hday, heq, List.take_succ_cons, List.sum_cons]
        simp only [Prod.mk.injEq]
        omega

theorem monthLength_add_one {leap : Bool} {k : Nat} (hk : k < (monthLengths leap).length) :
    monthLength leap (1 + k) = (monthLengths leap)[k] := by
  rw [monthLength, Nat.add_sub_cancel_left, List.getElem?_eq_getElem hk, Option.getD_some]

/-- The date of a day: its month begins on or before the day and ends after it. -/
theorem exists_ofDayNumber_month (n : Int) :
    ∃ (year : Int) (k : Nat) (hk : k < (monthLengths (isLeap year)).length) (rest : Nat),
      rest < (monthLengths (isLeap year))[k] ∧
        n + epochDay = daysBeforeYear year + daysBeforeMonth (isLeap year) (1 + k) + rest ∧
        ofDayNumber n = ⟨year, 1 + k, rest + 1⟩ := by
  obtain ⟨year, day, hday, hn, hdate⟩ := exists_ofDayNumber n
  rw [← sum_monthLengths] at hday
  obtain ⟨k, hk, hle, hlt, heq⟩ := exists_monthAndDay hday 1
  refine ⟨year, k, hk, day - ((monthLengths (isLeap year)).take k).sum, by omega, ?_, ?_⟩
  · rw [daysBeforeMonth, Nat.add_sub_cancel_left, ← List.sum_eq_foldl]
    omega
  · rw [hdate, heq]

/-- Every day has a date of the calendar. -/
theorem isValid_ofDayNumber (n : Int) : (ofDayNumber n).isValid := by
  obtain ⟨year, k, hk, rest, hrest, -, hdate⟩ := exists_ofDayNumber_month n
  have hmonths : k < 12 := hk
  rw [hdate]
  simp only [isValid, monthLength_add_one hk, Bool.and_eq_true, decide_eq_true_eq]
  omega

/-- The day of the date of a day. -/
theorem dayNumber_ofDayNumber (n : Int) : (ofDayNumber n).dayNumber = n := by
  obtain ⟨year, k, -, rest, -, hn, hdate⟩ := exists_ofDayNumber_month n
  rw [hdate]
  simp only [dayNumber]
  omega

end Date

namespace Instant

/-- The unix time of the instant of a unix time. -/
theorem toUnix_ofUnix (time : Int) : (ofUnix time).toUnix = time := by
  simp only [ofUnix, toUnix, Date.dayNumber_ofDayNumber, daySeconds]
  omega

end Instant

namespace OneShot

/-- The unix time at which the expression fires. -/
def time (e : OneShot) : Int := e.instant.toUnix

/-- The expression for an instant fires at the start of the minute that holds it. -/
theorem time_ofInstant (t : Instant) : (ofInstant t).time = t.toUnix - t.second := by
  have hinstant : (ofInstant t).instant = { t with second := 0 } := rfl
  simp only [time, hinstant, Instant.toUnix]
  omega

theorem time_ofInstant_ofUnix (time : Int) :
    (ofInstant (Instant.ofUnix time)).time = time - time % 60 := by
  rw [time_ofInstant, Instant.toUnix_ofUnix]
  simp only [Instant.ofUnix, Instant.daySeconds]
  omega

/-- An expression is built for a time of the years 1 to 9999, and fires in its minute. -/
theorem build_eq_ok_iff {execution offset : Int} {e : OneShot} :
    build execution offset = .ok e ↔
      (Instant.firstUnix ≤ execution + offset ∧ execution + offset ≤ Instant.lastUnix) ∧
        e = ofInstant (Instant.ofUnix (execution + offset)) := by
  unfold build
  dsimp only
  split
  · next h => simp [h, eq_comm]
  · next h => simp [h]

end OneShot

end StakeLedger
