import StakeLedger.Proofs.Instants

/-
  The calendar, day by day.
  The number of a date is the count that one comes to who goes through the calendar a day at a
  time, with nothing but the lengths of the months: `tomorrow` adds one to it
  (`dayNumber_tomorrow`), over the ends of months and years too. No two dates of the calendar
  have one number (`eq_of_dayNumber`). So a date is reached from the first of January 1970, or
  that day from it, in exactly as many days as its number says (`liesAt_iff`).
-/

namespace StakeLedger

namespace Date

/-- The day after a date. -/
def tomorrow (d : Date) : Date :=
  if d.day < monthLength (isLeap d.year) d.month then { d with day := d.day + 1 }
  else if d.month < 12 then ⟨d.year, d.month + 1, 1⟩
  else ⟨d.year + 1, 1, 1⟩

/-- The first of January 1970. -/
def epoch : Date := ⟨1970, 1, 1⟩

/-- Is the date `n` days after the first of January 1970, counted day by day? A date before it is
some days behind. -/
def LiesAt (d : Date) (n : Int) : Prop :=
  ∃ ahead behind : Nat, n = ahead - behind ∧ tomorrow^[ahead] epoch = tomorrow^[behind] d

variable {d d' : Date} {n : Int} {leap : Bool} {month : Nat}

theorem isValid_iff :
    d.isValid = true ↔
      (1 ≤ d.month ∧ d.month ≤ 12) ∧ 1 ≤ d.day ∧ d.day ≤ monthLength (isLeap d.year) d.month := by
  simp only [isValid, Bool.and_eq_true, decide_eq_true_eq, and_assoc]

/-! ## The ends of months and years -/

theorem monthLength_pos (h : 1 ≤ month ∧ month ≤ 12) : 0 < monthLength leap month := by
  obtain ⟨hlow, hhigh⟩ := h
  cases leap <;> interval_cases month <;> decide

theorem daysBeforeMonth_one (leap : Bool) : daysBeforeMonth leap 1 = 0 := by
  cases leap <;> rfl

/-- A month begins where the one before it ends. -/
theorem daysBeforeMonth_add_one (leap : Bool) (h : 1 ≤ month ∧ month ≤ 12) :
    daysBeforeMonth leap (month + 1) = daysBeforeMonth leap month + monthLength leap month := by
  obtain ⟨k, rfl⟩ : ∃ k, month = 1 + k := ⟨month - 1, by omega⟩
  have hk : k < (monthLengths leap).length := by
    show k < 12
    omega
  have hstep := List.sum_take_succ (monthLengths leap) k hk
  simp only [daysBeforeMonth, ← List.sum_eq_foldl, monthLength_add_one hk]
  rw [Nat.add_sub_cancel, Nat.add_sub_cancel_left, Nat.add_comm 1 k, hstep]

/-- The days of the twelve months are those of the year. -/
theorem daysBeforeMonth_thirteen (year : Int) :
    daysBeforeMonth (isLeap year) 13 = yearLength year := by
  rw [daysBeforeMonth, ← List.sum_eq_foldl, ← sum_monthLengths]
  rfl

theorem daysBeforeMonth_le (leap : Bool) {later : Nat} (h : month ≤ later) :
    daysBeforeMonth leap month ≤ daysBeforeMonth leap later := by
  simp only [daysBeforeMonth, ← List.sum_eq_foldl]
  exact ((monthLengths leap).take_sublist_take_left (by omega)).sum_le_sum (by simp)

/-- A year begins where the one before it ends. -/
theorem daysBeforeYear_add_one (year : Int) :
    daysBeforeYear (year + 1) = daysBeforeYear year + yearLength year := by
  simp only [daysBeforeYear, yearLength, isLeap, Bool.and_eq_true, Bool.or_eq_true,
    decide_eq_true_eq]
  split <;> omega

theorem daysBeforeYear_strictMono : StrictMono daysBeforeYear := by
  refine strictMono_int_of_lt_succ fun year => ?_
  have hpos : 0 < yearLength year := by
    unfold yearLength
    split <;> decide
  rw [daysBeforeYear_add_one]
  omega

/-! ## Dates and their numbers -/

theorem isValid_epoch : epoch.isValid = true := by decide

theorem dayNumber_epoch : epoch.dayNumber = 0 := by decide

theorem isValid_tomorrow (h : d.isValid = true) : d.tomorrow.isValid = true := by
  obtain ⟨hmonth, hday⟩ := isValid_iff.mp h
  unfold tomorrow
  split
  · exact isValid_iff.mpr ⟨hmonth, by dsimp only; omega⟩
  · split
    · have hpos : 0 < monthLength (isLeap d.year) (d.month + 1) := monthLength_pos (by omega)
      exact isValid_iff.mpr ⟨by dsimp only; omega, by dsimp only; omega⟩
    · have hpos : 0 < monthLength (isLeap (d.year + 1)) 1 := monthLength_pos (by decide)
      exact isValid_iff.mpr ⟨by dsimp only; omega, by dsimp only; omega⟩

/-- The next day of the calendar has the next number. -/
theorem dayNumber_tomorrow (h : d.isValid = true) : d.tomorrow.dayNumber = d.dayNumber + 1 := by
  obtain ⟨hmonth, hday⟩ := isValid_iff.mp h
  have hnext := daysBeforeMonth_add_one (isLeap d.year) hmonth
  unfold tomorrow
  split
  · simp only [dayNumber]
    omega
  · split
    · simp only [dayNumber]
      omega
    · -- the last day of December: the month that would follow is the thirteenth
      have hlast : d.month + 1 = 13 := by omega
      rw [hlast, daysBeforeMonth_thirteen] at hnext
      have hyear := daysBeforeYear_add_one d.year
      have hfirst := daysBeforeMonth_one (isLeap (d.year + 1))
      simp only [dayNumber]
      omega

theorem iterate_tomorrow (h : d.isValid = true) (k : Nat) :
    (tomorrow^[k] d).isValid = true ∧ (tomorrow^[k] d).dayNumber = d.dayNumber + k := by
  induction k with
  | zero => exact ⟨h, by simp⟩
  | succ k ih =>
    obtain ⟨hvalid, hnumber⟩ := ih
    rw [Function.iterate_succ_apply', dayNumber_tomorrow hvalid]
    exact ⟨isValid_tomorrow hvalid, by omega⟩

/-- The number of a date lies in its year. -/
theorem dayNumber_bounds (h : d.isValid = true) :
    daysBeforeYear d.year ≤ d.dayNumber + epochDay ∧
      d.dayNumber + epochDay < daysBeforeYear (d.year + 1) := by
  obtain ⟨hmonth, hday⟩ := isValid_iff.mp h
  have hnext := daysBeforeMonth_add_one (isLeap d.year) hmonth
  have hend : daysBeforeMonth (isLeap d.year) (d.month + 1) ≤ yearLength d.year :=
    daysBeforeMonth_thirteen d.year ▸ daysBeforeMonth_le _ (by omega)
  rw [daysBeforeYear_add_one]
  simp only [dayNumber]
  omega

/-- No two dates of the calendar have one number. -/
theorem eq_of_dayNumber (h : d.isValid = true) (h' : d'.isValid = true)
    (hnumber : d.dayNumber = d'.dayNumber) : d = d' := by
  have hyear : d.year = d'.year := by
    obtain ⟨hlow, hhigh⟩ := dayNumber_bounds h
    obtain ⟨hlow', hhigh'⟩ := dayNumber_bounds h'
    have hlt : d.year < d'.year + 1 := daysBeforeYear_strictMono.lt_iff_lt.mp (by omega)
    have hlt' : d'.year < d.year + 1 := daysBeforeYear_strictMono.lt_iff_lt.mp (by omega)
    omega
  obtain ⟨year, month, day⟩ := d
  obtain ⟨year', month', day'⟩ := d'
  subst hyear
  obtain ⟨hmonths, hdays⟩ := isValid_iff.mp h
  obtain ⟨hmonths', hdays'⟩ := isValid_iff.mp h'
  have hnext := daysBeforeMonth_add_one (isLeap year) hmonths
  have hnext' := daysBeforeMonth_add_one (isLeap year) hmonths'
  simp only [dayNumber] at hnumber hdays hdays' hnext hnext'
  -- of two months of one year, the later begins after the earlier has ended
  have hmonth : month = month' := by
    rcases Nat.lt_trichotomy month month' with hlt | heq | hgt
    · have := daysBeforeMonth_le (isLeap year) (show month + 1 ≤ month' from hlt)
      omega
    · exact heq
    · have := daysBeforeMonth_le (isLeap year) (show month' + 1 ≤ month from hgt)
      omega
  subst hmonth
  have hday : day = day' := by omega
  rw [hday]

/-- A date of the calendar is as many days after the first of January 1970 as its number says. -/
theorem liesAt_iff (h : d.isValid = true) : d.LiesAt n ↔ d.dayNumber = n := by
  constructor
  · rintro ⟨ahead, behind, rfl, hmeet⟩
    obtain ⟨-, hahead⟩ := iterate_tomorrow isValid_epoch ahead
    obtain ⟨-, hbehind⟩ := iterate_tomorrow h behind
    rw [hmeet, dayNumber_epoch] at hahead
    omega
  · rintro rfl
    refine ⟨d.dayNumber.toNat, (-d.dayNumber).toNat, by omega, ?_⟩
    obtain ⟨hvalid, hahead⟩ := iterate_tomorrow isValid_epoch d.dayNumber.toNat
    obtain ⟨hvalid', hbehind⟩ := iterate_tomorrow h (-d.dayNumber).toNat
    refine eq_of_dayNumber hvalid hvalid' ?_
    rw [hahead, hbehind, dayNumber_epoch]
    omega

end Date

end StakeLedger
