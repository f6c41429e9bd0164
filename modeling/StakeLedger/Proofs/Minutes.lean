import StakeLedger.Proofs.Days
import StakeLedger.Proofs.Numeral

/-
  One-shot expressions and the minutes that they denote.
  An expression denotes a time if its date is one of the calendar, its hour and minute are those
  of a clock, and its instant is at that time, counted day by day from the first of January 1970
  (`Denotes`). It denotes one time only, the one at which it fires, and no other expression
  denotes that time (`denotes_iff`, `Denotes.eq`). Its text consists of seven fields without
  blanks, so that the fields can be read off it (`splitOn_text`). `build_denotes` says for which
  times an expression is built, and that it is the one for the start of the minute of its time.
-/

namespace StakeLedger

namespace OneShot

variable {e e' : OneShot} {time time' execution offset : Int}

/-! ## Instants -/

/-- The expression fires at a time: its date and its clock are proper ones, and its instant is so
many seconds after the start of the first of January 1970. -/
structure Denotes (e : OneShot) (time : Int) : Prop where
  date : e.instant.date.isValid = true
  hour : e.hour < 24
  minute : e.minute < 60
  time : ∃ days, e.instant.date.LiesAt days ∧
    time = days * 86400 + e.hour * 3600 + e.minute * 60

theorem time_eq (e : OneShot) :
    e.time = e.instant.date.dayNumber * 86400 + e.hour * 3600 + e.minute * 60 := by
  simp [time, Instant.toUnix, instant, Instant.daySeconds]

/-- Counting day by day comes to the time that is counted by the calendar's cycles. -/
theorem denotes_iff :
    e.Denotes time ↔
      (e.instant.date.isValid = true ∧ e.hour < 24 ∧ e.minute < 60) ∧ time = e.time := by
  constructor
  · intro h
    obtain ⟨days, hdays, htime⟩ := h.time
    rw [Date.liesAt_iff h.date] at hdays
    exact ⟨⟨h.date, h.hour, h.minute⟩, by rw [htime, time_eq, hdays]⟩
  · rintro ⟨⟨hdate, hhour, hminute⟩, rfl⟩
    exact ⟨hdate, hhour, hminute, _, (Date.liesAt_iff hdate).mpr rfl, time_eq e⟩

/-- Two expressions for one time are the same. -/
theorem Denotes.eq (h : e.Denotes time) (h' : e'.Denotes time) : e = e' := by
  obtain ⟨⟨hdate, hhour, hminute⟩, htime⟩ := denotes_iff.mp h
  obtain ⟨⟨hdate', hhour', hminute'⟩, htime'⟩ := denotes_iff.mp h'
  rw [time_eq] at htime htime'
  have hdates : e.instant.date = e'.instant.date :=
    Date.eq_of_dayNumber hdate hdate' (by omega)
  have hhours : e.hour = e'.hour := by omega
  have hminutes : e.minute = e'.minute := by omega
  simp only [instant, Date.mk.injEq] at hdates
  obtain ⟨hyears, hmonths, hdays⟩ := hdates
  obtain ⟨minute, hour, day, month, year⟩ := e
  obtain ⟨minute', hour', day', month', year'⟩ := e'
  simp only [mk.injEq]
  exact ⟨hminutes, hhours, hdays, hmonths, hyears⟩

/-- The expression of the instant of a time denotes the start of the minute that holds it. -/
theorem denotes_ofInstant_ofUnix (time : Int) :
    (ofInstant (Instant.ofUnix time)).Denotes (time - time % 60) := by
  refine denotes_iff.mpr ⟨⟨?_, ?_, ?_⟩, (time_ofInstant_ofUnix time).symm⟩
  · exact Date.isValid_ofDayNumber (time / Instant.daySeconds)
  · simp only [ofInstant, Instant.ofUnix, Instant.daySeconds]
    omega
  · simp only [ofInstant, Instant.ofUnix]
    omega

theorem denotes_of_build (h : build execution offset = .ok e) :
    e.Denotes (execution + offset - (execution + offset) % 60) := by
  obtain ⟨-, rfl⟩ := build_eq_ok_iff.mp h
  exact denotes_ofInstant_ofUnix _

/-- Times have one expression if they lie in one minute. -/
theorem eq_iff_of_denotes (h : e.Denotes (time - time % 60))
    (h' : e'.Denotes (time' - time' % 60)) : e = e' ↔ time / 60 = time' / 60 := by
  constructor
  · rintro rfl
    have hstart := (denotes_iff.mp h).2.trans (denotes_iff.mp h').2.symm
    omega
  · intro hminute
    have hstart : time - time % 60 = time' - time' % 60 := by omega
    rw [← hstart] at h'
    exact h.eq h'

/-! ## Texts -/

/-- The seven fields of an expression. -/
def fields (e : OneShot) : List String :=
  ["0", toString e.minute, toString e.hour, toString e.day, toString e.month, "*",
    toString e.year]

theorem text_eq_intercalate (e : OneShot) : e.text = " ".intercalate e.fields := by
  apply String.toList_injective
  simp [text, fields]

theorem blank_not_mem_toString (n : Int) : ' ' ∉ (toString n).toList := by
  intro h
  rcases Text.isDigit_of_mem_writeInt h with hdigit | hsign
  · exact absurd hdigit (by decide)
  · exact absurd hsign (by decide)

theorem blank_not_mem_of_mem_fields {field : String} (h : field ∈ e.fields) :
    ' ' ∉ field.toList := by
  have hnat : ∀ n : Nat, ' ' ∉ (toString n).toList := fun n => blank_not_mem_toString n
  simp only [fields, List.mem_cons, List.not_mem_nil, or_false] at h
  rcases h with rfl | rfl | rfl | rfl | rfl | rfl | rfl
  · decide
  · exact hnat e.minute
  · exact hnat e.hour
  · exact hnat e.day
  · exact hnat e.month
  · decide
  · exact blank_not_mem_toString e.year

/-- The fields are read off the text at its blanks. -/
theorem splitOn_text (e : OneShot) :
    List.splitOn ' ' e.text.toList = e.fields.map String.toList := by
  rw [text_eq_intercalate, String.toList_intercalate]
  refine List.splitOn_intercalate ' ' ?_ (by simp [fields])
  intro cs hcs
  obtain ⟨field, hfield, rfl⟩ := List.mem_map.mp hcs
  exact blank_not_mem_of_mem_fields hfield

/-- The text shows the expression. -/
theorem text_injective (h : e.text = e'.text) : e = e' := by
  have hfields : e.fields = e'.fields := by
    refine List.map_injective_iff.mpr (fun _ _ => String.toList_injective) ?_
    rw [← splitOn_text, ← splitOn_text, h]
  simp only [fields, List.cons.injEq, and_true, true_and] at hfields
  obtain ⟨hminute, hhour, hday, hmonth, hyear⟩ := hfields
  obtain ⟨minute, hour, day, month, year⟩ := e
  obtain ⟨minute', hour', day', month', year'⟩ := e'
  simp only [mk.injEq]
  exact ⟨Nat.repr_injective hminute, Nat.repr_injective hhour, Nat.repr_injective hday,
    Nat.repr_injective hmonth, Int.repr_injective hyear⟩

/-! ## Building -/

/-- A time out of the years 1 to 9999 has no expression. -/
theorem build_eq_error {fault : Fault} (h : build execution offset = .error fault) :
    fault = .noSuchInstant execution offset := by
  unfold build at h
  dsimp only at h
  split at h
  · cases h
  · exact (Except.error.inj h).symm

theorem exists_build_iff :
    (∃ e, build execution offset = .ok e) ↔
      Instant.firstUnix ≤ execution + offset ∧ execution + offset ≤ Instant.lastUnix := by
  constructor
  · rintro ⟨e, h⟩
    exact (build_eq_ok_iff.mp h).1
  · intro h
    exact ⟨_, build_eq_ok_iff.mpr ⟨h, rfl⟩⟩

/-- An expression is built for the times of the years 1 to 9999, and refused for all others. It
denotes the start of the minute that holds its time, and its text is made of a zero second, the
minute, the hour, the day and the month, any day of the week, and the year. Two times have one
text if they lie in one minute, and only then. -/
theorem build_denotes (execution offset : Int) :
    ((∃ e, build execution offset = .ok e) ↔
      -62135596800 ≤ execution + offset ∧ execution + offset ≤ 253402300799) ∧
    (∀ e, build execution offset = .ok e →
      e.Denotes (execution + offset - (execution + offset) % 60) ∧
        e.text = " ".intercalate ["0", toString e.minute, toString e.hour, toString e.day,
          toString e.month, "*", toString e.year]) ∧
    (∀ fault, build execution offset = .error fault →
      fault = .noSuchInstant execution offset ∧ fault.label = "ScheduleBuildError") ∧
    ∀ (execution' offset' : Int) (e e' : OneShot), build execution offset = .ok e →
      build execution' offset' = .ok e' →
      (e.text = e'.text ↔ (execution + offset) / 60 = (execution' + offset') / 60) := by
  refine ⟨exists_build_iff, ?_, ?_, ?_⟩
  · intro e h
    exact ⟨denotes_of_build h, text_eq_intercalate e⟩
  · intro fault h
    obtain rfl := build_eq_error h
    exact ⟨rfl, rfl⟩
  · intro execution' offset' e e' h h'
    rw [← eq_iff_of_denotes (denotes_of_build h) (denotes_of_build h')]
    exact ⟨text_injective, congrArg text⟩

/-- The year 1900 had no leap day: half a minute after the end of its February it was March. -/
theorem build_denotes_marchOf1900 :
    ∃ e, build (-2203891201) 31 = .ok e ∧ e.text = "0 0 0 1 3 * 1900" ∧
      e.Denotes (-2203891200) := by
  obtain ⟨-, hbuilt, -, -⟩ := build_denotes (-2203891201) 31
  obtain ⟨hdenotes, -⟩ := hbuilt _ rfl
  exact ⟨_, rfl, by decide, hdenotes⟩

end OneShot

end StakeLedger
