/-
The calendar: a number of days gives a date, and the date gives the number back.

Years begin in March here, so that a leap day is the last of its year, and 400 years are an era. The year of
a day in its era is found by a division that skips the leap days (`yearOfEra`). That it is the right one
(`yearStart_le`) follows from two facts: the division is monotone, and it is right on the first and on the
last day of each of the 400 years.

`Date.toDays_ofDays` and `Date.isValid_ofDays` are the main results.
-/
import Placement.Timestamp

namespace Placement.Timestamp

/-! ## Years of an era -/

/-- The year in which a day of the era lies. -/
def yearOfEra (day : Nat) : Nat := (day - day / 1460 + day / 36524 - day / 146096) / 365

theorem natCast_yearOfEra (day : Nat) :
    ((day : Int) - day / 1460 + day / 36524 - day / 146096) / 365 = yearOfEra day := by
  simp only [yearOfEra]
  omega

/-- The first day of a year of the era; the end of the era as well. -/
def yearStart (year : Nat) : Nat := 365 * year + year / 4 - year / 100 + year / 400

theorem yearOfEra_mono {a b : Nat} (h : a ≤ b) : yearOfEra a ≤ yearOfEra b := by
  have step : ∀ day, yearOfEra day ≤ yearOfEra (day + 1) := by
    intro day
    simp only [yearOfEra]
    omega
  induction h with
  | refl => exact Nat.le_refl _
  | step _ ih => exact Nat.le_trans ih (step _)

theorem yearOfEra_yearStart : ∀ year, year < 400 →
    yearOfEra (yearStart year) = year ∧ yearOfEra (yearStart (year + 1) - 1) = year := by
  decide +kernel

theorem yearOfEra_lt {day : Nat} (h : day < 146097) : yearOfEra day < 400 := by
  have last : yearOfEra 146096 = 399 := by decide
  have := yearOfEra_mono (Nat.le_of_lt_succ h)
  omega

theorem yearStart_le {day : Nat} (h : day < 146097) : yearStart (yearOfEra day) ≤ day := by
  refine Nat.le_of_not_lt fun early => ?_
  have inEra := yearOfEra_lt h
  have later : 0 < yearOfEra day := by
    refine Nat.pos_of_ne_zero fun zero => ?_
    rw [zero] at early
    exact Nat.not_lt_zero day early
  -- The day is one of the year before, or of an earlier one.
  have before := (yearOfEra_yearStart (yearOfEra day - 1) (by omega)).2
  rw [Nat.sub_add_cancel later] at before
  have := yearOfEra_mono (Nat.le_sub_one_of_lt early)
  omega

theorem lt_yearStart {day : Nat} (h : day < 146097) : day < yearStart (yearOfEra day + 1) := by
  refine Nat.lt_of_not_le fun late => ?_
  have inEra := yearOfEra_lt h
  -- The year after it would begin too early, unless the era ends with it.
  rcases Nat.lt_or_ge (yearOfEra day + 1) 400 with more | last
  · have after := (yearOfEra_yearStart _ more).1
    have := yearOfEra_mono late
    omega
  · have last : yearOfEra day + 1 = 400 := by omega
    rw [last] at late
    exact Nat.not_le.2 h late

theorem isLeapYear_iff (year : Nat) : isLeapYear year = true ↔
    year % 4 = 0 ∧ (year % 100 ≠ 0 ∨ year % 400 = 0) := by
  simp only [isLeapYear, Bool.and_eq_true, Bool.or_eq_true, beq_iff_eq, bne_iff_ne]
  omega

/-- A year is a day longer where it ends with the February of a leap year. -/
theorem yearStart_succ (year : Nat) : yearStart (year + 1) =
    yearStart year + if isLeapYear (year + 1 : Nat) then 366 else 365 := by
  have fours : (year + 1) / 4 = year / 4 + if (year + 1) % 4 = 0 then 1 else 0 := by
    split <;> omega
  have hundreds : (year + 1) / 100 = year / 100 + if (year + 1) % 100 = 0 then 1 else 0 := by
    split <;> omega
  have eras : (year + 1) / 400 = year / 400 + if (year + 1) % 400 = 0 then 1 else 0 := by
    split <;> omega
  have few : year / 100 ≤ year / 4 := by omega
  simp only [yearStart, fours, hundreds, eras, isLeapYear_iff]
  generalize year / 4 = a at few ⊢
  generalize year / 100 = b at few ⊢
  split <;> split <;> split <;> split <;> omega

/-- Each day of an era is a day of one of its years. -/
theorem exists_year {dayOfEra : Nat} (h : dayOfEra < 146097) : ∃ year day, year < 400 ∧
    (day < if isLeapYear (year + 1 : Nat) then 366 else 365) ∧
    dayOfEra = yearStart year + day ∧ yearOfEra dayOfEra = year := by
  have inYear := lt_yearStart h
  rw [yearStart_succ] at inYear
  obtain ⟨day, hday⟩ := Nat.exists_eq_add_of_le (yearStart_le h)
  exact ⟨_, day, yearOfEra_lt h, by omega, hday, rfl⟩

/-! ## Dates -/

namespace Date

/-- The first day of a month, from the first of March. -/
def monthStart (place : Nat) : Nat := (153 * place + 2) / 5

/-- The month in which a day of the year lies. -/
def monthOfYear (day : Nat) : Nat := (5 * day + 2) / 153

theorem monthStart_le (day : Nat) : monthStart (monthOfYear day) ≤ day := by
  simp only [monthStart, monthOfYear]
  omega

theorem lt_monthStart (day : Nat) : day < monthStart (monthOfYear day + 1) := by
  simp only [monthStart, monthOfYear]
  omega

/-- The month that comes so many months after March. -/
def afterMarch (place : Nat) : Nat := if place < 10 then place + 3 else place - 9

/-- The date of a day, by the place of its month after March and the days before it in the month. -/
def ofPlace (year : Int) (place before : Nat) : Date :=
  ⟨year + (if afterMarch place ≤ 2 then 1 else 0), afterMarch place, before + 1⟩

/-- The date of a day of a year, which begins in March. -/
def ofYear (year : Int) (day : Nat) : Date :=
  ofPlace year (monthOfYear day) (day - monthStart (monthOfYear day))

/-- A date is that of a day in a year of an era. -/
theorem ofDays_eq (days : Int) : ∃ (era : Int) (year day : Nat), year < 400 ∧
    (day < if isLeapYear (year + 1 : Nat) then 366 else 365) ∧
    days = era * 146097 + (yearStart year + day : Nat) - 719468 ∧
    ofDays days = ofYear (year + era * 400) day := by
  obtain ⟨dayOfEra, hday⟩ : ∃ n : Nat, (n : Int) = (days + 719468) % 146097 :=
    ⟨((days + 719468) % 146097).toNat, Int.toNat_of_nonneg (Int.emod_nonneg _ (by decide))⟩
  have inEra : dayOfEra < 146097 := by omega
  -- From here on in natural numbers: the day is counted from the first day of its year.
  obtain ⟨year, day, short, inYear, rfl, hyear⟩ := exists_year inEra
  refine ⟨(days + 719468) / 146097, year, day, short, inYear, by omega, ?_⟩
  have dayOfYear : ((yearStart year + day : Nat) : Int) -
      (365 * (year : Int) + (year : Int) / 4 - (year : Int) / 100) = day := by
    simp only [yearStart]
    omega
  have month : ((5 * (day : Int) + 2) / 153).toNat = monthOfYear day := by
    rw [monthOfYear]
    omega
  simp only [ofDays, ← hday, natCast_yearOfEra, hyear, dayOfYear, month, Int.toNat_natCast]
  rfl

variable {year : Int} {place before day : Nat}

/-- Days from 1970 to the first day of a year, which begins in March. -/
def ofYearStart (year : Int) : Int :=
  year / 400 * 146097 + (year % 400 * 365 + year % 400 / 4 - year % 400 / 100) - 719468

theorem toDays_ofPlace (inYear : place < 12) :
    (ofPlace year place before).toDays = ofYearStart year + (monthStart place + before : Nat) := by
  simp only [ofPlace, toDays, ofYearStart, monthStart, afterMarch]
  by_cases early : place < 10
  · have later : ¬place + 3 ≤ 2 := by omega
    have same : (place + 3 + 9) % 12 = place := by omega
    simp only [if_pos early, if_neg later, same, Int.add_zero]
    omega
  · have later : place - 9 ≤ 2 := by omega
    have same : (place - 9 + 9) % 12 = place := by omega
    simp only [if_neg early, if_pos later, same, Int.add_sub_cancel]
    omega

/-- The date of a number of days gives the number back. -/
theorem toDays_ofDays (days : Int) : (ofDays days).toDays = days := by
  obtain ⟨era, year, day, short, inYear, hdays, hdate⟩ := ofDays_eq days
  have inYear : day < 366 := by split at inYear <;> omega
  have place : monthOfYear day < 12 := by
    rw [monthOfYear]
    omega
  rw [hdate, ofYear, toDays_ofPlace place, Nat.add_sub_cancel' (monthStart_le day), hdays]
  have same : ((year : Int) + era * 400) % 400 = year := by omega
  have turn : ((year : Int) + era * 400) / 400 = era := by omega
  simp only [ofYearStart, same, turn, yearStart]
  omega

/-- February is the last month of the year; the others have as many days as lie between their first days. -/
theorem daysInMonth_afterMarch (year : Int) : ∀ place, place < 11 →
    monthStart place + daysInMonth year (afterMarch place) = monthStart (place + 1) := by
  have months : ∀ place, place < 11 → afterMarch place ≠ 2 ∧
      monthStart place + (if afterMarch place = 4 ∨ afterMarch place = 6 ∨ afterMarch place = 9 ∨
        afterMarch place = 11 then 30 else 31) = monthStart (place + 1) := by decide
  intro place inYear
  obtain ⟨other, length⟩ := months place inYear
  simpa [daysInMonth, other, or_assoc] using length

theorem isLeapYear_add_eras (year : Nat) (era : Int) :
    isLeapYear (year + era * 400) = isLeapYear year := by
  have four : ((year : Int) + era * 400) % 4 = year % 4 := by omega
  have hundred : ((year : Int) + era * 400) % 100 = year % 100 := by omega
  have whole : ((year : Int) + era * 400) % 400 = year % 400 := by omega
  rw [isLeapYear, isLeapYear, four, hundred, whole]

/-- The month of a day has a day for it. -/
theorem day_le_daysInMonth {year day : Nat} {era : Int}
    (inYear : day < if isLeapYear (year + 1 : Nat) then 366 else 365) :
    (ofYear (year + era * 400) day).day ≤
      daysInMonth (ofYear (year + era * 400) day).year (ofYear (year + era * 400) day).month := by
  have started := monthStart_le day
  have inMonth := lt_monthStart day
  simp only [ofYear, ofPlace]
  rcases Nat.lt_or_ge (monthOfYear day) 11 with other | last
  · have length := daysInMonth_afterMarch
      (year + era * 400 + if afterMarch (monthOfYear day) ≤ 2 then 1 else 0) _ other
    omega
  · have february : monthOfYear day = 11 := by
      rw [monthOfYear] at last ⊢
      split at inYear <;> omega
    have next : (year : Int) + era * 400 + 1 = ((year + 1 : Nat) : Int) + era * 400 := by omega
    have begun : monthStart 11 = 337 := by decide
    have month : afterMarch 11 = 2 := by decide
    simp only [february, month, begun, Nat.le_refl, if_true, next, daysInMonth,
      isLeapYear_add_eras, beq_self_eq_true]
    split at inYear
    · next leap =>
      rw [if_pos leap]
      omega
    · next common =>
      rw [if_neg common]
      omega

/-- The date of a number of days is one of the calendar, as long as its year is kept. -/
theorem isValid_ofDays {days : Int} (first : firstYear ≤ (ofDays days).year)
    (last : (ofDays days).year ≤ lastYear) : (ofDays days).isValid = true := by
  obtain ⟨era, year, day, short, inYear, -, hdate⟩ := ofDays_eq days
  have place : monthOfYear day < 12 := by
    rw [monthOfYear]
    split at inYear <;> omega
  have month : 1 ≤ (ofDays days).month ∧ (ofDays days).month ≤ 12 := by
    rw [hdate]
    have months : ∀ place, place < 12 → 1 ≤ afterMarch place ∧ afterMarch place ≤ 12 := by decide
    exact months _ place
  have positive : 1 ≤ (ofDays days).day := by
    rw [hdate]
    exact Nat.le_add_left 1 _
  have bounded : (ofDays days).day ≤ daysInMonth (ofDays days).year (ofDays days).month := by
    rw [hdate]
    exact day_le_daysInMonth inYear
  simp [isValid, first, last, month, positive, bounded]

end Date

end Placement.Timestamp
