import LaneBus.Timestamp.Epoch
import Mathlib.Data.Nat.Init
import Mathlib.Tactic.SplitIfs

/-! # What a clock shows

A clock counts nanoseconds, and shows the time of day that is left of them after whole days
(`Timestamp.ofNanoseconds_timeOfDay`).  The date is computed from the number of those days at
once, and it is that of the calendar: from one day to the next it goes as the months and the leap
years have it (`Timestamp.civilDate_succ`).  So a clock shows valid times
(`Timestamp.ofNanoseconds_valid`), and a day later the same time on the next day
(`Timestamp.nextDay?_ofNanoseconds`).

In between, days are counted in years that start in March, whose last month is the one that may
have a leap day.
-/
namespace LaneBus
namespace Timestamp

/-! ## Years that start in March -/

/-- The days of the years before a year, from the first of March of the year 0 on. -/
def daysBefore (year : Nat) : Nat := 365 * year + year / 4 - year / 100 + year / 400

/-- The days of a year that starts in March: the leap day is that of the next year's February. -/
def daysOfYear (year : Nat) : Nat := if isLeap (year + 1 : Nat) then 366 else 365

theorem daysOfYear_le (year : Nat) : 365 ≤ daysOfYear year ∧ daysOfYear year ≤ 366 := by
  unfold daysOfYear
  split <;> omega

theorem isLeap_iff (year : Nat) :
    isLeap year = true ↔ year % 4 = 0 ∧ (year % 100 ≠ 0 ∨ year % 400 = 0) := by
  simp only [isLeap, Bool.and_eq_true, Bool.or_eq_true, beq_iff_eq, bne_iff_ne]
  omega

theorem daysBefore_succ (year : Nat) :
    daysBefore (year + 1) = daysBefore year + daysOfYear year := by
  have hcentury : year / 100 ≤ 365 * year := by omega
  have hleap : daysOfYear year + (if 100 ∣ year + 1 then 1 else 0) =
      365 + (if 4 ∣ year + 1 then 1 else 0) + (if 400 ∣ year + 1 then 1 else 0) := by
    unfold daysOfYear
    simp only [isLeap_iff, Nat.dvd_iff_mod_eq_zero]
    split_ifs <;> omega
  have hone : (if 100 ∣ year + 1 then 1 else 0) ≤ 1 := by split <;> omega
  unfold daysBefore
  rw [Nat.succ_div, Nat.succ_div, Nat.succ_div]
  omega

/-- Every 400 years have the same length. -/
theorem daysBefore_era (era year : Nat) :
    daysBefore (era * 400 + year) = era * daysInEra + daysBefore year := by
  unfold daysBefore daysInEra
  omega

theorem yearOfDay_mono {day day' : Nat} (h : day ≤ day') (hera : day' < daysInEra) :
    yearOfDay day ≤ yearOfDay day' := by
  induction day', h using Nat.le_induction with
  | base => exact Nat.le_refl _
  | succ day' _ ih =>
    refine Nat.le_trans (ih (Nat.lt_of_succ_lt hera)) ?_
    unfold daysInEra at hera
    unfold yearOfDay
    omega

theorem yearOfDay_ends : ∀ year < 400, yearOfDay (daysBefore year) = year ∧
    yearOfDay (daysBefore (year + 1) - 1) = year := by
  decide +kernel

theorem daysBefore_le : ∀ year < 400, daysBefore (year + 1) ≤ daysInEra := by
  decide +kernel

/-- The year of a day of an era lies around it. -/
theorem yearOfDay_eq {year day : Nat} (hyear : year < 400) (hlow : daysBefore year ≤ day)
    (hhigh : day < daysBefore (year + 1)) : yearOfDay day = year := by
  obtain ⟨hfirst, hlast⟩ := yearOfDay_ends year hyear
  have hera : daysBefore (year + 1) - 1 < daysInEra :=
    Nat.lt_of_lt_of_le (Nat.sub_one_lt (Nat.ne_zero_of_lt hhigh)) (daysBefore_le year hyear)
  have hbelow := yearOfDay_mono hlow (Nat.lt_of_le_of_lt (Nat.le_sub_one_of_lt hhigh) hera)
  have habove := yearOfDay_mono (Nat.le_sub_one_of_lt hhigh) hera
  rw [hfirst] at hbelow
  rw [hlast] at habove
  exact Nat.le_antisymm habove hbelow

/-! ## Months -/

/-- The month of a day of a year that starts in March. -/
def monthOf (dayOfYear : Nat) : Nat :=
  let fromMarch := (5 * dayOfYear + 2) / 153
  if fromMarch < 10 then fromMarch + 3 else fromMarch - 9

/-- The day of the month of a day of a year that starts in March. -/
def dayOf (dayOfYear : Nat) : Nat := dayOfYear - (153 * ((5 * dayOfYear + 2) / 153) + 2) / 5 + 1

/-- The date of a day of a year that starts in March. -/
def dateOf (year dayOfYear : Nat) : Nat × Nat × Nat :=
  (year + (if monthOf dayOfYear ≤ 2 then 1 else 0), monthOf dayOfYear, dayOf dayOfYear)

/-- **The date of a day** is that of its day in its year. -/
theorem civilDate_eq {year dayOfYear : Nat} (h : dayOfYear < daysOfYear year) :
    civilDate (daysBefore year + dayOfYear) = dateOf year dayOfYear := by
  have hyear : year % 400 < 400 := Nat.mod_lt _ (by omega)
  have hparts : year / 400 * 400 + year % 400 = year := Nat.div_add_mod' year 400
  have hbefore := daysBefore_era (year / 400) (year % 400)
  have hafter := daysBefore_era (year / 400) (year % 400 + 1)
  rw [← Nat.add_assoc, hparts, daysBefore_succ] at hafter
  rw [hparts] at hbefore
  have hlast := daysBefore_le (year % 400) hyear
  have hday : daysBefore (year % 400) + dayOfYear < daysInEra := by omega
  have hdays : daysBefore year + dayOfYear =
      daysBefore (year % 400) + dayOfYear + year / 400 * daysInEra := by
    omega
  have hsame : yearOfDay (daysBefore (year % 400) + dayOfYear) = year % 400 :=
    yearOfDay_eq hyear (Nat.le_add_right ..) (by omega)
  have hinEra : daysBefore (year % 400) =
      365 * (year % 400) + year % 400 / 4 - year % 400 / 100 := by
    rw [daysBefore, Nat.div_eq_of_lt hyear, Nat.add_zero]
  unfold civilDate
  rw [hdays, Nat.add_mul_mod_self_right, Nat.add_mul_div_right _ _ (by decide),
    Nat.mod_eq_of_lt hday, Nat.div_eq_of_lt hday, Nat.zero_add]
  dsimp only
  rw [hsame, ← hinEra, Nat.add_sub_cancel_left, hparts]
  rfl

/-- Every day lies in a year. -/
theorem exists_dayOfYear (days : Nat) :
    ∃ year dayOfYear, dayOfYear < daysOfYear year ∧ days = daysBefore year + dayOfYear := by
  induction days with
  | zero => exact ⟨0, 0, by decide, rfl⟩
  | succ days ih =>
    obtain ⟨year, dayOfYear, hday, rfl⟩ := ih
    by_cases hlast : dayOfYear + 1 < daysOfYear year
    · exact ⟨year, dayOfYear + 1, hlast, rfl⟩
    · have hlength := daysOfYear_le (year + 1)
      exact ⟨year + 1, 0, by omega, by rw [daysBefore_succ]; omega⟩

/-- The last month is February. -/
theorem monthOf_eq_two : ∀ day < 366,
    (monthOf day = 2 ↔ 337 ≤ day) ∧ (monthOf day = 2 → dayOf day + 336 = day) := by
  decide +kernel

/-- From one day to the next, in a leap year. -/
theorem dateOf_succ : ∀ day < 365,
    (monthOf (day + 1), dayOf (day + 1)) =
      if dayOf day < daysIn 0 (monthOf day) then (monthOf day, dayOf day + 1)
      else if monthOf day < 12 then (monthOf day + 1, 1) else (1, 1) := by
  decide +kernel

theorem daysIn_of_ne {month : Nat} (h : month ≠ 2) (year : Int) :
    daysIn year month = daysIn 0 month := by
  rw [daysIn, daysIn, if_neg h, if_neg h]

/-- A year that starts in March ends with the February of the next year. -/
theorem daysIn_february (year : Nat) : daysIn (year + 1 : Nat) 2 + 337 = daysOfYear year := by
  rw [daysIn, if_pos rfl, daysOfYear]
  split <;> rfl

/-! ## The calendar -/

/-- The date after a date: year, month and day. -/
def nextDate : Nat × Nat × Nat → Nat × Nat × Nat
  | (year, month, day) =>
    if day < daysIn year month then (year, month, day + 1)
    else if month < 12 then (year, month + 1, 1)
    else (year + 1, 1, 1)

/-- A year that starts in March ends with the last of February. -/
theorem nextDate_yearEnd {year day : Nat} (hday : day + 1 = daysOfYear year) :
    nextDate (dateOf year day) = dateOf (year + 1) 0 := by
  have hlength := daysOfYear_le year
  obtain ⟨hmonth, hfebruary⟩ := monthOf_eq_two day (by omega)
  have htwo := hmonth.mpr (by omega)
  have hdate : dateOf year day = (year + 1, 2, dayOf day) := by rw [dateOf, htwo]; rfl
  have hend : ¬dayOf day < daysIn (year + 1 : Nat) 2 := by
    have := hfebruary htwo
    have := daysIn_february year
    omega
  rw [hdate, nextDate, if_neg hend]
  rfl

/-- A day before the last one of a year is followed by one of its month just when it would be in a
leap year. -/
theorem lt_daysIn_iff {year day : Nat} (hday : day + 1 < daysOfYear year) :
    dayOf day < daysIn (dateOf year day).1 (monthOf day) ↔
      dayOf day < daysIn 0 (monthOf day) := by
  by_cases htwo : monthOf day = 2
  · have hlength := daysOfYear_le year
    obtain ⟨-, hfebruary⟩ := monthOf_eq_two day (by omega)
    have hyear : (dateOf year day).1 = year + 1 := by rw [dateOf, htwo]; rfl
    have hleap : daysIn 0 2 = 29 := rfl
    have hend := hfebruary htwo
    have hthis := daysIn_february year
    rw [hyear, htwo, hleap]
    omega
  · rw [daysIn_of_ne htwo]

/-- Any other day is followed by one of the same year. -/
theorem nextDate_within {year day : Nat} (hday : day + 1 < daysOfYear year) :
    nextDate (dateOf year day) = dateOf year (day + 1) := by
  have hlength := daysOfYear_le year
  have hsucc := dateOf_succ day (by omega)
  obtain ⟨-, hfebruary⟩ := monthOf_eq_two day (by omega)
  have hmore := lt_daysIn_iff hday
  unfold nextDate
  rw [dateOf] at hmore ⊢
  dsimp only at hmore ⊢
  simp only [hmore]
  split
  · rename_i hin
    rw [if_pos hin] at hsucc
    obtain ⟨hmonth, hdate⟩ := Prod.mk.inj hsucc
    rw [dateOf, hmonth, hdate]
  · rename_i hin
    have htwo : monthOf day ≠ 2 := by
      intro htwo
      have hleap : daysIn 0 2 = 29 := rfl
      have := hfebruary htwo
      rw [htwo, hleap] at hin
      omega
    rw [if_neg hin] at hsucc
    split
    · rename_i htwelve
      rw [if_pos htwelve] at hsucc
      obtain ⟨hmonth, hdate⟩ := Prod.mk.inj hsucc
      have hsame : monthOf day ≤ 2 ↔ monthOf day + 1 ≤ 2 := by omega
      rw [dateOf, hmonth, hdate]
      simp only [hsame]
    · rename_i htwelve
      rw [if_neg htwelve] at hsucc
      obtain ⟨hmonth, hdate⟩ := Prod.mk.inj hsucc
      rw [dateOf, hmonth, hdate, if_neg (by omega)]
      rfl

/-- **Days are counted on by the calendar.** -/
theorem civilDate_succ (days : Nat) : civilDate (days + 1) = nextDate (civilDate days) := by
  obtain ⟨year, day, hday, rfl⟩ := exists_dayOfYear days
  rw [civilDate_eq hday]
  by_cases hmore : day + 1 < daysOfYear year
  · rw [nextDate_within hmore, Nat.add_assoc, civilDate_eq hmore]
  · have hlast : day + 1 = daysOfYear year := by omega
    have hlength := daysOfYear_le (year + 1)
    have hdate := civilDate_eq (show 0 < daysOfYear (year + 1) by omega)
    rw [Nat.add_zero] at hdate
    rw [nextDate_yearEnd hlast, Nat.add_assoc, hlast, ← daysBefore_succ, hdate]

/-- A date that the calendar has. -/
def IsDate (date : Nat × Nat × Nat) : Prop :=
  1 ≤ date.2.1 ∧ date.2.1 ≤ 12 ∧ 1 ≤ date.2.2 ∧ date.2.2 ≤ daysIn date.1 date.2.1

theorem daysIn_pos (year : Int) (month : Nat) : 1 ≤ daysIn year month := by
  unfold daysIn
  split
  · split <;> decide
  · split <;> decide

theorem IsDate.next {date : Nat × Nat × Nat} (h : IsDate date) : IsDate (nextDate date) := by
  obtain ⟨year, month, day⟩ := date
  obtain ⟨hmonth, hmonths, hday, -⟩ := h
  rw [nextDate]
  split
  · rename_i hmore
    exact ⟨hmonth, hmonths, Nat.le_add_left 1 day, hmore⟩
  · split
    · rename_i hmore
      exact ⟨Nat.le_add_left 1 month, hmore, Nat.le_refl 1, daysIn_pos ..⟩
    · exact ⟨Nat.le_refl 1, show 1 ≤ 12 by decide, Nat.le_refl 1, daysIn_pos ..⟩

theorem civilDate_isDate (days : Nat) : IsDate (civilDate days) := by
  induction days with
  | zero => exact ⟨by decide, by decide, by decide, by decide⟩
  | succ days ih =>
    rw [civilDate_succ]
    exact ih.next

/-! ## The clock -/

/-- The nanoseconds of a day. -/
def nanosecondsInDay : Nat := 86400 * 1000000000

/-- **A clock shows valid times**, as long as it shows supported years. -/
theorem ofNanoseconds_valid {n : Nat} (h : (ofNanoseconds n).year ≤ maxYear) :
    (ofNanoseconds n).Valid := by
  have hdate := civilDate_isDate (n / 1000000000 / 86400 + daysToEpoch)
  have hofDay : n / 1000000000 % 86400 < 86400 := Nat.mod_lt _ (by decide)
  unfold ofNanoseconds at h ⊢
  dsimp only at h ⊢
  generalize civilDate (n / 1000000000 / 86400 + daysToEpoch) = date at h hdate ⊢
  generalize n / 1000000000 % 86400 = ofDay at hofDay ⊢
  obtain ⟨year, month, day⟩ := date
  obtain ⟨hmonth, hmonths, hday, hdays⟩ := hdate
  have hyear : minYear ≤ (year : Int) := Int.le_trans (by decide) (Int.natCast_nonneg year)
  exact ⟨hyear, h, hmonth, hmonths, hday, hdays, show ofDay / 3600 ≤ 23 by omega,
    show ofDay / 60 % 60 ≤ 59 by omega, show ofDay % 60 ≤ 60 by omega, Nat.mod_lt _ (by decide)⟩

/-- What is left of a number of nanoseconds after whole days is the time of day. -/
theorem ofNanoseconds_timeOfDay (n : Nat) :
    (((ofNanoseconds n).hour * 60 + (ofNanoseconds n).minute) * 60 + (ofNanoseconds n).second) *
      1000000000 + (ofNanoseconds n).nano = n % nanosecondsInDay := by
  show ((n / 1000000000 % 86400 / 3600 * 60 + n / 1000000000 % 86400 / 60 % 60) * 60 +
    n / 1000000000 % 86400 % 60) * 1000000000 + n % 1000000000 = n % (86400 * 1000000000)
  omega

/-- **A day later it is the same time on the next day.** -/
theorem nextDay?_ofNanoseconds {n : Nat} (h : (ofNanoseconds n).year < maxYear) :
    (ofNanoseconds n).nextDay? = some (ofNanoseconds (n + nanosecondsInDay)) := by
  have hseconds : (n + nanosecondsInDay) / 1000000000 = n / 1000000000 + 86400 := by
    unfold nanosecondsInDay
    omega
  have hnano : (n + nanosecondsInDay) % 1000000000 = n % 1000000000 := by
    unfold nanosecondsInDay
    omega
  have hdays : (n / 1000000000 + 86400) / 86400 + daysToEpoch =
      n / 1000000000 / 86400 + daysToEpoch + 1 := by
    omega
  unfold ofNanoseconds at h ⊢
  dsimp only at h ⊢
  rw [hseconds, hnano, Nat.add_mod_right, hdays, civilDate_succ]
  generalize civilDate (n / 1000000000 / 86400 + daysToEpoch) = date at h ⊢
  obtain ⟨year, month, day⟩ := date
  dsimp only at h
  unfold nextDay? nextDate
  dsimp only
  split
  · rfl
  · split
    · rfl
    · rfl

example : ofNanoseconds 0 = ⟨1970, 1, 1, 0, 0, 0, 0⟩ := by decide
example : ofNanoseconds 951782400000000001 = ⟨2000, 2, 29, 0, 0, 0, 1⟩ := by decide
example : (ofNanoseconds 1709251199000000000).nextDay? = some ⟨2024, 3, 1, 23, 59, 59, 0⟩ := by
  decide

end Timestamp
end LaneBus
