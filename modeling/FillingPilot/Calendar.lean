/-
The proleptic Gregorian calendar: dates, times of day, and the seconds since 1970-01-01T00:00:00.

A date and a time of day carry the proof that they exist.  The days before a year have a closed form
by the rule of 4, 100 and 400 years, and the days before a month are the lengths of the months.

Main definitions:

* `Gregorian.IsLeap`, `Gregorian.monthLength` — leap years and months;
* `Gregorian.Date`, `Gregorian.TimeOfDay` — dates, in their order, and times of day;
* `Gregorian.Date.next` — the next date;
* `Gregorian.dayNumber`, `Gregorian.epochSeconds` — the days and the seconds since 1970.

Main results:

* `Gregorian.daysBeforeYear_succ` — a year has 365 days, or 366 when it is a leap year;
* `Gregorian.daysBeforeYear_eq` — the days before a year, by its leap years one by one;
* `Gregorian.daysBeforeMonth_eq` — the days before a month, by the table of a common year;
* `Gregorian.daysBeforeYear_le` — **the days grow with the year**;
* `Gregorian.Date.covBy_next`, `Gregorian.dayNumber_next`, `Gregorian.dayNumber_lt` — **the days
  grow with the date**, by one from each date to the next.
-/

import Mathlib.Data.Int.Notation
import Mathlib.Order.Cover
import Mathlib.Tactic.IntervalCases

set_option relaxedAutoImplicit false
set_option autoImplicit false

namespace Gregorian

/-! ### Years -/

/-- The leap years. -/
def IsLeap (year : ℤ) : Prop := ((4 : ℤ) ∣ year ∧ ¬ (100 : ℤ) ∣ year) ∨ (400 : ℤ) ∣ year

instance (year : ℤ) : Decidable (IsLeap year) := by
  unfold IsLeap
  infer_instance

/-- The leap years up to a year, counted from the year 1 on. -/
def leapsUpTo (year : ℤ) : ℤ := year / 4 - year / 100 + year / 400

/-- The days from 1970-01-01 to the first day of a year. -/
def daysBeforeYear (year : ℤ) : ℤ :=
  365 * (year - 1970) + (leapsUpTo (year - 1) - leapsUpTo 1969)

theorem daysBeforeYear_epoch : daysBeforeYear 1970 = 0 := by decide

theorem daysBeforeYear_succ (year : ℤ) :
    daysBeforeYear (year + 1) = daysBeforeYear year + if IsLeap year then 366 else 365 := by
  unfold daysBeforeYear leapsUpTo
  have hyear : year + 1 - 1 = year := by omega
  rw [hyear]
  split_ifs with hleap
  · unfold IsLeap at hleap
    omega
  · unfold IsLeap at hleap
    omega

theorem daysBeforeYear_le {year year' : ℤ} (h : year ≤ year') :
    daysBeforeYear year + 365 * (year' - year) ≤ daysBeforeYear year' := by
  unfold daysBeforeYear leapsUpTo
  omega

/-- The number of leap years among `n` years from 1970 on. -/
def leapYears (n : ℕ) : ℕ := (List.range' 1970 n).countP fun year : ℕ => IsLeap year

theorem daysBeforeYear_eq (n : ℕ) :
    daysBeforeYear (1970 + n : ℕ) = 365 * n + leapYears n := by
  induction n with
  | zero => rfl
  | succ n ih =>
      have hyear : ((1970 + (n + 1) : ℕ) : ℤ) = ((1970 + n : ℕ) : ℤ) + 1 := by omega
      have hcount : leapYears (n + 1) =
          leapYears n + if IsLeap ((1970 + n : ℕ) : ℤ) then 1 else 0 := by
        rw [leapYears, List.range'_concat, List.countP_append, List.countP_singleton]
        simp [leapYears]
      rw [hyear, daysBeforeYear_succ, ih, hcount]
      split_ifs <;> omega

/-! ### Months -/

/-- The length of a month. -/
def monthLength (year : ℤ) (month : ℕ) : ℕ :=
  if month = 2 then if IsLeap year then 29 else 28
  else if month = 4 ∨ month = 6 ∨ month = 9 ∨ month = 11 then 30
  else 31

theorem monthLength_le (year : ℤ) (month : ℕ) : monthLength year month ≤ 31 := by
  unfold monthLength
  split_ifs <;> omega

theorem one_le_monthLength (year : ℤ) (month : ℕ) : 1 ≤ monthLength year month := by
  unfold monthLength
  split_ifs <;> omega

/-- The days from the first day of a year to the first day of a month. -/
def daysBeforeMonth (year : ℤ) (month : ℕ) : ℕ :=
  ((List.range' 1 (month - 1)).map (monthLength year)).sum

/-- The days before the months of a common year. -/
def commonDaysBefore (month : ℕ) : ℕ :=
  [0, 31, 59, 90, 120, 151, 181, 212, 243, 273, 304, 334].getD (month - 1) 0

/-- The days before a month, by the table of a common year. -/
theorem daysBeforeMonth_eq (year : ℤ) {month : ℕ} (h : 1 ≤ month ∧ month ≤ 12) :
    daysBeforeMonth year month =
      commonDaysBefore month + if 2 < month ∧ IsLeap year then 1 else 0 := by
  obtain ⟨hlow, hhigh⟩ := h
  by_cases hleap : IsLeap year
  · interval_cases month <;>
      simp [daysBeforeMonth, commonDaysBefore, monthLength, List.range', hleap]
  · interval_cases month <;>
      simp [daysBeforeMonth, commonDaysBefore, monthLength, List.range', hleap]

/-- The year makes at most one day of difference to the days before a month. -/
theorem daysBeforeMonth_le_succ (year year' : ℤ) {month : ℕ} (h : 1 ≤ month ∧ month ≤ 12) :
    daysBeforeMonth year month ≤ daysBeforeMonth year' month + 1 := by
  rw [daysBeforeMonth_eq year h, daysBeforeMonth_eq year' h]
  split_ifs <;> omega

theorem daysBeforeMonth_succ (year : ℤ) {month : ℕ} (h : 1 ≤ month) :
    daysBeforeMonth year (month + 1) = daysBeforeMonth year month + monthLength year month := by
  obtain ⟨m, rfl⟩ := Nat.exists_eq_add_of_le h
  have hlen : 1 + m + 1 - 1 = m + 1 := by omega
  rw [daysBeforeMonth, daysBeforeMonth, hlen, Nat.add_sub_cancel_left, List.range'_concat,
    List.map_append, List.sum_append]
  simp

theorem daysBeforeMonth_le (year : ℤ) {month month' : ℕ} (h : 1 ≤ month) (hlt : month < month') :
    daysBeforeMonth year month + monthLength year month ≤ daysBeforeMonth year month' := by
  rw [← daysBeforeMonth_succ year h]
  induction month', hlt using Nat.le_induction with
  | base => exact le_rfl
  | succ n hle ih =>
      have hnext := daysBeforeMonth_succ year (show 1 ≤ n by omega)
      omega

/-- The months fill the year. -/
theorem daysBeforeMonth_last (year : ℤ) :
    daysBeforeYear (year + 1) = daysBeforeYear year + (daysBeforeMonth year 12 + 31 : ℕ) := by
  rw [daysBeforeYear_succ, daysBeforeMonth_eq year (by decide)]
  split_ifs <;> simp_all [commonDaysBefore]

/-! ### Dates and times -/

/-- A date that exists. -/
structure Date where
  year : ℤ
  month : ℕ
  day : ℕ
  month_mem : 1 ≤ month ∧ month ≤ 12
  day_mem : 1 ≤ day ∧ day ≤ monthLength year month

/-- A time of day, to the second. -/
structure TimeOfDay where
  hour : ℕ
  minute : ℕ
  second : ℕ
  hour_lt : hour < 24
  minute_lt : minute < 60
  second_lt : second < 60

/-- The days from 1970-01-01 to a date. -/
def dayNumber (date : Date) : ℤ :=
  daysBeforeYear date.year + daysBeforeMonth date.year date.month + (date.day - 1)

/-- The seconds since midnight. -/
def secondOfDay (time : TimeOfDay) : ℕ := time.hour * 3600 + time.minute * 60 + time.second

/-- The seconds from 1970-01-01T00:00:00 to a date and time, without leap seconds. -/
def epochSeconds (date : Date) (time : TimeOfDay) : ℤ :=
  dayNumber date * 86400 + secondOfDay time

theorem Date.day_le (date : Date) : date.day ≤ 31 :=
  date.day_mem.2.trans (monthLength_le _ _)

/-! ### The order of dates -/

/-- One date is before another. -/
instance : LT Date where
  lt date date' := date.year < date'.year ∨ date.year = date'.year ∧
    (date.month < date'.month ∨ date.month = date'.month ∧ date.day < date'.day)

theorem Date.lt_def {date date' : Date} :
    date < date' ↔ date.year < date'.year ∨ date.year = date'.year ∧
      (date.month < date'.month ∨ date.month = date'.month ∧ date.day < date'.day) := Iff.rfl

theorem january_mem : 1 ≤ 1 ∧ 1 ≤ 12 := ⟨le_rfl, by decide⟩

/-- The next date: the next day, or the first day of the next month or year. -/
def Date.next (date : Date) : Date :=
  if hday : date.day < monthLength date.year date.month then
    ⟨date.year, date.month, date.day + 1, date.month_mem, by omega, hday⟩
  else if hmonth : date.month < 12 then
    ⟨date.year, date.month + 1, 1, by omega, le_rfl, one_le_monthLength _ _⟩
  else ⟨date.year + 1, 1, 1, january_mem, le_rfl, one_le_monthLength _ _⟩

/-- There is no date between a date and the next. -/
theorem Date.covBy_next (date : Date) : date ⋖ date.next := by
  unfold next
  have hmonth := date.month_mem
  constructor
  · split_ifs <;> rw [lt_def] <;> dsimp only <;> omega
  · intro between hafter hbefore
    have hmonth' := between.month_mem
    have hday' := between.day_mem
    rw [lt_def] at hafter
    split_ifs at hbefore with hday hlast
    · rw [lt_def] at hbefore
      dsimp only at hbefore
      omega
    · rw [lt_def] at hbefore
      dsimp only at hbefore
      have hsame : between.year = date.year ∧ between.month = date.month := by omega
      rw [hsame.1, hsame.2] at hday'
      omega
    · rw [lt_def] at hbefore
      dsimp only at hbefore
      have hsame : between.year = date.year ∧ between.month = date.month := by omega
      rw [hsame.1, hsame.2] at hday'
      omega

theorem dayNumber_next (date : Date) : dayNumber date.next = dayNumber date + 1 := by
  have hmonth := date.month_mem
  have hday := date.day_mem
  unfold dayNumber Date.next
  split_ifs with hinside hlast
  · dsimp only
    omega
  · have hnext := daysBeforeMonth_succ date.year hmonth.1
    dsimp only
    omega
  · have hyear := daysBeforeMonth_last date.year
    have hdecember : date.month = 12 := by omega
    have hlength : monthLength date.year 12 = 31 := rfl
    have hfirst : daysBeforeMonth (date.year + 1) 1 = 0 := rfl
    rw [hdecember] at hday hinside ⊢
    dsimp only
    omega

theorem daysBeforeMonth_add_day_le (date : Date) :
    daysBeforeMonth date.year date.month + date.day ≤ daysBeforeMonth date.year 12 + 31 := by
  have hmonth := date.month_mem
  have hday := date.day_mem
  rcases Nat.lt_or_eq_of_le hmonth.2 with hlt | heq
  · have hle := daysBeforeMonth_le date.year hmonth.1 hlt
    omega
  · have hle := date.day_le
    rw [heq]
    omega

/-- **The days grow with the date.** -/
theorem dayNumber_lt {date date' : Date} (h : date < date') : dayNumber date < dayNumber date' := by
  have hday := date.day_mem
  have hday' := date'.day_mem
  unfold dayNumber
  rcases h with hyear | ⟨hyear, hmonth | ⟨hmonth, hlt⟩⟩
  · -- the year of the first date has ended
    have hyears := daysBeforeYear_le (Int.add_one_le_of_lt hyear)
    have hlast := daysBeforeMonth_last date.year
    have hinside := daysBeforeMonth_add_day_le date
    omega
  · have hmonths := daysBeforeMonth_le date.year date.month_mem.1 hmonth
    rw [← hyear]
    omega
  · rw [← hyear, ← hmonth]
    omega

end Gregorian
