/-
**The day count of the report cache is the Gregorian calendar.**

The count adds up the years in one loop and the months in another, with the leap day in the second.
For every date from 1970 on it is the number of days since 1970-01-01, so that it grows by one from
each date to the next, and no sum of it leaves its type.

Main definitions:

* `FillingPilot.Machine.daysSinceEpoch` — the count, with the arithmetic of its types;
* `FillingPilot.dayCount` — the count of a date.

Main results:

* `FillingPilot.Machine.daysSinceEpoch_eq` — **no sum overflows**;
* `FillingPilot.dayCount_eq` — **the count is the day number**;
* `FillingPilot.daysSinceEpoch_gregorian` — the count in full, from date to date, and in order.
-/

import FillingPilot.Faults
import FillingPilot.S7Stamp
import Mathlib.Data.List.GetD

set_option relaxedAutoImplicit false
set_option autoImplicit false

namespace FillingPilot

open Gregorian Rust

/-! ### Bounds -/

/-- Years before 1970 count for nothing. -/
theorem daysOfYears_sub (year : ℕ) : daysOfYears (1970 + (year - 1970)) = daysOfYears year := by
  rw [daysOfYears, daysOfYears, Nat.add_sub_cancel_left]

theorem daysOfYears_le (year : ℕ) : daysOfYears year ≤ 366 * (year - 1970) := by
  have hcount := daysOfYears_eq (year - 1970)
  have hleaps : leapYears (year - 1970) ≤ year - 1970 := by
    have hle := List.countP_le_length (p := fun year : ℕ => decide (IsLeap year))
      (l := List.range' 1970 (year - 1970))
    rwa [List.length_range'] at hle
  rw [daysBeforeYear_eq, daysOfYears_sub] at hcount
  omega

theorem daysOfMonths_le (year : ℕ) {month : ℕ} (h : 1 ≤ month ∧ month ≤ 12) :
    daysOfMonths year month ≤ 335 := by
  rw [daysOfMonths_eq year h.2, daysBeforeMonth_eq _ h]
  have htable : ∀ m ≤ 12, commonDaysBefore m ≤ 334 := by decide
  have hle := htable month h.2
  split_ifs <;> omega

theorem daysSinceEpoch_le {year month day days : ℕ}
    (h : daysSinceEpoch year month day = some days) : days ≤ 366 * (year - 1970) + 365 := by
  unfold daysSinceEpoch at h
  split_ifs at h with hrange
  have hyears := daysOfYears_le year
  have hmonths := daysOfMonths_le year (show 1 ≤ month ∧ month ≤ 12 by omega)
  rw [Option.some.injEq] at h
  omega

/-! ### With the arithmetic of its types -/

namespace Machine

/-- `is_leap_year`, of an `i32`. -/
def isLeapYear (year : ℤ) : Bool :=
  (year.tmod 4 == 0 && year.tmod 100 != 0) || year.tmod 400 == 0

section Loops

variable (build : Build)

/-- The loop over the years from 1970 up to, but without, `year`. -/
def addYears (year : ℤ) (total : ℕ) : Faulty ℕ :=
  (List.range (year - 1970).toNat).foldlM (fun (total n : ℕ) =>
    build.unsigned 64 (total + if isLeapYear (1970 + n) then 366 else 365)) total

/-- The loop over the months before `month`. -/
def addMonths (year : ℤ) (month total : ℕ) : Faulty ℕ :=
  (List.range' 1 (month - 1)).foldlM (fun (total m : ℕ) => do
    let days ← Faulty.index daysInMonths m
    let total ← build.unsigned 64 (total + days : ℕ)
    if m = 2 ∧ isLeapYear year then build.unsigned 64 (total + 1 : ℕ) else .ok total) total

/-- `days_since_epoch`: the year is an `i32`, month and day are `u32`s, and the days are counted in
a `u64`. -/
def daysSinceEpoch (year : ℤ) (month day : ℕ) : Faulty (Option ℕ) :=
  if month = 0 ∨ 12 < month ∨ day = 0 ∨ 31 < day then .ok none
  else do
    let total ← addYears build year 0
    let total ← addMonths build year month total
    let before ← build.unsigned 64 (day - 1)
    let total ← build.unsigned 64 (total + before : ℕ)
    return some total

end Loops

theorem isLeapYear_natCast (year : ℕ) : isLeapYear year = FillingPilot.isLeapYear year := by
  rw [Bool.eq_iff_iff]
  simp only [isLeapYear, FillingPilot.isLeapYear, Bool.or_eq_true, Bool.and_eq_true, beq_iff_eq,
    bne_iff_ne, Int.tmod_eq_emod_of_nonneg (Int.natCast_nonneg year)]
  omega

/-- The years that the loop goes over, one by one. -/
theorem sum_years (n : ℕ) :
    ((List.range n).map fun n : ℕ => if isLeapYear (1970 + n) then 366 else 365).sum =
      daysOfYears (1970 + n) := by
  rw [daysOfYears, Nat.add_sub_cancel_left, List.range'_eq_map_range, List.map_map]
  congr 1
  refine List.map_congr_left fun n _ => ?_
  have hyear : ((1970 + n : ℕ) : ℤ) = 1970 + (n : ℤ) := by push_cast; rfl
  rw [Function.comp_apply, ← isLeapYear_natCast, hyear]

variable (build : Build) {year month day : ℕ}

theorem addYears_eq (hyear : year < 2 ^ 31) :
    addYears build year 0 = .ok (daysOfYears year) := by
  have hcount : ((year : ℤ) - 1970).toNat = year - 1970 := by omega
  have hle := daysOfYears_le year
  rw [addYears, hcount, Faulty.foldlM_sum (2 ^ 64)
    (g := fun n : ℕ => if isLeapYear (1970 + n) then 366 else 365), sum_years,
    daysOfYears_sub, Nat.zero_add]
  · intro n _ total hlt
    rw [← build.unsigned_ok hlt]
    push_cast
    rfl
  · rw [sum_years, daysOfYears_sub]
    omega

theorem addMonths_eq (hmonth : 1 ≤ month ∧ month ≤ 12) {total : ℕ} (htotal : total < 2 ^ 63) :
    addMonths build year month total = .ok (total + daysOfMonths year month) := by
  have hle := daysOfMonths_le year hmonth
  unfold daysOfMonths at hle ⊢
  refine Faulty.foldlM_sum (2 ^ 64) (fun m hm total hlt => ?_) (by omega)
  rw [List.mem_range'_1] at hm
  have hinside : m < daysInMonths.length := by
    change m < 13
    omega
  rw [List.getD_eq_getElem _ _ hinside] at hlt ⊢
  rw [Faulty.index_ok hinside, Faulty.ok_bind, build.unsigned_ok (by omega), Faulty.ok_bind,
    isLeapYear_natCast, ← Nat.add_assoc]
  split_ifs with hleap
  · rw [if_pos hleap] at hlt
    exact build.unsigned_ok (by omega)
  · rfl

/-- **No sum overflows**: in every build the count is that of the numbers without bounds, for every
year of an `i32` that is not negative. -/
theorem daysSinceEpoch_eq (hyear : year < 2 ^ 31) :
    daysSinceEpoch build year month day = .ok (FillingPilot.daysSinceEpoch year month day) := by
  unfold daysSinceEpoch FillingPilot.daysSinceEpoch
  split_ifs with hrange
  · rfl
  · have hmonth : 1 ≤ month ∧ month ≤ 12 := by omega
    have hyears := daysOfYears_le year
    have hmonths := daysOfMonths_le year hmonth
    have hbefore : ((day : ℤ) - 1) = (day - 1 : ℕ) := by omega
    rw [addYears_eq build hyear, Faulty.ok_bind, addMonths_eq build hmonth (by omega),
      Faulty.ok_bind, hbefore, build.unsigned_ok (by omega), Faulty.ok_bind,
      build.unsigned_ok (by omega), Faulty.ok_bind]
    rfl

end Machine

/-! ### The calendar -/

/-- The count of a date. -/
def dayCount (date : Date) : Option ℕ := daysSinceEpoch date.year.toNat date.month date.day

/-- **The count is the day number**, from 1970 on. -/
theorem dayCount_eq {date : Date} (h : 1970 ≤ date.year) :
    ∃ days : ℕ, dayCount date = some days ∧ (days : ℤ) = dayNumber date := by
  obtain ⟨days, hdays, hcount⟩ := daysSinceEpoch_eq (show 1970 ≤ date.year.toNat by omega)
    date.month_mem ⟨date.day_mem.1, date.day_le⟩
  have hyear : (date.year.toNat : ℤ) = date.year := Int.toNat_of_nonneg (by omega)
  rw [hyear] at hcount
  exact ⟨days, hdays, hcount⟩

/-- The count in full: the years, the leap days, the months and the days. -/
theorem daysSinceEpoch_date {date : Date} (h : 1970 ≤ date.year) :
    daysSinceEpoch date.year.toNat date.month date.day =
      some (365 * (date.year.toNat - 1970) + leapYears (date.year.toNat - 1970) +
        daysBeforeMonth date.year date.month + (date.day - 1)) := by
  obtain ⟨days, hdays, hcount⟩ := dayCount_eq h
  have hyear : date.year = (1970 + (date.year.toNat - 1970) : ℕ) := by omega
  have hday := date.day_mem.1
  rw [dayNumber, hyear, daysBeforeYear_eq, ← hyear] at hcount
  refine hdays.trans (congrArg some ?_)
  omega

theorem dayCount_next {date : Date} (h : 1970 ≤ date.year) :
    ∃ days, dayCount date = some days ∧ dayCount date.next = some (days + 1) := by
  have hnext : 1970 ≤ date.next.year := by
    have hlt := date.covBy_next.1
    rw [Date.lt_def] at hlt
    omega
  obtain ⟨days, hdays, hcount⟩ := dayCount_eq h
  obtain ⟨days', hdays', hcount'⟩ := dayCount_eq hnext
  rw [dayNumber_next, ← hcount] at hcount'
  refine ⟨days, hdays, hdays'.trans (congrArg some ?_)⟩
  omega

theorem dayCount_lt {date date' : Date} (h : 1970 ≤ date.year) (hlt : date < date') :
    ∃ days days', dayCount date = some days ∧ dayCount date' = some days' ∧ days < days' := by
  have hlate : 1970 ≤ date'.year := by
    rw [Date.lt_def] at hlt
    omega
  obtain ⟨days, hdays, hcount⟩ := dayCount_eq h
  obtain ⟨days', hdays', hcount'⟩ := dayCount_eq hlate
  have hgrows := dayNumber_lt hlt
  exact ⟨days, days', hdays, hdays', by omega⟩

/-- **The day count is the Gregorian calendar**: for every date from 1970 on it is 365 days for each
year, a day for each leap year, the lengths of the months before and the days before in the month;
it is the same with the arithmetic of its types; and so it grows by one from each date to the next,
and with the date. -/
theorem daysSinceEpoch_gregorian :
    (∀ date : Date, 1970 ≤ date.year →
      daysSinceEpoch date.year.toNat date.month date.day =
        some (365 * (date.year.toNat - 1970) + leapYears (date.year.toNat - 1970) +
          daysBeforeMonth date.year date.month + (date.day - 1))) ∧
      (∀ (build : Build) (date : Date), 1970 ≤ date.year → date.year < 2 ^ 31 →
        Machine.daysSinceEpoch build date.year date.month date.day = .ok (dayCount date)) ∧
      (∀ date : Date, 1970 ≤ date.year →
        ∃ days, dayCount date = some days ∧ dayCount date.next = some (days + 1)) ∧
      ∀ date date' : Date, 1970 ≤ date.year → date < date' →
        ∃ days days', dayCount date = some days ∧ dayCount date' = some days' ∧ days < days' := by
  refine ⟨fun _ h => daysSinceEpoch_date h, fun build date h hlt => ?_, fun _ h => dayCount_next h,
    fun _ _ h hlt => dayCount_lt h hlt⟩
  have hyear : date.year = date.year.toNat := by omega
  rw [dayCount, hyear, Int.toNat_natCast]
  exact Machine.daysSinceEpoch_eq build (by omega)

end FillingPilot
