/-
The S7 `DateAndTime` stamps inside a report block.

A stamp is eight bytes, the first six of them year, month, day, hour, minute and second in BCD.
The report cache turns a stamp into epoch milliseconds with a day count of its own; the two
millisecond bytes and the ranges of hour, minute and second are not looked at.

Main definitions:

* `FillingPilot.bcdToU8` — the number of a BCD byte;
* `FillingPilot.daysSinceEpoch` — the days from 1970-01-01 to a date;
* `FillingPilot.extractS7Datetime` — the epoch milliseconds of the stamp at an offset.

Main results:

* `FillingPilot.extractS7Datetime_isSome` — **a stamp is read exactly when** its eight bytes are
  there and its month and day bytes are in range.
-/

import Mathlib.Data.List.Basic
import Mathlib.Algebra.Order.Ring.Int
import Mathlib.Tactic.Common

set_option relaxedAutoImplicit false
set_option autoImplicit false

namespace FillingPilot

/-- The number of a BCD byte; a byte that is not BCD gives up to 165. -/
def bcdToU8 (bcd : UInt8) : ℕ := bcd.toNat / 16 * 10 + bcd.toNat % 16

def isLeapYear (year : ℕ) : Bool :=
  (year % 4 == 0 && year % 100 != 0) || year % 400 == 0

/-- The table of month lengths, January at index 1. -/
def daysInMonths : List ℕ := [0, 31, 28, 31, 30, 31, 30, 31, 31, 30, 31, 30, 31]

/-- The days of the years from 1970 up to, but without, `year`. -/
def daysOfYears (year : ℕ) : ℕ :=
  ((List.range' 1970 (year - 1970)).map fun y => if isLeapYear y then 366 else 365).sum

/-- The days of the months of `year` before `month`. -/
def daysOfMonths (year month : ℕ) : ℕ :=
  ((List.range' 1 (month - 1)).map fun m =>
    daysInMonths.getD m 0 + if m = 2 ∧ isLeapYear year then 1 else 0).sum

/-- The days from 1970-01-01 to a date, with a month from 1 to 12 and a day from 1 to 31. -/
def daysSinceEpoch (year month day : ℕ) : Option ℕ :=
  if month = 0 ∨ 12 < month ∨ day = 0 ∨ 31 < day then none
  else some (daysOfYears year + daysOfMonths year month + (day - 1))

/-- The epoch milliseconds of the stamp at `offset`. -/
def extractS7Datetime (data : List UInt8) (offset : ℕ) : Option ℤ :=
  if data.length < offset + 8 then none
  else
    let field (i : ℕ) : ℕ := bcdToU8 (data.getD (offset + i) 0)
    (daysSinceEpoch (field 0 + 2000) (field 1) (field 2)).map fun days =>
      ((days * 86400 + field 3 * 3600 + field 4 * 60 + field 5) * 1000 : ℕ)

/-- The earliest start time a report may have, 2000-01-01. -/
def year2000 : ℤ := 946684800000

theorem daysSinceEpoch_isSome (year month day : ℕ) :
    (daysSinceEpoch year month day).isSome ↔
      (1 ≤ month ∧ month ≤ 12) ∧ 1 ≤ day ∧ day ≤ 31 := by
  unfold daysSinceEpoch
  split_ifs with hrange
  · simp only [Option.isSome_none, Bool.false_eq_true, false_iff]
    omega
  · simp only [Option.isSome_some, true_iff]
    omega

/-- **A stamp is read exactly when** its eight bytes are there and its month and day bytes are in
range. -/
theorem extractS7Datetime_isSome (data : List UInt8) (offset : ℕ) :
    (extractS7Datetime data offset).isSome ↔
      offset + 8 ≤ data.length ∧
        (1 ≤ bcdToU8 (data.getD (offset + 1) 0) ∧ bcdToU8 (data.getD (offset + 1) 0) ≤ 12) ∧
          1 ≤ bcdToU8 (data.getD (offset + 2) 0) ∧ bcdToU8 (data.getD (offset + 2) 0) ≤ 31 := by
  unfold extractS7Datetime
  split_ifs with hlen
  · simp only [Option.isSome_none, Bool.false_eq_true, false_iff]
    omega
  · have hfit : offset + 8 ≤ data.length := Nat.le_of_not_lt hlen
    rw [Option.isSome_map, daysSinceEpoch_isSome]
    simp only [hfit, true_and]

example : daysSinceEpoch 2000 3 1 = some 11017 := by decide

end FillingPilot
