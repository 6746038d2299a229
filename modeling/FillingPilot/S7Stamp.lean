/-
**The S7 stamps against the calendar.**

The report cache reads a stamp as packed decimal digits and counts the days of the date itself.  It
takes every byte for a number of two digits, knows no month shorter than 31 days, and lets every
year begin with 20.  The codec that writes stamps puts plain numbers into the bytes.

Main definitions:

* `FillingPilot.StampDenotes` — the time a stamp stands for, in the S7 convention;
* `FillingPilot.IsStamp` — a well-formed stamp of the years from 2000 on;
* `FillingPilot.FieldsOf` — the calendar fields of a parsed timestamp.

Main results:

* `FillingPilot.daysSinceEpoch_eq` — **the day count is that of the calendar**, for the months and
  days it accepts;
* `FillingPilot.stamp_faithful_iff` — **the stamps that are read faithfully**;
* `FillingPilot.writer_reader_iff` — **the times that the reader reads as the codec wrote them**.
-/

import FillingPilot.Calendar
import FillingPilot.Codec
import FillingPilot.S7DateTime

set_option relaxedAutoImplicit false
set_option autoImplicit false

namespace FillingPilot

open Gregorian Json Rust

/-! ### The day count -/

theorem isLeapYear_iff (year : ℕ) : isLeapYear year = true ↔ IsLeap year := by
  simp only [isLeapYear, IsLeap, Bool.or_eq_true, Bool.and_eq_true, beq_iff_eq, bne_iff_ne]
  omega

theorem daysOfYears_eq (n : ℕ) : (daysOfYears (1970 + n) : ℤ) = daysBeforeYear (1970 + n : ℕ) := by
  induction n with
  | zero => exact daysBeforeYear_epoch.symm
  | succ n ih =>
      have hloop : daysOfYears (1970 + (n + 1)) =
          daysOfYears (1970 + n) + if isLeapYear (1970 + n) then 366 else 365 := by
        unfold daysOfYears
        rw [Nat.add_sub_cancel_left, Nat.add_sub_cancel_left, List.range'_concat, List.map_append,
          List.sum_append]
        simp
      have hyear : ((1970 + (n + 1) : ℕ) : ℤ) = ((1970 + n : ℕ) : ℤ) + 1 := by omega
      rw [hyear, daysBeforeYear_succ, ← ih, hloop]
      by_cases hleap : IsLeap ((1970 + n : ℕ) : ℤ)
      · rw [if_pos hleap, if_pos ((isLeapYear_iff _).2 hleap)]
        rfl
      · rw [if_neg hleap, if_neg fun h => hleap ((isLeapYear_iff _).1 h)]
        rfl

theorem daysOfMonths_eq (year : ℕ) {month : ℕ} (h : month ≤ 12) :
    daysOfMonths year month = daysBeforeMonth year month := by
  unfold daysOfMonths daysBeforeMonth
  congr 1
  refine List.map_congr_left fun m hm => ?_
  rw [List.mem_range'_1] at hm
  have hleap := isLeapYear_iff year
  obtain ⟨hlow, hhigh⟩ := hm
  have hle : m ≤ 12 := by omega
  interval_cases m <;> simp [daysInMonths, monthLength, hleap]
  split_ifs <;> rfl

/-- **The day count is that of the calendar**, for the months and days it accepts. -/
theorem daysSinceEpoch_eq {year month day : ℕ} (hyear : 1970 ≤ year)
    (hmonth : 1 ≤ month ∧ month ≤ 12) (hday : 1 ≤ day ∧ day ≤ 31) :
    ∃ days : ℕ, daysSinceEpoch year month day = some days ∧
      (days : ℤ) = daysBeforeYear year + daysBeforeMonth year month + (day - 1) := by
  obtain ⟨n, rfl⟩ := Nat.exists_eq_add_of_le hyear
  refine ⟨_, if_neg (by omega), ?_⟩
  rw [← daysOfYears_eq, ← daysOfMonths_eq _ hmonth.2]
  omega

/-! ### Reading -/

/-- A byte that holds two decimal digits. -/
def IsBcd (b : UInt8) : Prop := b.toNat / 16 ≤ 9 ∧ b.toNat % 16 ≤ 9

instance (b : UInt8) : Decidable (IsBcd b) := by
  unfold IsBcd
  infer_instance

/-- The number in a byte of the stamp at `offset`: year, month, day, hour, minute, second. -/
def stampField (data : List UInt8) (offset i : ℕ) : ℕ := bcdToU8 (data.getD (offset + i) 0)

/-- The year of a year byte: 2000 to 2089, then 1990 to 1999. -/
def stampYear (n : ℕ) : ℤ := if n < 90 then 2000 + n else 1900 + n

/-- The stamp stands for the time `t`, in epoch milliseconds: its eight bytes are there, the first
six hold decimal digits, and these form a date and a time of day. -/
def StampDenotes (data : List UInt8) (offset : ℕ) (t : ℤ) : Prop :=
  offset + 8 ≤ data.length ∧ (∀ i < 6, IsBcd (data.getD (offset + i) 0)) ∧
    ∃ (date : Date) (time : TimeOfDay), date.year = stampYear (stampField data offset 0) ∧
      date.month = stampField data offset 1 ∧ date.day = stampField data offset 2 ∧
      time.hour = stampField data offset 3 ∧ time.minute = stampField data offset 4 ∧
      time.second = stampField data offset 5 ∧ t = epochSeconds date time * 1000

section Stamp

variable {data : List UInt8} {offset : ℕ}

/-- The month and day bytes are in the ranges that the reader asks for. -/
def DayInRange (data : List UInt8) (offset : ℕ) : Prop :=
  (1 ≤ stampField data offset 1 ∧ stampField data offset 1 ≤ 12) ∧
    1 ≤ stampField data offset 2 ∧ stampField data offset 2 ≤ 31

instance (data : List UInt8) (offset : ℕ) : Decidable (DayInRange data offset) := by
  unfold DayInRange
  infer_instance

/-- A well-formed stamp of the years from 2000 on. -/
def IsStamp (data : List UInt8) (offset : ℕ) : Prop :=
  (∀ i < 6, IsBcd (data.getD (offset + i) 0)) ∧ stampField data offset 0 < 90 ∧
    stampField data offset 2 ≤
      monthLength (2000 + stampField data offset 0 : ℕ) (stampField data offset 1) ∧
    stampField data offset 3 < 24 ∧ stampField data offset 4 < 60 ∧ stampField data offset 5 < 60

instance (data : List UInt8) (offset : ℕ) : Decidable (IsStamp data offset) := by
  unfold IsStamp
  infer_instance

theorem extractS7Datetime_eq (hlen : offset + 8 ≤ data.length) (hday : DayInRange data offset) :
    extractS7Datetime data offset = some
      (((daysBeforeYear (2000 + stampField data offset 0 : ℕ) +
          daysBeforeMonth (2000 + stampField data offset 0 : ℕ) (stampField data offset 1) +
          (stampField data offset 2 - 1)) * 86400 +
        (stampField data offset 3 * 3600 + stampField data offset 4 * 60 +
          stampField data offset 5)) * 1000) := by
  have hyear : 1970 ≤ stampField data offset 0 + 2000 := by omega
  obtain ⟨days, hdays, hcount⟩ := daysSinceEpoch_eq hyear hday.1 hday.2
  have hextract : extractS7Datetime data offset =
      (daysSinceEpoch (stampField data offset 0 + 2000) (stampField data offset 1)
        (stampField data offset 2)).map fun days : ℕ =>
          (((days * 86400 + stampField data offset 3 * 3600 + stampField data offset 4 * 60 +
            stampField data offset 5) * 1000 : ℕ) : ℤ) := if_neg (Nat.not_lt.2 hlen)
  rw [hextract, hdays, Option.map_some, Nat.add_comm 2000, ← hcount, Option.some.injEq]
  push_cast
  omega

/-- A stamp that stands for a time has its month and day in range. -/
theorem StampDenotes.dayInRange {t : ℤ} (h : StampDenotes data offset t) :
    DayInRange data offset := by
  obtain ⟨-, -, date, time, -, hmonth, hday, -⟩ := h
  rw [DayInRange, ← hmonth, ← hday]
  exact ⟨date.month_mem, date.day_mem.1, date.day_le⟩

/-- A well-formed stamp stands for what the reader makes of it. -/
theorem IsStamp.denotes_iff (h : IsStamp data offset) (hlen : offset + 8 ≤ data.length)
    (hday : DayInRange data offset) (t : ℤ) :
    extractS7Datetime data offset = some t ↔ StampDenotes data offset t := by
  obtain ⟨hbcd, hyear, hmonth, hhour, hminute, hsecond⟩ := h
  have hwindow : stampYear (stampField data offset 0) = (2000 + stampField data offset 0 : ℕ) := by
    rw [stampYear, if_pos hyear]
    push_cast
    rfl
  rw [extractS7Datetime_eq hlen hday, Option.some.injEq]
  constructor
  · rintro rfl
    refine ⟨hlen, hbcd, ⟨(2000 + stampField data offset 0 : ℕ), _, _, hday.1, hday.2.1, hmonth⟩,
      ⟨_, _, _, hhour, hminute, hsecond⟩, hwindow.symm, rfl, rfl, rfl, rfl, rfl, ?_⟩
    simp only [epochSeconds, dayNumber, secondOfDay]
    push_cast
    rfl
  · rintro ⟨-, -, date, time, hy, hm, hd, hh, hmi, hs, rfl⟩
    rw [epochSeconds, dayNumber, secondOfDay, hy, hm, hd, hh, hmi, hs, hwindow]
    push_cast
    rfl

/-- A stamp that stands for the time the reader makes of it is well-formed. -/
theorem StampDenotes.isStamp {t : ℤ} (h : StampDenotes data offset t)
    (hread : extractS7Datetime data offset = some t) : IsStamp data offset := by
  have hrange := h.dayInRange
  obtain ⟨hlen, hbcd, date, time, hy, hm, hd, hh, hmi, hs, rfl⟩ := h
  -- in the years from 90 on the reader is a century late
  have hyear : stampField data offset 0 < 90 := by
    by_contra hlate
    rw [extractS7Datetime_eq hlen hrange, Option.some.injEq, epochSeconds, dayNumber, secondOfDay,
      hh, hmi, hs, hd, hm] at hread
    rw [stampYear, if_neg hlate] at hy
    have hcentury : date.year ≤ ((2000 + stampField data offset 0 : ℕ) : ℤ) := by omega
    have hyears := daysBeforeYear_le hcentury
    have hmonths := daysBeforeMonth_le_succ date.year (2000 + stampField data offset 0 : ℕ) hrange.1
    omega
  rw [stampYear, if_pos hyear] at hy
  have hcast : ((2000 + stampField data offset 0 : ℕ) : ℤ) = date.year := by omega
  refine ⟨hbcd, hyear, ?_, hh ▸ time.hour_lt, hmi ▸ time.minute_lt, hs ▸ time.second_lt⟩
  rw [hcast, ← hm, ← hd]
  exact date.day_mem.2

/-- **The stamps that are read faithfully**: those whose bytes are not all there, those whose month
or day byte is out of its range, and the well-formed ones of the years from 2000 on. -/
theorem stamp_faithful_iff (data : List UInt8) (offset : ℕ) :
    (∀ t, extractS7Datetime data offset = some t ↔ StampDenotes data offset t) ↔
      data.length < offset + 8 ∨ ¬ DayInRange data offset ∨ IsStamp data offset := by
  by_cases hlen : offset + 8 ≤ data.length
  · by_cases hday : DayInRange data offset
    · constructor
      · intro h
        have hread := extractS7Datetime_eq hlen hday
        exact Or.inr (Or.inr (((h _).1 hread).isStamp hread))
      · intro h
        have hstamp := (h.resolve_left (by omega)).resolve_left (not_not.2 hday)
        exact hstamp.denotes_iff hlen hday
    · refine iff_of_true (fun t => iff_of_false (fun hread => hday ?_) fun h => hday h.dayInRange)
        (Or.inr (Or.inl hday))
      have hsome : (extractS7Datetime data offset).isSome := by rw [hread]; rfl
      exact ((extractS7Datetime_isSome data offset).1 hsome).2
  · refine iff_of_true (fun t => iff_of_false (fun hread => hlen ?_) fun h => hlen h.1)
      (Or.inl (by omega))
    have hsome : (extractS7Datetime data offset).isSome := by rw [hread]; rfl
    exact ((extractS7Datetime_isSome data offset).1 hsome).1

/-- **A day that does not exist**, 30 February 2024, is read as 1 March; the year byte 95 is read as
2095; and the hour byte `0x2A`, which is not BCD, as the hour 30. -/
theorem stamp_faithful_fails :
    extractS7Datetime [0x24, 0x02, 0x30, 0, 0, 0, 0, 0] 0 =
        extractS7Datetime [0x24, 0x03, 0x01, 0, 0, 0, 0, 0] 0 ∧
      extractS7Datetime [0x95, 0x01, 0x01, 0, 0, 0, 0, 0] 0 = some 3944678400000 ∧
      extractS7Datetime [0x24, 0x03, 0x01, 0x2A, 0, 0, 0, 0] 0 =
        extractS7Datetime [0x24, 0x03, 0x02, 0x06, 0, 0, 0, 0] 0 ∧
      ¬ ∀ t, extractS7Datetime [0x24, 0x02, 0x30, 0, 0, 0, 0, 0] 0 = some t ↔
        StampDenotes [0x24, 0x02, 0x30, 0, 0, 0, 0, 0] 0 t := by
  refine ⟨by decide, (extractS7Datetime_eq (by decide) (by decide)).trans (by decide),
    by decide, fun h => ?_⟩
  have hsome : (extractS7Datetime [0x24, 0x02, 0x30, 0, 0, 0, 0, 0] 0).isSome := by decide
  obtain ⟨t, ht⟩ := Option.isSome_iff_exists.1 hsome
  have hstamp := ((h t).1 ht).isStamp ht
  exact absurd hstamp (by decide)

end Stamp

/-! ### Writing and reading -/

/-- The calendar fields of a parsed timestamp are those of a date and a time of day. -/
structure FieldsOf (dt : DateTime) (date : Date) (time : TimeOfDay) : Prop where
  year : dt.year = date.year
  month : dt.month = date.month
  day : dt.day = date.day
  hour : dt.hour = time.hour
  minute : dt.minute = time.minute
  second : dt.second = time.second

/-- The bytes the codec writes for a date of the years from 2000 to 2099: its fields, the weekday
and the hundredths of a second. -/
theorem dateTimeEncode_eq {host : Host} {s : String} {dt : DateTime} {date : Date}
    {time : TimeOfDay} (hparse : host.parseFromRfc3339 s = .ok dt) (hfields : FieldsOf dt date time)
    (hyear : 2000 ≤ date.year ∧ date.year ≤ 2099) :
    ∃ weekday centis : UInt8, dateTimeEncode host (.string s) =
      .ok [UInt8.ofNat (date.year - 2000).toNat, UInt8.ofNat date.month, UInt8.ofNat date.day,
        UInt8.ofNat time.hour, UInt8.ofNat time.minute, UInt8.ofNat time.second, weekday,
        centis] := by
  have hcentury : ((dt.year - 2000).tmod 100 % 256 ^ 1).toNat = (date.year - 2000).toNat := by
    rw [hfields.year, Int.tmod_eq_emod_of_nonneg (by omega)]
    omega
  refine ⟨UInt8.ofNat (dt.numDaysFromSunday + 1),
    UInt8.ofNat (((dt.timestampMillis.tmod 1000).tdiv 10) % 256 ^ 1).toNat, ?_⟩
  rw [← hfields.month, ← hfields.day, ← hfields.hour, ← hfields.minute, ← hfields.second,
    ← hcentury, dateTimeEncode, textEncode_of_read hparse]
  rfl

/-- The digits of a plain number that is taken for BCD. -/
theorem bcdToU8_ofNat {n : ℕ} (h : n < 256) : bcdToU8 (UInt8.ofNat n) = n / 16 * 10 + n % 16 := by
  rw [bcdToU8, UInt8.toNat_ofNat_of_lt' h]

/-- The number that comes of taking a plain number for BCD. -/
def asBcd (n : ℕ) : ℕ := n / 16 * 10 + n % 16

theorem asBcd_le (n : ℕ) : asBcd n ≤ n := by
  unfold asBcd
  omega

theorem asBcd_eq_self_iff (n : ℕ) : asBcd n = n ↔ n < 16 := by
  unfold asBcd
  omega

theorem asBcd_pos {n : ℕ} (h : 1 ≤ n) : 1 ≤ asBcd n := by
  unfold asBcd
  omega

/-- What the reader makes of the bytes of plain numbers. -/
theorem extractS7Datetime_plain {year month day hour minute second : ℕ} (hyear : year < 256)
    (hmonth : 1 ≤ month ∧ month ≤ 12) (hday : 1 ≤ day ∧ day ≤ 31) (hhour : hour < 256)
    (hminute : minute < 256) (hsecond : second < 256) (weekday centis : UInt8) :
    extractS7Datetime [UInt8.ofNat year, UInt8.ofNat month, UInt8.ofNat day, UInt8.ofNat hour,
        UInt8.ofNat minute, UInt8.ofNat second, weekday, centis] 0 = some
      (((daysBeforeYear (2000 + asBcd year : ℕ) +
          daysBeforeMonth (2000 + asBcd year : ℕ) month + (asBcd day - 1)) * 86400 +
        (asBcd hour * 3600 + asBcd minute * 60 + asBcd second)) * 1000) := by
  have hmonth' : asBcd month = month := (asBcd_eq_self_iff month).2 (by omega)
  have hday' := asBcd_le day
  have hday'' := asBcd_pos hday.1
  have hfield : ∀ n < 256, bcdToU8 (UInt8.ofNat n) = asBcd n := fun n hn => bcdToU8_ofNat hn
  have h0 := hfield year hyear
  have h1 := (hfield month (by omega)).trans hmonth'
  have h2 := hfield day (by omega)
  have h3 := hfield hour hhour
  have h4 := hfield minute hminute
  have h5 := hfield second hsecond
  rw [← h0, ← h2, ← h3, ← h4, ← h5]
  nth_rewrite 2 [← h1]
  refine extractS7Datetime_eq (by simp) ⟨?_, ?_⟩
  · change 1 ≤ bcdToU8 (UInt8.ofNat month) ∧ bcdToU8 (UInt8.ofNat month) ≤ 12
    rwa [h1]
  · change 1 ≤ bcdToU8 (UInt8.ofNat day) ∧ bcdToU8 (UInt8.ofNat day) ≤ 31
    rw [h2]
    omega

/-- **The times that the reader reads as the codec wrote them**: those whose fields, the year
without its 2000, are all below 16. -/
theorem writer_reader_iff {host : Host} {s : String} {dt : DateTime} {date : Date}
    {time : TimeOfDay} (hparse : host.parseFromRfc3339 s = .ok dt) (hfields : FieldsOf dt date time)
    (hyear : 2000 ≤ date.year ∧ date.year ≤ 2089) :
    (∃ bytes, dateTimeEncode host (.string s) = .ok bytes ∧
      extractS7Datetime bytes 0 = some (epochSeconds date time * 1000)) ↔
      date.year < 2016 ∧ date.day < 16 ∧ time.hour < 16 ∧ time.minute < 16 ∧ time.second < 16 := by
  obtain ⟨weekday, centis, hencode⟩ :=
    dateTimeEncode_eq hparse hfields ⟨hyear.1, hyear.2.trans (by decide)⟩
  have hhour := time.hour_lt
  have hminute := time.minute_lt
  have hsecond := time.second_lt
  have hread := @extractS7Datetime_plain (date.year - 2000).toNat date.month date.day time.hour
    time.minute time.second (by omega) date.month_mem ⟨date.day_mem.1, date.day_le⟩ (by omega)
    (by omega) (by omega) weekday centis
  have hle := asBcd_le (date.year - 2000).toNat
  simp only [hencode, Except.ok.injEq, exists_eq_left', hread, Option.some.injEq]
  rw [epochSeconds, dayNumber, secondOfDay]
  have hday := asBcd_le date.day
  have hhour' := asBcd_le time.hour
  have hminute' := asBcd_le time.minute
  have hsecond' := asBcd_le time.second
  constructor
  · intro h
    -- a year that is read too early cannot be made up for, since no field is read too late
    have hsame : asBcd (date.year - 2000).toNat = (date.year - 2000).toNat := by
      by_contra hne
      have hearly : ((2000 + asBcd (date.year - 2000).toNat : ℕ) : ℤ) ≤ date.year := by omega
      have hyears := daysBeforeYear_le hearly
      have hmonths := daysBeforeMonth_le_succ (2000 + asBcd (date.year - 2000).toNat : ℕ)
        date.year date.month_mem
      omega
    have hcast : ((2000 + asBcd (date.year - 2000).toNat : ℕ) : ℤ) = date.year := by omega
    rw [hcast] at h
    rw [asBcd_eq_self_iff] at hsame
    rw [← asBcd_eq_self_iff date.day, ← asBcd_eq_self_iff time.hour,
      ← asBcd_eq_self_iff time.minute, ← asBcd_eq_self_iff time.second]
    omega
  · rintro ⟨hy, hd, hh, hm, hs⟩
    have hcast : ((2000 + asBcd (date.year - 2000).toNat : ℕ) : ℤ) = date.year := by
      rw [(asBcd_eq_self_iff (date.year - 2000).toNat).2 (by omega)]
      omega
    rw [hcast, (asBcd_eq_self_iff _).2 hd, (asBcd_eq_self_iff _).2 hh, (asBcd_eq_self_iff _).2 hm,
      (asBcd_eq_self_iff _).2 hs]
    push_cast
    rfl

/-- A host that parses one timestamp. -/
def hostOf (text : String) (dt : DateTime) : Host :=
  { bareHost with parseFromRfc3339 := fun s => if s = text then .ok dt else .error "input" }

/-- 2001-02-03T04:05:06Z, a Saturday. -/
def february2001 : DateTime where
  year := 2001
  month := 2
  day := 3
  hour := 4
  minute := 5
  second := 6
  numDaysFromSunday := 6
  timestampMillis := 981173106000

/-- Its date. -/
def thirdOfFebruary : Date := ⟨2001, 2, 3, by decide, by decide⟩

/-- Its time of day. -/
def earlyMorning : TimeOfDay := ⟨4, 5, 6, by decide, by decide, by decide⟩

theorem fieldsOf_february2001 : FieldsOf february2001 thirdOfFebruary earlyMorning :=
  ⟨rfl, rfl, rfl, rfl, rfl, rfl⟩

theorem writer_reader_iff_february2001 :
    ∃ bytes, dateTimeEncode (hostOf "2001-02-03T04:05:06Z" february2001)
        (.string "2001-02-03T04:05:06Z") = .ok bytes ∧
      extractS7Datetime bytes 0 = some (epochSeconds thirdOfFebruary earlyMorning * 1000) := by
  have hparse : (hostOf "2001-02-03T04:05:06Z" february2001).parseFromRfc3339
      "2001-02-03T04:05:06Z" = .ok february2001 := rfl
  exact (writer_reader_iff hparse fieldsOf_february2001 (by decide)).2 (by decide)

/-- 2024-01-01T00:00:00Z, a Monday. -/
def newYear2024 : DateTime where
  year := 2024
  month := 1
  day := 1
  hour := 0
  minute := 0
  second := 0
  numDaysFromSunday := 1
  timestampMillis := 1704067200000

/-- The first day of a year. -/
def newYearsDay (year : ℤ) : Date where
  year := year
  month := 1
  day := 1
  month_mem := ⟨le_rfl, by omega⟩
  day_mem := ⟨le_rfl, by simp [monthLength]⟩

/-- A full hour. -/
def oClock (hour : ℕ) (h : hour < 24) : TimeOfDay :=
  ⟨hour, 0, 0, h, Nat.zero_lt_succ _, Nat.zero_lt_succ _⟩

theorem fieldsOf_newYear2024 : FieldsOf newYear2024 (newYearsDay 2024) (oClock 0 (by decide)) :=
  ⟨rfl, rfl, rfl, rfl, rfl, rfl⟩

/-- **A year that comes back six years early**: the byte 24 is `0x18`. -/
theorem newYear2024_read_as_2018 :
    FieldsOf newYear2024 (newYearsDay 2024) (oClock 0 (by decide)) ∧
      dateTimeEncode (hostOf "2024-01-01T00:00:00Z" newYear2024)
        (.string "2024-01-01T00:00:00Z") = .ok [24, 1, 1, 0, 0, 0, 2, 0] ∧
      extractS7Datetime [24, 1, 1, 0, 0, 0, 2, 0] 0 = some 1514764800000 ∧
      epochSeconds (newYearsDay 2024) (oClock 0 (by decide)) * 1000 = 1704067200000 ∧
      ¬ ∃ bytes, dateTimeEncode (hostOf "2024-01-01T00:00:00Z" newYear2024)
          (.string "2024-01-01T00:00:00Z") = .ok bytes ∧
        extractS7Datetime bytes 0 =
          some (epochSeconds (newYearsDay 2024) (oClock 0 (by decide)) * 1000) := by
  have hencode : dateTimeEncode (hostOf "2024-01-01T00:00:00Z" newYear2024)
      (.string "2024-01-01T00:00:00Z") = .ok [24, 1, 1, 0, 0, 0, 2, 0] := rfl
  have hread : extractS7Datetime [24, 1, 1, 0, 0, 0, 2, 0] 0 = some 1514764800000 := by decide
  have htime : epochSeconds (newYearsDay 2024) (oClock 0 (by decide)) * 1000 = 1704067200000 := by
    decide
  refine ⟨fieldsOf_newYear2024, hencode, hread, htime, ?_⟩
  rintro ⟨bytes, hbytes, hwrong⟩
  rw [hencode] at hbytes
  cases hbytes
  rw [hread, htime] at hwrong
  exact absurd hwrong (by decide)

end FillingPilot
