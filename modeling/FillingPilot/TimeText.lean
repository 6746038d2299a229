/-
**The times that go through the codecs of timestamps.**

Two codecs read timestamps as texts and write times as texts.  One of them writes the calendar
fields of the text as they stand and reads them back as UTC, whatever the offset of the text was.
The other writes the instant in milliseconds, and what it reads back it divides towards zero.

Main definitions:

* `FillingPilot.timeText` — the UTC text of a date and time;
* `FillingPilot.DenotesSecond` — a text names a second;
* `FillingPilot.ParsedOf` — what a parsed timestamp has: local fields, offset and instant;
* `FillingPilot.HandlesSecond` — the host prints a second.

Main results:

* `FillingPilot.timeText_injective` — a text names no more than one date and time;
* `FillingPilot.dateTime_instant_iff` — **the timestamps whose instant the first codec keeps**;
* `FillingPilot.longAsDateTime_instant_iff` — **the instants that the second codec handles**.
-/

import FillingPilot.DecodePanic
import FillingPilot.S7Stamp

set_option relaxedAutoImplicit false
set_option autoImplicit false

namespace FillingPilot

open Gregorian Json Rust

/-! ### Texts of times -/

/-- The text of a year: four digits, with a sign for a year that is not one of 0 to 9999. -/
def yearText (year : ℤ) : String :=
  if 0 ≤ year ∧ year ≤ 9999 then padded 4 year.toNat
  else (if year < 0 then "-" else "+") ++ padded 4 year.natAbs

/-- The UTC text of a date and time, to the second. -/
def timeText (date : Date) (time : TimeOfDay) : String :=
  yearText date.year ++ "-" ++ padded 2 date.month ++ "-" ++ padded 2 date.day ++ "T" ++
    padded 2 time.hour ++ ":" ++ padded 2 time.minute ++ ":" ++ padded 2 time.second ++ "Z"

/-- The text names the second that many seconds after 1970-01-01T00:00:00Z. -/
def DenotesSecond (text : String) (secs : ℤ) : Prop :=
  ∃ (date : Date) (time : TimeOfDay), (0 ≤ date.year ∧ date.year ≤ 9999) ∧
    text = timeText date time ∧ epochSeconds date time = secs

theorem toList_padded (width n : ℕ) :
    (padded width n).toList = (Nat.toDigits 10 n).leftpad width '0' := by
  rw [padded, String.toList_ofList, Nat.toString_eq_ofList_toDigits, String.toList_ofList]

theorem length_padded {width n : ℕ} (hwidth : 0 < width) (h : n < 10 ^ width) :
    (padded width n).toList.length = width := by
  have hdigits : (Nat.toDigits 10 n).length ≤ width :=
    (Nat.length_toDigits_le_iff (by decide) hwidth).2 h
  rw [toList_padded, List.leftpad, List.length_append, List.length_replicate]
  omega

/-- A number is read off its padded text. -/
theorem ofDigitChars_padded (width n : ℕ) :
    Nat.ofDigitChars 10 (padded width n).toList 0 = n := by
  rw [toList_padded, List.leftpad, Nat.ofDigitChars_append, Nat.ofDigitChars_replicate_zero,
    Nat.mul_zero, Nat.ofDigitChars_ten_toDigits]

/-- Two texts that start with padded numbers of one width have the same numbers and the same
rests. -/
theorem padded_append_inj {width n m : ℕ} (hwidth : 0 < width) (hn : n < 10 ^ width)
    (hm : m < 10 ^ width) {xs ys : List Char}
    (h : (padded width n).toList ++ xs = (padded width m).toList ++ ys) : n = m ∧ xs = ys := by
  obtain ⟨hnumber, hrest⟩ := List.append_inj h
    ((length_padded hwidth hn).trans (length_padded hwidth hm).symm)
  refine ⟨?_, hrest⟩
  rw [← ofDigitChars_padded width n, hnumber, ofDigitChars_padded]

theorem timeText_injective {date date' : Date} {time time' : TimeOfDay}
    (hyear : 0 ≤ date.year ∧ date.year ≤ 9999) (hyear' : 0 ≤ date'.year ∧ date'.year ≤ 9999)
    (h : timeText date time = timeText date' time') : date = date' ∧ time = time' := by
  obtain ⟨year, month, day, hmonth, hday⟩ := date
  obtain ⟨year', month', day', hmonth', hday'⟩ := date'
  obtain ⟨hour, minute, second, hhour, hminute, hsecond⟩ := time
  obtain ⟨hour', minute', second', hhour', hminute', hsecond'⟩ := time'
  have hlast := hday.2.trans (monthLength_le _ _)
  have hlast' := hday'.2.trans (monthLength_le _ _)
  dsimp only at hyear hyear'
  have hchars := congrArg String.toList h
  simp only [timeText, yearText, if_pos hyear, if_pos hyear', String.toList_append,
    List.append_assoc] at hchars
  have htwo : ∀ {n m : ℕ} {xs ys : List Char}, n < 100 → m < 100 →
      (padded 2 n).toList ++ xs = (padded 2 m).toList ++ ys → n = m ∧ xs = ys :=
    fun hn hm => padded_append_inj Nat.zero_lt_two hn hm
  obtain ⟨hy, hchars⟩ := padded_append_inj (Nat.zero_lt_succ 3) (by omega) (by omega) hchars
  obtain ⟨hmo, hchars⟩ := htwo (by omega) (by omega) (List.append_cancel_left hchars)
  obtain ⟨hd, hchars⟩ := htwo (by omega) (by omega) (List.append_cancel_left hchars)
  obtain ⟨hh, hchars⟩ := htwo (by omega) (by omega) (List.append_cancel_left hchars)
  obtain ⟨hmi, hchars⟩ := htwo (by omega) (by omega) (List.append_cancel_left hchars)
  obtain ⟨hs, -⟩ := htwo (by omega) (by omega) (List.append_cancel_left hchars)
  obtain rfl : year = year' := by omega
  subst hmo hd hh hmi hs
  exact ⟨rfl, rfl⟩

/-- A text of the years 0 to 9999 names the one second it is the text of. -/
theorem denotesSecond_timeText_iff {date : Date} {time : TimeOfDay}
    (hyear : 0 ≤ date.year ∧ date.year ≤ 9999) {secs : ℤ} :
    DenotesSecond (timeText date time) secs ↔ epochSeconds date time = secs := by
  constructor
  · rintro ⟨date', time', hyear', htext, hsecs⟩
    obtain ⟨rfl, rfl⟩ := timeText_injective hyear hyear' htext
    exact hsecs
  · intro h
    exact ⟨date, time, hyear, rfl, h⟩

/-! ### Calendar fields -/

/-- What the parser makes of a timestamp: the local fields, and the instant by the offset in
seconds, which is one in minutes.  A leap second has more than 999 milliseconds. -/
structure ParsedOf (dt : DateTime) (date : Date) (time : TimeOfDay) (offset millis : ℤ) : Prop
    extends FieldsOf dt date time where
  instant : dt.timestampMillis = (epochSeconds date time - offset) * 1000 + millis
  millis_mem : 0 ≤ millis ∧ millis < 2000
  offset_minutes : (60 : ℤ) ∣ offset

theorem dateTimeDecode_fields {date : Date} {time : TimeOfDay}
    (hyear : 2000 ≤ date.year ∧ date.year ≤ 2099) (weekday centis : UInt8) :
    dateTimeDecode [UInt8.ofNat (date.year - 2000).toNat, UInt8.ofNat date.month,
        UInt8.ofNat date.day, UInt8.ofNat time.hour, UInt8.ofNat time.minute,
        UInt8.ofNat time.second, weekday, centis] = .ok (.string (timeText date time)) := by
  have hmonth := date.month_mem
  have hday := date.day_le
  have hhour := time.hour_lt
  have hminute := time.minute_lt
  have hsecond := time.second_lt
  have hbyte : ∀ n < 256, (UInt8.ofNat n).toNat = n := fun n hn => UInt8.toNat_ofNat_of_lt' hn
  have hcentury : 2000 + (date.year - 2000).toNat = date.year.toNat := by omega
  have hdecode : ∀ year month day hour minute second : UInt8,
      dateTimeDecode [year, month, day, hour, minute, second, weekday, centis] =
        .ok (.string (padded 4 (2000 + year.toNat) ++ "-" ++ padded 2 month.toNat ++ "-" ++
          padded 2 day.toNat ++ "T" ++ padded 2 hour.toNat ++ ":" ++ padded 2 minute.toNat ++ ":" ++
          padded 2 second.toNat ++ "Z")) := fun _ _ _ _ _ _ => rfl
  rw [hdecode, hbyte (date.year - 2000).toNat (by omega), hbyte date.month (by omega),
    hbyte date.day (by omega), hbyte time.hour (by omega), hbyte time.minute (by omega),
    hbyte time.second (by omega), hcentury, timeText, yearText, if_pos (by omega)]

/-- **The timestamps whose instant the codec keeps**, of the local years 2000 to 2099: those with
offset 0 that are not in a leap second. -/
theorem dateTime_instant_iff {host : Host} {s : String} {dt : DateTime} {date : Date}
    {time : TimeOfDay} {offset millis : ℤ} (hparse : host.parseFromRfc3339 s = .ok dt)
    (hparsed : ParsedOf dt date time offset millis)
    (hyear : 2000 ≤ date.year ∧ date.year ≤ 2099) :
    (∃ bytes text, dateTimeEncode host (.string s) = .ok bytes ∧
      dateTimeDecode bytes = .ok (.string text) ∧
        DenotesSecond text (dt.timestampMillis / 1000)) ↔ offset = 0 ∧ millis < 1000 := by
  obtain ⟨weekday, centis, hencode⟩ := dateTimeEncode_eq hparse hparsed.toFieldsOf hyear
  have hdecode := @dateTimeDecode_fields date time hyear weekday centis
  have hdenotes := @denotesSecond_timeText_iff date time ⟨by omega, by omega⟩
    (dt.timestampMillis / 1000)
  have hmillis := hparsed.millis_mem
  have hminutes := hparsed.offset_minutes
  -- the second of the instant, which has more than 999 milliseconds only if it is a leap second
  have hsecond : epochSeconds date time = dt.timestampMillis / 1000 ↔
      offset = 0 ∧ millis < 1000 := by
    rw [hparsed.instant]
    omega
  rw [← hsecond, ← hdenotes]
  constructor
  · rintro ⟨bytes, text, hbytes, htext, h⟩
    rw [hencode] at hbytes
    cases hbytes
    rw [hdecode] at htext
    cases htext
    exact h
  · intro h
    exact ⟨_, _, hencode, hdecode, h⟩

/-- A timestamp in UTC. -/
theorem dateTime_instant_iff_february2001 :
    ∃ bytes text, dateTimeEncode (hostOf "2001-02-03T04:05:06Z" february2001)
        (.string "2001-02-03T04:05:06Z") = .ok bytes ∧
      dateTimeDecode bytes = .ok (.string text) ∧ DenotesSecond text (981173106000 / 1000) := by
  have hparse : (hostOf "2001-02-03T04:05:06Z" february2001).parseFromRfc3339
      "2001-02-03T04:05:06Z" = .ok february2001 := rfl
  have hparsed : ParsedOf february2001 thirdOfFebruary earlyMorning 0 0 :=
    ⟨fieldsOf_february2001, by decide, by decide, dvd_zero 60⟩
  exact (dateTime_instant_iff hparse hparsed (by decide)).2 ⟨rfl, by decide⟩

/-- 2024-01-01T08:00:00+08:00, the instant of `newYear2024`. -/
def morning2024 : DateTime := { newYear2024 with hour := 8 }

/-- **A timestamp with an offset comes back eight hours late**: as UTC, with its local fields. -/
theorem morning2024_instant_lost :
    ParsedOf morning2024 (newYearsDay 2024) (oClock 8 (by decide)) 28800 0 ∧
      dateTimeEncode (hostOf "2024-01-01T08:00:00+08:00" morning2024)
        (.string "2024-01-01T08:00:00+08:00") = .ok [24, 1, 1, 8, 0, 0, 2, 0] ∧
      dateTimeDecode [24, 1, 1, 8, 0, 0, 2, 0] = .ok (.string "2024-01-01T08:00:00Z") ∧
      ¬ DenotesSecond "2024-01-01T08:00:00Z" (morning2024.timestampMillis / 1000) := by
  have hyear : 2000 ≤ (newYearsDay 2024).year ∧ (newYearsDay 2024).year ≤ 2099 := by decide
  have htext : timeText (newYearsDay 2024) (oClock 8 (by decide)) = "2024-01-01T08:00:00Z" := by
    decide
  have hdecode := @dateTimeDecode_fields (newYearsDay 2024) (oClock 8 (by decide)) hyear 2 0
  rw [htext] at hdecode
  refine ⟨⟨⟨rfl, rfl, rfl, rfl, rfl, rfl⟩, by decide, by decide, by decide⟩, rfl, hdecode, ?_⟩
  rw [← htext, denotesSecond_timeText_iff ⟨by omega, by omega⟩]
  decide

/-! ### Instants -/

/-- The host prints the second, with any fraction of it. -/
def HandlesSecond (host : Host) (date : Date) (time : TimeOfDay) : Prop :=
  ∀ nanos < 1000000000,
    host.fromTimestamp (epochSeconds date time) nanos = some (timeText date time)

/-- What the codec reads of an instant that does not make it panic. -/
theorem longAsDateTimeDecode_write {host : Host} {millis : ℤ}
    (hrange : -2 ^ 63 ≤ millis ∧ millis < 2 ^ 63) (hwhole : 0 ≤ millis ∨ (1000 : ℤ) ∣ millis)
    {date : Date} {time : TimeOfDay} (hsecond : epochSeconds date time = millis / 1000)
    (hhost : HandlesSecond host date time) :
    longAsDateTimeDecode host (BigEndian.write 8 millis) = .ok (.string (timeText date time)) := by
  have hlen : (BigEndian.write 8 millis).length = 8 := BigEndian.length_write _ _
  have hread : BigEndian.readSigned 8 (BigEndian.write 8 millis) = millis :=
    BigEndian.readSigned_write (by omega) (by omega)
  have hsecs : millis.tdiv 1000 = epochSeconds date time := by
    rw [hsecond]
    rcases hwhole with hnonneg | hdvd
    · exact Int.tdiv_eq_ediv_of_nonneg hnonneg
    · exact Int.tdiv_eq_ediv_of_dvd hdvd
  have hover : ¬ 2 ^ 32 ≤ ((millis.tmod 1000) % 2 ^ 32).toNat * 1000000 := by
    rw [nanos_overflow_iff]
    rintro ⟨hneg, hodd⟩
    exact hwhole.elim (fun h => absurd h (by omega)) hodd
  have hnanos : ((millis.tmod 1000) % 2 ^ 32).toNat * 1000000 < 1000000000 := by
    have hlt : millis.tmod 1000 < 1000 := Int.tmod_lt_of_pos millis (by decide)
    have hge : 0 ≤ millis.tmod 1000 := by
      rcases hwhole with hnonneg | hdvd
      · exact Int.tmod_nonneg 1000 hnonneg
      · rw [Int.dvd_iff_tmod_eq_zero.1 hdvd]
    omega
  rw [longAsDateTimeDecode, if_neg (by omega), slice_all hlen, Outcome.ok_bind]
  simp only [hread, hsecs]
  rw [if_neg hover, hhost _ hnanos]
  rfl

/-- **The instants that the codec handles**: those from 1970 on, and before it the whole seconds.
Reading the bytes of another one panics, whether they were written by the codec or not. -/
theorem longAsDateTime_instant_iff {host : Host} {millis : ℤ}
    (hrange : -2 ^ 63 ≤ millis ∧ millis < 2 ^ 63) {date : Date} {time : TimeOfDay}
    (hsecond : epochSeconds date time = millis / 1000) (hhost : HandlesSecond host date time) :
    (longAsDateTimeDecode host (BigEndian.write 8 millis) = .ok (.string (timeText date time)) ↔
      0 ≤ millis ∨ (1000 : ℤ) ∣ millis) ∧
    ∀ s dt, host.parseFromRfc3339 s = .ok dt → dt.timestampMillis = millis →
      ((∃ bytes, longAsDateTimeEncode host (.string s) = .ok bytes ∧
        longAsDateTimeDecode host bytes = .ok (.string (timeText date time))) ↔
          0 ≤ millis ∨ (1000 : ℤ) ∣ millis) := by
  have hread : BigEndian.readSigned 8 (BigEndian.write 8 millis) = millis :=
    BigEndian.readSigned_write (by omega) (by omega)
  have hdecode : longAsDateTimeDecode host (BigEndian.write 8 millis) =
      .ok (.string (timeText date time)) ↔ 0 ≤ millis ∨ (1000 : ℤ) ∣ millis := by
    constructor
    · intro h
      by_contra hodd
      rw [not_or, Int.not_le] at hodd
      have hpanic : longAsDateTimeDecode host (BigEndian.write 8 millis) = .panic := by
        have hall : (BigEndian.write 8 millis).slice 0 8 = BigEndian.write 8 millis := by
          rw [List.slice, List.drop_zero, List.take_of_length_le (BigEndian.length_write _ _).le]
        rw [longAsDateTimeDecode_panics_iff, OddMillis, hall, hread]
        exact ⟨(BigEndian.length_write _ _).ge, hodd⟩
      rw [hpanic] at h
      cases h
    · intro hwhole
      exact longAsDateTimeDecode_write hrange hwhole hsecond hhost
  refine ⟨hdecode, fun s dt hparse hmillis => ?_⟩
  have hencode : longAsDateTimeEncode host (.string s) = .ok (BigEndian.write 8 millis) := by
    rw [longAsDateTimeEncode, textEncode_of_read hparse, ← hmillis]
  simp only [hencode, Except.ok.injEq, exists_eq_left']
  exact hdecode

/-- A host that prints one second. -/
def hostOfSecond (secs : ℤ) (text : String) : Host :=
  { bareHost with
    fromTimestamp := fun s nanos => if s = secs ∧ nanos < 1000000000 then some text else none }

/-- One second after midnight. -/
def firstSecond : TimeOfDay := ⟨0, 0, 1, by decide, by decide, by decide⟩

/-- One and a half seconds after the start of 1970. -/
theorem longAsDateTime_instant_iff_1970 :
    longAsDateTimeDecode (hostOfSecond 1 "1970-01-01T00:00:01Z") (BigEndian.write 8 1500) =
      .ok (.string "1970-01-01T00:00:01Z") := by
  have htext : timeText (newYearsDay 1970) firstSecond = "1970-01-01T00:00:01Z" := by decide
  have hsecond : epochSeconds (newYearsDay 1970) firstSecond = 1500 / 1000 := by decide
  have hhost : HandlesSecond (hostOfSecond 1 "1970-01-01T00:00:01Z") (newYearsDay 1970)
      firstSecond := by
    intro nanos hnanos
    rw [htext]
    exact if_pos ⟨hsecond, hnanos⟩
  rw [← htext]
  exact (longAsDateTime_instant_iff ⟨by decide, by decide⟩ hsecond hhost).1.2 (Or.inl (by decide))

/-- The last day of 1969. -/
def lastDay : Date := ⟨1969, 12, 31, by decide, by decide⟩

/-- One second before midnight. -/
def lastSecond : TimeOfDay := ⟨23, 59, 59, by decide, by decide, by decide⟩

/-- **The last millisecond of 1969 is not read**, although the host prints its second. -/
theorem last_millisecond_of_1969_panics :
    HandlesSecond (hostOfSecond (-1) "1969-12-31T23:59:59Z") lastDay lastSecond ∧
      epochSeconds lastDay lastSecond = -1 / 1000 ∧
      timeText lastDay lastSecond = "1969-12-31T23:59:59Z" ∧
      longAsDateTimeDecode (hostOfSecond (-1) "1969-12-31T23:59:59Z") (BigEndian.write 8 (-1)) =
        .panic ∧
      longAsDateTimeDecode (hostOfSecond (-1) "1969-12-31T23:59:59Z") (BigEndian.write 8 (-1)) ≠
        .ok (.string (timeText lastDay lastSecond)) := by
  have htext : timeText lastDay lastSecond = "1969-12-31T23:59:59Z" := by decide
  have hsecond : epochSeconds lastDay lastSecond = -1 / 1000 := by decide
  have hpanic : longAsDateTimeDecode (hostOfSecond (-1) "1969-12-31T23:59:59Z")
      (BigEndian.write 8 (-1)) = .panic := (longAsDateTimeDecode_panics_iff _).2 (by decide)
  refine ⟨?_, hsecond, htext, hpanic, ?_⟩
  · intro nanos hnanos
    rw [htext]
    exact if_pos ⟨hsecond, hnanos⟩
  · rw [hpanic]
    exact nofun

end FillingPilot
