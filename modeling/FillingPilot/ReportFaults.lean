/-
**The decoding of a report is total.**

A report block is read at offsets from the cloud, and its bytes are whatever the PLC has in them.
The reads are behind comparisons with the length of the block, the arithmetic on the bytes fits its
types whatever the bytes are, and the month that indexes the table has been checked before.  The
time of a stamp is in 2000 at the earliest, so that the test for earlier times never rejects one.

Main definitions:

* `FillingPilot.Machine.extractS7Datetime`, `FillingPilot.Machine.handleNewReportRead` — the
  functions, with the arithmetic of their types and the kinds of faults.

Main results:

* `FillingPilot.FillStation.offsets_lt` — the offsets of a parsed station;
* `FillingPilot.year2000_le_of_extractS7Datetime` — **no stamp is read as earlier than 2000**;
* `FillingPilot.Machine.extractS7Datetime_eq` — a stamp is read without a fault;
* `FillingPilot.handleNewReportRead_total` — **a report is decoded without a fault**.
-/

import FillingPilot.DayCount
import FillingPilot.ReportCache

set_option relaxedAutoImplicit false
set_option autoImplicit false

namespace FillingPilot

open Gregorian Json Rust

/-! ### The functions with the arithmetic of their types -/

namespace Machine

variable (build : Build)

/-- `bcd_to_u8`. -/
def bcdToU8 (bcd : UInt8) : Faulty ℕ := do
  let tens ← build.unsigned 8 ((bcd >>> 4).toNat * 10 : ℕ)
  build.unsigned 8 (tens + (bcd &&& 0x0F).toNat : ℕ)

/-- `data[offset + i]`. -/
def byteAt (data : List UInt8) (offset i : ℕ) : Faulty UInt8 := do
  let position ← build.unsigned 64 (offset + i : ℕ)
  Faulty.index data position

/-- The milliseconds of a number of days and a time of day, in a `u64` that is taken for an `i64` at
the end. -/
def epochMillis (days hour min sec : ℕ) : Faulty ℤ := do
  let daySecs ← build.unsigned 64 (days * 86400 : ℕ)
  let hourSecs ← build.unsigned 64 (hour * 3600 : ℕ)
  let secs ← build.unsigned 64 (daySecs + hourSecs : ℕ)
  let minSecs ← build.unsigned 64 (min * 60 : ℕ)
  let secs ← build.unsigned 64 (secs + minSecs : ℕ)
  let secs ← build.unsigned 64 (secs + sec : ℕ)
  let millis ← build.unsigned 64 (secs * 1000 : ℕ)
  return Int.bmod millis (2 ^ 64)

/-- `extract_s7_datetime`. -/
def extractS7Datetime (data : List UInt8) (offset : ℕ) : Faulty (Option ℤ) := do
  let stop ← build.unsigned 64 (offset + 8 : ℕ)
  if data.length < stop then return none
  else do
    let yearBcd ← byteAt build data offset 0
    let monthBcd ← byteAt build data offset 1
    let dayBcd ← byteAt build data offset 2
    let hourBcd ← byteAt build data offset 3
    let minBcd ← byteAt build data offset 4
    let secBcd ← byteAt build data offset 5
    let yearOfCentury ← bcdToU8 build yearBcd
    let year ← build.signed 32 (yearOfCentury + 2000)
    let month ← bcdToU8 build monthBcd
    let day ← bcdToU8 build dayBcd
    let hour ← bcdToU8 build hourBcd
    let min ← bcdToU8 build minBcd
    let sec ← bcdToU8 build secBcd
    match ← daysSinceEpoch build year month day with
    | none => return none
    | some days => do
        let millis ← epochMillis build days hour min sec
        return some millis

/-- The task id: the copy into eight bytes panics for another number of them. -/
def readTaskId (station : FillStation) (reportData : List UInt8) : Faulty ℤ := do
  let stop ← build.unsigned 64 (station.reportDbTaskOffset + 8 : ℕ)
  if stop ≤ reportData.length then do
    let stop ← build.unsigned 64 (station.reportDbTaskOffset + 8 : ℕ)
    let buf ← Faulty.slice station.reportDbTaskOffset stop reportData
    if buf.length = 8 then return BigEndian.readSigned 8 buf else .fault .bounds
  else return 0

/-- `handle_new_report_read`. -/
def handleNewReportRead (station : FillStation) (lastReport : Option PlcReport)
    (reportData : List UInt8) (nowMillis : ℕ) : Faulty (Option PlcReport) := do
  let hexContent := hexEncode reportData
  let taskId ← readTaskId build station reportData
  match ← extractS7Datetime build reportData station.reportDbStartTimeOffset with
  | none => return none
  | some startTime =>
      if startTime < year2000 then return none
      else do
        let endTime := (← extractS7Datetime build reportData
          station.reportDbEndTimeOffset).getD 0
        let newReport : PlcReport := {
          reportId := Int.bmod nowMillis (2 ^ 64)
          fillStation := station.id
          taskId, startTime, endTime
          ip := station.ip
          port := station.port
          dbIndex := station.reportDb
          hexContent
          sent := false }
        match lastReport with
        | none => return none
        | some last =>
            if newReport.hexContent = last.hexContent then return none
            else if 0 < taskId then
              if last.taskId = taskId then return none else return some newReport
            else if newReport.startTime = last.startTime ∧ newReport.endTime = last.endTime then
              return none
            else return some newReport

end Machine

/-! ### Stations -/

theorem toUsize_lt {v : Option Value} {default : ℤ} (hdefault : default < 2 ^ 63) {n : ℕ}
    (h : toUsize ((v.bind Value.asI64).getD default) = some n) : n < 2 ^ 63 := by
  have hfield : (v.bind Value.asI64).getD default < 2 ^ 63 := by
    cases hvalue : v.bind Value.asI64 with
    | none => exact hdefault
    | some n =>
        obtain ⟨v, -, hn⟩ := Option.bind_eq_some_iff.1 hvalue
        exact Value.asI64_lt hn
  unfold toUsize at h
  split_ifs at h with hnonneg
  rw [← Option.some.inj h]
  omega

/-- **The offsets of a parsed station** are numbers of an `i64`. -/
theorem FillStation.offsets_lt {plcInfo : List Value} {station : FillStation}
    (h : station ∈ FillStation.parseFromPlcInfo plcInfo) :
    station.reportDbTaskOffset < 2 ^ 63 ∧ station.reportDbStartTimeOffset < 2 ^ 63 ∧
      station.reportDbEndTimeOffset < 2 ^ 63 := by
  obtain ⟨plc, -, hplc⟩ := List.mem_flatMap.1 h
  unfold fromPlc at hplc
  split at hplc
  · obtain ⟨fs, -, hfs⟩ := List.mem_filterMap.1 hplc
    simp only [fromEntry, Option.bind_eq_bind, Option.bind_eq_some_iff, Option.pure_def,
      Option.some.injEq] at hfs
    obtain ⟨-, -, -, -, -, -, -, -, task, htask, start, hstart, stop, hstop, -, -, rfl⟩ := hfs
    exact ⟨toUsize_lt (by decide) htask, toUsize_lt (by decide) hstart,
      toUsize_lt (by decide) hstop⟩
  · cases hplc

/-! ### Stamps -/

theorem bcdToU8_le (bcd : UInt8) : bcdToU8 bcd ≤ 165 := by
  have hbyte : bcd.toNat < 256 := bcd.toNat_lt
  unfold bcdToU8
  omega

/-- **No stamp is read as earlier than 2000.** -/
theorem year2000_le_of_extractS7Datetime {data : List UInt8} {offset : ℕ} {t : ℤ}
    (h : FillingPilot.extractS7Datetime data offset = some t) : year2000 ≤ t := by
  have hread : (FillingPilot.extractS7Datetime data offset).isSome := by rw [h]; rfl
  obtain ⟨hlen, hday⟩ := (extractS7Datetime_isSome data offset).1 hread
  rw [extractS7Datetime_eq hlen hday, Option.some.injEq] at h
  have hyear := daysBeforeYear_le (show (2000 : ℤ) ≤ (2000 + stampField data offset 0 : ℕ) by omega)
  have hfirst : daysBeforeYear 2000 = 10957 := by decide
  have hfield : 1 ≤ stampField data offset 2 := hday.2.1
  unfold year2000
  omega

namespace Machine

variable (build : Build)

theorem bcdToU8_eq (bcd : UInt8) :
    bcdToU8 build bcd = .ok (FillingPilot.bcdToU8 bcd) := by
  have hbyte : bcd.toNat < 256 := bcd.toNat_lt
  have htens : (bcd >>> 4).toNat = bcd.toNat / 16 := by
    rw [UInt8.toNat_shiftRight]
    exact Nat.shiftRight_eq_div_pow bcd.toNat 4
  have hones : (bcd &&& 0x0F).toNat = bcd.toNat % 16 := by
    rw [UInt8.toNat_and]
    exact Nat.and_two_pow_sub_one_eq_mod bcd.toNat 4
  rw [bcdToU8, htens, hones, build.unsigned_ok (by omega), Faulty.ok_bind,
    build.unsigned_ok (by omega), FillingPilot.bcdToU8]

theorem byteAt_eq {data : List UInt8} {offset i : ℕ} (hfits : offset + i < 2 ^ 64)
    (hinside : offset + i < data.length) :
    byteAt build data offset i = .ok (data.getD (offset + i) 0) := by
  rw [byteAt, build.unsigned_ok hfits, Faulty.ok_bind, Faulty.index_ok hinside,
    List.getD_eq_getElem _ _ hinside]

theorem year_eq (bcd : UInt8) :
    build.signed 32 ((FillingPilot.bcdToU8 bcd : ℤ) + 2000) =
      .ok ((FillingPilot.bcdToU8 bcd + 2000 : ℕ) : ℤ) := by
  have hle := bcdToU8_le bcd
  refine build.signed_ok ?_ ?_
  · omega
  · omega

theorem epochMillis_eq {days hour min sec : ℕ} (hdays : days < 2 ^ 32) (hhour : hour < 256)
    (hmin : min < 256) (hsec : sec < 256) :
    epochMillis build days hour min sec =
      .ok ((days * 86400 + hour * 3600 + min * 60 + sec) * 1000 : ℕ) := by
  rw [epochMillis, build.unsigned_ok (by omega), Faulty.ok_bind, build.unsigned_ok (by omega),
    Faulty.ok_bind, build.unsigned_ok (by omega), Faulty.ok_bind, build.unsigned_ok (by omega),
    Faulty.ok_bind, build.unsigned_ok (by omega), Faulty.ok_bind, build.unsigned_ok (by omega),
    Faulty.ok_bind, build.unsigned_ok (by omega), Faulty.ok_bind]
  exact congrArg Faulty.ok (Int.bmod_eq_of_le (by omega) (by omega))

/-- **A stamp is read without a fault**, at every offset whose sums fit. -/
theorem extractS7Datetime_eq (data : List UInt8) {offset : ℕ} (h : offset + 8 < 2 ^ 64) :
    extractS7Datetime build data offset = .ok (FillingPilot.extractS7Datetime data offset) := by
  unfold extractS7Datetime FillingPilot.extractS7Datetime
  rw [build.unsigned_ok h, Faulty.ok_bind]
  split_ifs with hshort
  · rfl
  · have hbyte : ∀ i < 8, byteAt build data offset i = .ok (data.getD (offset + i) 0) :=
      fun i hi => byteAt_eq build (by omega) (by omega)
    have hfield : ∀ i, FillingPilot.bcdToU8 (data.getD (offset + i) 0) < 256 :=
      fun i => (bcdToU8_le _).trans_lt (by decide)
    have hyear : FillingPilot.bcdToU8 (data.getD (offset + 0) 0) + 2000 < 2 ^ 31 :=
      (Nat.add_lt_add_right (hfield 0) 2000).trans (by decide)
    dsimp only
    rw [hbyte 0 (by omega), Faulty.ok_bind, hbyte 1 (by omega), Faulty.ok_bind,
      hbyte 2 (by omega), Faulty.ok_bind, hbyte 3 (by omega), Faulty.ok_bind,
      hbyte 4 (by omega), Faulty.ok_bind, hbyte 5 (by omega), Faulty.ok_bind]
    rw [bcdToU8_eq, Faulty.ok_bind, year_eq, Faulty.ok_bind, bcdToU8_eq, Faulty.ok_bind,
      bcdToU8_eq, Faulty.ok_bind, bcdToU8_eq, Faulty.ok_bind, bcdToU8_eq, Faulty.ok_bind,
      bcdToU8_eq, Faulty.ok_bind, daysSinceEpoch_eq build hyear, Faulty.ok_bind]
    cases hdays : FillingPilot.daysSinceEpoch
        (FillingPilot.bcdToU8 (data.getD (offset + 0) 0) + 2000)
        (FillingPilot.bcdToU8 (data.getD (offset + 1) 0))
        (FillingPilot.bcdToU8 (data.getD (offset + 2) 0)) with
    | none => rfl
    | some days =>
        have hcount := daysSinceEpoch_le hdays
        have hfirst := hfield 0
        dsimp only
        rw [epochMillis_eq build (by omega) (hfield 3) (hfield 4) (hfield 5), Faulty.ok_bind,
          Option.map_some, Faulty.pure_eq]

/-- The task id is read without a fault, at every offset whose sum fits. -/
theorem readTaskId_eq {station : FillStation} (h : station.reportDbTaskOffset + 8 < 2 ^ 64)
    (reportData : List UInt8) :
    readTaskId build station reportData = .ok (FillingPilot.readTaskId station reportData) := by
  unfold readTaskId FillingPilot.readTaskId
  rw [build.unsigned_ok h, Faulty.ok_bind]
  split_ifs with hinside
  · have hlen : (reportData.slice station.reportDbTaskOffset 8).length = 8 :=
      List.length_slice hinside
    rw [Faulty.ok_bind, Faulty.slice_ok (Nat.le_add_right _ _) hinside, Faulty.ok_bind,
      Nat.add_sub_cancel_left, if_pos hlen]
    rfl
  · rfl

/-- A report is decoded without a fault when the sums of the offsets fit. -/
theorem handleNewReportRead_eq {station : FillStation}
    (htask : station.reportDbTaskOffset + 8 < 2 ^ 64)
    (hstart : station.reportDbStartTimeOffset + 8 < 2 ^ 64)
    (hend : station.reportDbEndTimeOffset + 8 < 2 ^ 64) (lastReport : Option PlcReport)
    (reportData : List UInt8) (nowMillis : ℕ) :
    handleNewReportRead build station lastReport reportData nowMillis =
      .ok (FillingPilot.handleNewReportRead station lastReport reportData nowMillis) := by
  unfold handleNewReportRead FillingPilot.handleNewReportRead
  rw [readTaskId_eq build htask, Faulty.ok_bind, extractS7Datetime_eq build reportData hstart,
    Faulty.ok_bind]
  cases FillingPilot.extractS7Datetime reportData station.reportDbStartTimeOffset with
  | none => rfl
  | some startTime =>
      dsimp only [Option.bind_eq_bind, Option.bind_some]
      by_cases hearly : startTime < year2000
      · rw [if_pos hearly, if_pos hearly]
        rfl
      · rw [if_neg hearly, if_neg hearly, extractS7Datetime_eq build reportData hend,
          Faulty.ok_bind]
        cases lastReport with
        | none => rfl
        | some last =>
            dsimp only [Option.bind_some]
            split_ifs <;> rfl

end Machine

/-- **A report is decoded without a fault**: for a station of a `plcInfo` detail, whatever the block
holds, nothing is read outside it or outside the table of months, and no arithmetic leaves its type,
so that the decoding is the one with numbers without bounds.  A stamp that is read is in 2000 at the
earliest. -/
theorem handleNewReportRead_total {plcInfo : List Value} {station : FillStation}
    (h : station ∈ FillStation.parseFromPlcInfo plcInfo) (build : Build)
    (lastReport : Option PlcReport) (reportData : List UInt8) (nowMillis : ℕ) :
    Machine.handleNewReportRead build station lastReport reportData nowMillis =
        .ok (handleNewReportRead station lastReport reportData nowMillis) ∧
      ∀ offset < 2 ^ 63, ∀ t, Machine.extractS7Datetime build reportData offset = .ok (some t) →
        946684800000 ≤ t ∧ ¬ t < year2000 := by
  obtain ⟨htask, hstart, hend⟩ := FillStation.offsets_lt h
  refine ⟨Machine.handleNewReportRead_eq build (by omega) (by omega) (by omega) lastReport
    reportData nowMillis, fun offset hoffset t hread => ?_⟩
  rw [Machine.extractS7Datetime_eq build reportData (by omega)] at hread
  have hle := year2000_le_of_extractS7Datetime (Faulty.ok.inj hread)
  exact ⟨hle, Int.not_lt.2 hle⟩

/-- The PLC of the small station, as the cloud sends it. -/
def smallPlc : Value :=
  .object [("ipAddress", .string "10.0.0.1"), ("portNumber", .ofInt 102),
    ("fillStations", .array [.object [("id", .string "FS1"), ("reportDb", .ofInt 1),
      ("reportCount", .ofInt 2), ("reportDbSize", .ofInt 24), ("reportDbTaskOffset", .ofInt 0),
      ("reportDbStartTimeOffset", .ofInt 8), ("reportDbEndTimeOffset", .ofInt 16)]])]

/-- A block without a single decimal digit. -/
theorem handleNewReportRead_total_small :
    Machine.handleNewReportRead .checked smallStation none (List.replicate 24 0xFF) 5 =
      .ok (handleNewReportRead smallStation none (List.replicate 24 0xFF) 5) := by
  have hstation : smallStation ∈ FillStation.parseFromPlcInfo [smallPlc] := by decide
  exact (handleNewReportRead_total hstation .checked none (List.replicate 24 0xFF) 5).1

end FillingPilot
