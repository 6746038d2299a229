/-
The report cache: a list of reports for each filling station.

Each station has a list of reports, oldest first.  A read of the station's report block is compared
with the last report of its list: a new task (or, without a task id, new times) becomes a new
report, the same task with other content rewrites the last report, and anything else changes
nothing.  Reports are sent to the server until it acknowledges them by id.

The functions below are the bodies of the lock sections of the cache.  A hash map is an association
list with distinct keys, so its iteration order is the order of its entries.

Main definitions:

* `FillingPilot.handleNewReportRead` — the new report a read gives rise to, if any;
* `FillingPilot.appendReport`, `FillingPilot.refreshLast` — the two ways a read changes a list;
* `FillingPilot.readReport`, `FillingPilot.deleteReport`, `FillingPilot.updateFillStations` — the
  operations of the cache;
* `FillingPilot.unsentReports`, `FillingPilot.unsentMessages` — what a pass sends.

Main results:

* `FillingPilot.handleNewReportRead_eq_some` — **the decision**: a read gives a new report exactly
  when it has a valid start time and differs from the last report of a non-empty list;
* `FillingPilot.reportsOf_readReport_self`, `FillingPilot.reportsOf_deleteReport`,
  `FillingPilot.reportsOf_updateFillStations` — what the operations do to the list of a station.
-/

import FillingPilot.AssocMap
import FillingPilot.BigEndian
import FillingPilot.FillStation
import FillingPilot.RustStd
import FillingPilot.S7DateTime
import Mathlib.Data.List.Dedup

set_option relaxedAutoImplicit false
set_option autoImplicit false

namespace FillingPilot

open Json Rust

/-- The cache: the reports of each station, oldest first. -/
abbrev Caches := AList fun _ : FillStation => List PlcReport

/-- The reports of a station; none when the cache does not know it. -/
def reportsOf (caches : Caches) (station : FillStation) : List PlcReport :=
  (caches.lookup station).getD []

/-! ### One read -/

/-- The task id in a report block: a big-endian `i64`, or 0 when the block is too short. -/
def readTaskId (station : FillStation) (reportData : List UInt8) : ℤ :=
  if station.reportDbTaskOffset + 8 ≤ reportData.length then
    BigEndian.readSigned 8 ((reportData.drop station.reportDbTaskOffset).take 8)
  else 0

/-- The new report a read gives rise to, if any. -/
def handleNewReportRead (station : FillStation) (lastReport : Option PlcReport)
    (reportData : List UInt8) (nowMillis : ℕ) : Option PlcReport := do
  let hexContent := hexEncode reportData
  let taskId := readTaskId station reportData
  let startTime ← extractS7Datetime reportData station.reportDbStartTimeOffset
  if startTime < year2000 then none
  else
    let endTime := (extractS7Datetime reportData station.reportDbEndTimeOffset).getD 0
    let newReport : PlcReport := {
      reportId := Int.bmod nowMillis (2 ^ 64)
      fillStation := station.id
      taskId, startTime, endTime
      ip := station.ip
      port := station.port
      dbIndex := station.reportDb
      hexContent
      sent := false }
    -- the first read of a station has nothing to be compared with, and gives no report either
    let last ← lastReport
    if newReport.hexContent = last.hexContent then none
    else if 0 < taskId then
      if last.taskId = taskId then none else some newReport
    else if newReport.startTime = last.startTime ∧ newReport.endTime = last.endTime then none
    else some newReport

/-- A list with a new report at its end: the oldest report goes when the list is full, and then
every report that was sent. -/
def appendReport (station : FillStation) (reports : List PlcReport) (report : PlcReport) :
    List PlcReport :=
  let popped := if station.reportCount ≤ reports.length then reports.drop 1 else reports
  popped.filter (fun r => !r.sent) ++ [report]

/-- A list whose last report, unless it was sent, takes the content of a read. -/
def refreshLast (hex : String) (reports : List PlcReport) : List PlcReport :=
  match reports.getLast? with
  | none => reports
  | some last =>
      if !last.sent ∧ hex ≠ last.hexContent then
        reports.dropLast ++ [{ last with hexContent := hex, sent := false }]
      else reports

/-- The list of a station after a read. -/
def readInto (station : FillStation) (reportData : List UInt8) (nowMillis : ℕ)
    (reports : List PlcReport) : List PlcReport :=
  match handleNewReportRead station reports.getLast? reportData nowMillis with
  | some report => appendReport station reports report
  | none => refreshLast (hexEncode reportData) reports

/-! ### The operations of the cache -/

/-- One read of a station: `read` is what the PLC answered, `none` an error. -/
def readReport (station : FillStation) (read : Option (List UInt8)) (nowMillis : ℕ)
    (caches : Caches) : Caches :=
  if station.reportDb ≤ 0 then caches
  else match read with
    | none => caches
    | some reportData =>
        -- an entry is made for a station the cache does not know
        caches.insert station (readInto station reportData nowMillis (reportsOf caches station))

/-- A report with an acknowledged id is marked as sent. -/
def PlcReport.acknowledge (reportId : ℤ) (r : PlcReport) : PlcReport :=
  if r.reportId = reportId then { r with sent := true } else r

/-- Every report with the acknowledged id, in every list, is marked as sent. -/
def deleteReport (reportId : ℤ) (caches : Caches) : Caches :=
  caches.mapValues (List.map (PlcReport.acknowledge reportId))

/-- The stations of a new configuration: the others are dropped, the new ones start empty. -/
def updateFillStations (stations : List FillStation) (caches : Caches) : Caches :=
  (caches.filterKeys (fun s => s ∈ stations)).insertAll []
    (stations.dedup.filter fun s => s ∉ caches.keys)

/-- The message a report is sent as. -/
def reportMessage (r : PlcReport) : String × Value := ("report", r.toJson)

/-- The unsent reports, with their stations. -/
def unsentReports (caches : Caches) : List (FillStation × PlcReport) :=
  caches.entries.flatMap fun e => (e.2.filter fun r => !r.sent).map fun r => (e.1, r)

/-- The messages of the unsent reports. -/
def unsentMessages (caches : Caches) : List (String × Value) :=
  caches.entries.flatMap fun e => (e.2.filter fun r => !r.sent).map reportMessage

/-- One pass: every station of the snapshot is read in turn, then the unsent reports are
collected. -/
def readAndSendReportsDirect (stations : List FillStation)
    (read : FillStation → Option (List UInt8)) (nowMillis : FillStation → ℕ) (caches : Caches) :
    Caches × List (String × Value) :=
  let caches' := stations.foldl (fun c s => readReport s (read s) (nowMillis s) c) caches
  (caches', unsentMessages caches')

/-! ### The decision -/

/-- The start time of a read can be extracted and is not before 2000-01-01. -/
def validStart (station : FillStation) (reportData : List UInt8) : Bool :=
  (extractS7Datetime reportData station.reportDbStartTimeOffset).any fun t => year2000 ≤ t

/-- The report a read with a valid start time describes. -/
def reportOfRead (station : FillStation) (reportData : List UInt8) (nowMillis : ℕ) :
    PlcReport where
  reportId := Int.bmod nowMillis (2 ^ 64)
  fillStation := station.id
  taskId := readTaskId station reportData
  startTime := (extractS7Datetime reportData station.reportDbStartTimeOffset).getD 0
  endTime := (extractS7Datetime reportData station.reportDbEndTimeOffset).getD 0
  ip := station.ip
  port := station.port
  dbIndex := station.reportDb
  hexContent := hexEncode reportData
  sent := false

/-- A report is new after `last`: other content, and another task or, without a task id, other
times. -/
def IsNew (last r : PlcReport) : Prop :=
  r.hexContent ≠ last.hexContent ∧
    if 0 < r.taskId then last.taskId ≠ r.taskId
    else ¬(r.startTime = last.startTime ∧ r.endTime = last.endTime)

instance (last r : PlcReport) : Decidable (IsNew last r) := by
  unfold IsNew
  infer_instance

/-- The decision of a read in one line: a valid read that is new after the last report. -/
theorem handleNewReportRead_eq (station : FillStation) (lastReport : Option PlcReport)
    (reportData : List UInt8) (nowMillis : ℕ) :
    handleNewReportRead station lastReport reportData nowMillis =
      if validStart station reportData then
        lastReport.bind fun last =>
          if IsNew last (reportOfRead station reportData nowMillis) then
            some (reportOfRead station reportData nowMillis)
          else none
      else none := by
  unfold handleNewReportRead validStart IsNew reportOfRead
  cases hstart : extractS7Datetime reportData station.reportDbStartTimeOffset with
  | none => simp
  | some t =>
      by_cases ht : t < year2000
      · simp [ht, Int.not_le.2 ht]
      · cases lastReport with
        | none => simp
        | some last =>
            have hle : year2000 ≤ t := Int.not_lt.1 ht
            simp only [Option.bind_eq_bind, Option.bind_some, if_neg ht, Option.any_some,
              decide_eq_true_eq, if_pos hle, Option.getD_some]
            split_ifs <;> simp_all

/-- **The decision**: a read gives a new report exactly when it has a valid start time and is new
after the last report of a non-empty list. -/
theorem handleNewReportRead_eq_some {station : FillStation} {lastReport : Option PlcReport}
    {reportData : List UInt8} {nowMillis : ℕ} {r : PlcReport} :
    handleNewReportRead station lastReport reportData nowMillis = some r ↔
      validStart station reportData = true ∧ r = reportOfRead station reportData nowMillis ∧
        ∃ last, lastReport = some last ∧ IsNew last r := by
  rw [handleNewReportRead_eq]
  constructor
  · intro h
    split_ifs at h with hvalid
    obtain ⟨last, hlast, h⟩ := Option.bind_eq_some_iff.1 h
    split_ifs at h with hnew
    rw [Option.some.injEq] at h
    exact ⟨hvalid, h.symm, last, hlast, h ▸ hnew⟩
  · rintro ⟨hvalid, rfl, last, rfl, hnew⟩
    rw [if_pos hvalid, Option.bind_some, if_pos hnew]

/-! ### Lists of reports -/

@[simp] theorem getLast?_appendReport (station : FillStation) (reports : List PlcReport)
    (r : PlcReport) : (appendReport station reports r).getLast? = some r := by
  simp [appendReport]

/-- What a read of the same task leaves as the last report. -/
def PlcReport.refresh (hex : String) (r : PlcReport) : PlcReport :=
  if r.sent then r else { r with hexContent := hex }

theorem PlcReport.refresh_of_sent {hex : String} {r : PlcReport} (h : r.sent = true) :
    r.refresh hex = r := by
  simp [refresh, h]

theorem PlcReport.refresh_of_unsent {hex : String} {r : PlcReport} (h : r.sent = false) :
    r.refresh hex = { r with hexContent := hex } := by
  simp [refresh, h]

@[simp] theorem PlcReport.refresh_taskId (hex : String) (r : PlcReport) :
    (r.refresh hex).taskId = r.taskId := by
  unfold refresh
  split <;> rfl

/-- A refresh rewrites the last report and nothing else. -/
theorem refreshLast_concat (hex : String) (reports : List PlcReport) (last : PlcReport) :
    refreshLast hex (reports ++ [last]) = reports ++ [last.refresh hex] := by
  obtain ⟨reportId, fillStation, taskId, startTime, endTime, ip, port, dbIndex, content, sent⟩ :=
    last
  cases sent with
  | true => simp [refreshLast, PlcReport.refresh]
  | false =>
      by_cases hhex : hex = content
      · simp [refreshLast, PlcReport.refresh, hhex]
      · simp [refreshLast, PlcReport.refresh, hhex]

@[simp] theorem refreshLast_nil (hex : String) : refreshLast hex [] = [] := rfl

theorem getLast?_refreshLast (hex : String) (reports : List PlcReport) :
    (refreshLast hex reports).getLast? = reports.getLast?.map (PlcReport.refresh hex) := by
  induction reports using List.reverseRecOn with
  | nil => simp
  | append_singleton reports last _ => simp [refreshLast_concat]

/-! ### The list of a station under the operations -/

@[simp] theorem readReport_none (station : FillStation) (nowMillis : ℕ) (caches : Caches) :
    readReport station none nowMillis caches = caches := by
  simp [readReport]

theorem readReport_of_not_pos {station : FillStation} (hdb : ¬ 0 < station.reportDb)
    (read : Option (List UInt8)) (nowMillis : ℕ) (caches : Caches) :
    readReport station read nowMillis caches = caches :=
  if_pos (Int.not_lt.1 hdb)

theorem reportsOf_readReport_self {station : FillStation} (hdb : 0 < station.reportDb)
    (reportData : List UInt8) (nowMillis : ℕ) (caches : Caches) :
    reportsOf (readReport station (some reportData) nowMillis caches) station =
      readInto station reportData nowMillis (reportsOf caches station) := by
  simp [reportsOf, readReport, Int.not_le.2 hdb]

theorem reportsOf_readReport_ne {station other : FillStation} (h : other ≠ station)
    (read : Option (List UInt8)) (nowMillis : ℕ) (caches : Caches) :
    reportsOf (readReport station read nowMillis caches) other = reportsOf caches other := by
  unfold readReport
  split_ifs with hdb
  · rfl
  · cases read with
    | none => rfl
    | some reportData => simp [reportsOf, AList.lookup_insert_ne h]

@[simp] theorem reportsOf_deleteReport (reportId : ℤ) (caches : Caches) (station : FillStation) :
    reportsOf (deleteReport reportId caches) station =
      (reportsOf caches station).map (PlcReport.acknowledge reportId) := by
  unfold reportsOf deleteReport
  rw [AList.lookup_mapValues]
  cases caches.lookup station <;> simp

theorem mem_readReport {station other : FillStation} {read : Option (List UInt8)}
    {nowMillis : ℕ} {caches : Caches} :
    other ∈ readReport station read nowMillis caches ↔
      other ∈ caches ∨ (other = station ∧ 0 < station.reportDb ∧ read.isSome) := by
  unfold readReport
  split_ifs with hdb
  · simp [Int.not_lt.2 hdb]
  · cases read with
    | none => simp
    | some reportData =>
        rw [AList.mem_insert]
        simp only [Int.not_le.1 hdb, Option.isSome_some, and_self, and_true]
        exact or_comm

@[simp] theorem mem_deleteReport {reportId : ℤ} {caches : Caches} {station : FillStation} :
    station ∈ deleteReport reportId caches ↔ station ∈ caches := by
  rw [AList.mem_keys, AList.mem_keys, deleteReport, AList.keys_mapValues]

@[simp] theorem mem_updateFillStations {stations : List FillStation} {caches : Caches}
    {station : FillStation} :
    station ∈ updateFillStations stations caches ↔ station ∈ stations := by
  simp only [updateFillStations, AList.mem_insertAll, AList.mem_filterKeys, List.mem_filter,
    List.mem_dedup, decide_eq_true_eq, ← AList.mem_keys]
  tauto

theorem reportsOf_updateFillStations (stations : List FillStation) (caches : Caches)
    (station : FillStation) :
    reportsOf (updateFillStations stations caches) station =
      if station ∈ stations then reportsOf caches station else [] := by
  simp only [reportsOf, updateFillStations, AList.lookup_insertAll, AList.lookup_filterKeys]
  by_cases hnew : station ∈ stations
  · by_cases hold : station ∈ caches.keys
    · simp [hnew, hold]
    · have hnone : caches.lookup station = none := AList.lookup_eq_none.2 (AList.mem_keys.not.2 hold)
      simp [hnew, hold, hnone]
  · simp [hnew]

theorem unsentMessages_eq (caches : Caches) :
    unsentMessages caches = (unsentReports caches).map fun p => reportMessage p.2 := by
  simp only [unsentMessages, unsentReports, List.map_flatMap, List.map_map]
  rfl

theorem mem_unsentReports {caches : Caches} {p : FillStation × PlcReport} :
    p ∈ unsentReports caches ↔ p.2 ∈ reportsOf caches p.1 ∧ p.2.sent = false := by
  obtain ⟨station, r⟩ := p
  simp only [unsentReports, List.mem_flatMap, List.mem_map, List.mem_filter, Bool.not_eq_true']
  constructor
  · rintro ⟨⟨station', reports⟩, he, r', ⟨hr, hsent⟩, heq⟩
    obtain ⟨rfl, rfl⟩ := Prod.mk.inj heq
    have hlookup := AList.mem_entries_iff.1 he
    exact ⟨by simpa [reportsOf, hlookup] using hr, hsent⟩
  · rintro ⟨hr, hsent⟩
    cases hlookup : caches.lookup station with
    | none => simp [reportsOf, hlookup] at hr
    | some reports =>
        have hr' : r ∈ reports := by simpa [reportsOf, hlookup] using hr
        exact ⟨⟨station, reports⟩, AList.mem_entries_iff.2 hlookup, r, ⟨hr', hsent⟩, rfl⟩

theorem mem_unsentMessages {caches : Caches} {m : String × Value} :
    m ∈ unsentMessages caches ↔
      ∃ station, ∃ r ∈ reportsOf caches station, r.sent = false ∧ m = reportMessage r := by
  rw [unsentMessages_eq, List.mem_map]
  constructor
  · rintro ⟨p, hp, rfl⟩
    obtain ⟨hr, hsent⟩ := mem_unsentReports.1 hp
    exact ⟨p.1, p.2, hr, hsent, rfl⟩
  · rintro ⟨station, r, hr, hsent, rfl⟩
    have hp : (station, r) ∈ unsentReports caches := mem_unsentReports.2 ⟨hr, hsent⟩
    exact ⟨(station, r), hp, rfl⟩

/-! ### A small station -/

/-- A station whose report block holds a task id, a start time and an end time, eight bytes each,
and whose list takes two reports. -/
def smallStation : FillStation where
  id := "FS1"
  ip := "10.0.0.1"
  port := 102
  reportDb := 1
  statusDb := 0
  reportCount := 2
  reportDbSize := 24
  reportDbTaskOffset := 0
  reportDbStartTimeOffset := 8
  reportDbEndTimeOffset := 16
  statusDbSize := 38

/-- The block of a task that started on a day of January 2024 and has reached a minute of that
day. -/
def smallBlock (task day minute : UInt8) : List UInt8 :=
  [0, 0, 0, 0, 0, 0, 0, task] ++ [0x24, 1, day, 0, 0, 0, 0, 0] ++ [0x24, 1, day, 0, minute, 0, 0, 0]

/-- A cache that knows the small station with one unsent report, of task 1 with id 10. -/
def oneReportCache : Caches :=
  AList.singleton smallStation [reportOfRead smallStation (smallBlock 1 1 0) 10]

example : handleNewReportRead smallStation (some (reportOfRead smallStation (smallBlock 1 1 0) 5))
    (smallBlock 2 2 0) 9 = some (reportOfRead smallStation (smallBlock 2 2 0) 9) := by decide

end FillingPilot
