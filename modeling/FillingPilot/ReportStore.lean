/-
**Reports on the disk.**

The reports are written to a file as one JSON object: a member for each station, whose name is the
station's record printed as JSON, and whose value is the array of its reports.  On startup the file
is read back as a map from stations to lists of reports.  The two do not fit: a record is printed
into the name of a member but cannot be read from one, and the `sent` flag is left out by the writer
and demanded by the reader.

Main definitions:

* `FillingPilot.PlcReport.fromJson`, `FillingPilot.FillStation.fromKey` — the derived readers of the
  two records;
* `FillingPilot.persistReports`, `FillingPilot.loadReports` — the writer and the reader;
* `FillingPilot.Restored` — the reports of every station are back.

Main results:

* `FillingPilot.fromJson_of_members`, `FillingPilot.fromJson_toJson` — a report is read back from what
  the writer writes with the flag, and only with the flag;
* `FillingPilot.loadReports_persistReports` — what is loaded after a restart: nothing;
* `FillingPilot.restored_iff` — **the exact condition**: only the empty lists are restored;
* `FillingPilot.restart_loses_report` — a cache with one report, before and after a restart.
-/

import FillingPilot.ReportCache
import FillingPilot.Serde

set_option relaxedAutoImplicit false
set_option autoImplicit false

namespace FillingPilot

open Json

/-! ### The records -/

/-- The JSON object a station is serialized to. -/
def FillStation.toJson (s : FillStation) : Value :=
  .object [("id", .string s.id), ("ip", .string s.ip), ("port", .ofInt s.port.toNat),
    ("reportDb", .ofInt s.reportDb), ("statusDb", .ofInt s.statusDb),
    ("reportCount", .ofInt s.reportCount), ("reportDbSize", .ofInt s.reportDbSize),
    ("reportDbTaskOffset", .ofInt s.reportDbTaskOffset),
    ("reportDbStartTimeOffset", .ofInt s.reportDbStartTimeOffset),
    ("reportDbEndTimeOffset", .ofInt s.reportDbEndTimeOffset),
    ("statusDbSize", .ofInt s.statusDbSize)]

/-- A station as the key of a map: the name of a member is read back as a text or an integer only,
and a station is a record. -/
def FillStation.fromKey (_ : String) : Option FillStation := none

/-- An integer of the range of `u16`. -/
def readU16 (v : Value) : Option UInt16 :=
  (v.asU64.filter fun n => decide (n < 2 ^ 16)).map fun n => UInt16.ofNat n.toNat

/-- The report a JSON object is read as: every field is demanded, the flag too. -/
def PlcReport.fromJson (v : Value) : Option PlcReport := do
  let reportId ← (v.get "reportId").bind Value.asI64
  let fillStation ← (v.get "fillStation").bind Value.asStr
  let taskId ← (v.get "taskId").bind Value.asI64
  let startTime ← (v.get "startTime").bind Value.asI64
  let endTime ← (v.get "endTime").bind Value.asI64
  let ip ← (v.get "ip").bind Value.asStr
  let port ← (v.get "port").bind readU16
  let dbIndex ← ((v.get "dbIndex").bind Value.asI64).bind toI32
  let hexContent ← (v.get "hexContent").bind Value.asStr
  let sent ← (v.get "sent").bind Value.asBool
  return {
    reportId, fillStation, taskId, startTime, endTime, ip, port, dbIndex, hexContent, sent }

/-- The integers of the report are in the ranges of their types. -/
structure PlcReport.InRange (r : PlcReport) : Prop where
  reportId : -2 ^ 63 ≤ r.reportId ∧ r.reportId < 2 ^ 63
  taskId : -2 ^ 63 ≤ r.taskId ∧ r.taskId < 2 ^ 63
  startTime : -2 ^ 63 ≤ r.startTime ∧ r.startTime < 2 ^ 63
  endTime : -2 ^ 63 ≤ r.endTime ∧ r.endTime < 2 ^ 63
  dbIndex : -2 ^ 31 ≤ r.dbIndex ∧ r.dbIndex < 2 ^ 31

/-- A port is read back. -/
theorem readU16_ofInt (port : UInt16) : readU16 (.ofInt port.toNat) = some port := by
  have hlt : port.toNat < 65536 := port.toNat_lt
  have hbound : decide ((port.toNat : ℤ) < 2 ^ 16) = true := decide_eq_true (by omega)
  rw [readU16, Value.asU64_ofInt (by omega) (by omega), Option.filter_some, if_pos hbound,
    Option.map_some, Int.toNat_natCast, UInt16.ofNat_toNat]

/-- A number of a data block is read back. -/
theorem toI32_asI64_ofInt {n : ℤ} (h : -2 ^ 31 ≤ n ∧ n < 2 ^ 31) :
    (Value.ofInt n).asI64.bind toI32 = some n := by
  rw [Value.asI64_ofInt (by omega) (by omega), Option.bind_some, toI32, if_pos h]

/-- A member that is there and can be read. -/
theorem bind_of_get {α : Type} {v x : Value} {name : String} {read : Value → Option α} {a : α}
    (hget : v.get name = some x) (hread : read x = some a) : (v.get name).bind read = some a := by
  rw [hget, Option.bind_some, hread]

/-- The reader reads a report from every object that has the members the writer writes, and the
flag. -/
theorem fromJson_of_members {r : PlcReport} (h : r.InRange) {v : Value}
    (hmembers : ∀ name x, r.toJson.get name = some x → v.get name = some x)
    (hsent : v.get "sent" = some (.bool r.sent)) : PlcReport.fromJson v = some r := by
  have hreportId := bind_of_get (hmembers "reportId" _ rfl)
    (Value.asI64_ofInt h.reportId.1 h.reportId.2)
  have hstation : (v.get "fillStation").bind Value.asStr = some r.fillStation :=
    bind_of_get (hmembers "fillStation" _ rfl) rfl
  have htaskId := bind_of_get (hmembers "taskId" _ rfl) (Value.asI64_ofInt h.taskId.1 h.taskId.2)
  have hstart := bind_of_get (hmembers "startTime" _ rfl)
    (Value.asI64_ofInt h.startTime.1 h.startTime.2)
  have hend := bind_of_get (hmembers "endTime" _ rfl)
    (Value.asI64_ofInt h.endTime.1 h.endTime.2)
  have hip : (v.get "ip").bind Value.asStr = some r.ip := bind_of_get (hmembers "ip" _ rfl) rfl
  have hport := bind_of_get (hmembers "port" _ rfl) (readU16_ofInt r.port)
  have hdbIndex : ((v.get "dbIndex").bind Value.asI64).bind toI32 = some r.dbIndex := by
    rw [hmembers "dbIndex" _ rfl, Option.bind_some, toI32_asI64_ofInt h.dbIndex]
  have hcontent : (v.get "hexContent").bind Value.asStr = some r.hexContent :=
    bind_of_get (hmembers "hexContent" _ rfl) rfl
  have hflag : (v.get "sent").bind Value.asBool = some r.sent := bind_of_get hsent rfl
  rw [PlcReport.fromJson, hreportId, hstation, htaskId, hstart, hend, hip, hport, hdbIndex, hcontent,
    hflag]
  rfl

/-- The flag is not written, so that a report is not read back. -/
theorem fromJson_toJson (r : PlcReport) : PlcReport.fromJson r.toJson = none := by
  have hsent : r.toJson.get "sent" = none := rfl
  simp [PlcReport.fromJson, hsent]

/-! ### The file -/

/-- What is written to the file, `none` standing for no file: nothing for a cache without stations,
otherwise a member for each station.  `toText` prints a value as a text. -/
def persistReports (toText : Value → String) (caches : Caches) (file : Option Value) :
    Option Value :=
  let snapshot : AList fun _ : String => Value := (∅ : AList fun _ : String => Value).insertPairs
    (caches.entries.map fun e => (toText e.1.toJson, .array (e.2.map PlcReport.toJson)))
  if snapshot.entries.isEmpty then file
  else some (.object (snapshot.entries.map fun e => (e.1, e.2)))

/-- The cache after the file was read: each station of the file takes the list it has there; a file
that cannot be read changes nothing. -/
def loadReports (file : Option Value) (caches : Caches) : Caches :=
  match file with
  | none => caches
  | some content =>
      match readMap FillStation.fromKey (readVec PlcReport.fromJson) content with
      | some loaded => caches.insertPairs loaded
      | none => caches

/-- **What is loaded after a restart**: nothing, as soon as there was a station. -/
theorem loadReports_persistReports (toText : Value → String) {caches : Caches}
    {station : FillStation} (hstation : station ∈ caches) (file : Option Value) (caches' : Caches) :
    loadReports (persistReports toText caches file) caches' = caches' := by
  obtain ⟨reports, hreports⟩ := Option.isSome_iff_exists.1 (AList.lookup_isSome.2 hstation)
  have hentry := AList.mem_entries_iff.2 hreports
  -- the station has a member in the file, and one member is enough for the reading to fail
  have hkey : toText station.toJson ∈ (caches.entries.map fun e =>
      (toText e.1.toJson, Value.array (e.2.map PlcReport.toJson))).map Prod.fst := by
    rw [List.map_map]
    exact List.mem_map_of_mem hentry
  obtain ⟨value, -, hlookup⟩ := AList.lookup_insertPairs_of_mem hkey ∅
  have hsnapshot := List.ne_nil_of_mem (AList.mem_entries_iff.2 hlookup)
  have hempty := List.isEmpty_eq_false_iff.2 hsnapshot
  have hkeys : ∀ name, FillStation.fromKey name = none := fun _ => rfl
  simp only [persistReports, hempty, Bool.false_eq_true, if_false, loadReports]
  rw [readMap_of_unreadable hkeys (mt List.map_eq_nil_iff.1 hsnapshot)]

/-- The reports of every station are back, in their order, as far as the flag. -/
def Restored (before after : Caches) : Prop :=
  ∀ station, (reportsOf after station).map (fun r => { r with sent := false }) =
    (reportsOf before station).map fun r => { r with sent := false }

/-- **The exact condition**: the reports of a cache that has a station survive a restart exactly
when there are none. -/
theorem restored_iff (toText : Value → String) {caches : Caches} {station : FillStation}
    (hstation : station ∈ caches) (file : Option Value) :
    Restored caches (loadReports (persistReports toText caches file) ∅) ↔
      ∀ s, reportsOf caches s = [] := by
  rw [loadReports_persistReports toText hstation]
  refine forall_congr' fun s => ?_
  have hnone : reportsOf ∅ s = [] := rfl
  rw [hnone, List.map_nil, eq_comm, List.map_eq_nil_iff]

theorem restored_iff_oneReport :
    ¬ Restored oneReportCache (loadReports (persistReports (fun _ => "") oneReportCache none) ∅) := by
  have hstation : smallStation ∈ oneReportCache := by decide
  rw [restored_iff (fun _ => "") hstation]
  intro h
  exact absurd (h smallStation) (by decide)

/-- **A report is lost in a restart**, however the texts are printed: the cache has one, and nothing
is loaded. -/
theorem restart_loses_report :
    smallStation ∈ oneReportCache ∧ (reportsOf oneReportCache smallStation).length = 1 ∧
      ∀ toText : Value → String,
        ¬ Restored oneReportCache (loadReports (persistReports toText oneReportCache none) ∅) := by
  refine ⟨by decide, by decide, fun toText h => ?_⟩
  have hback := h smallStation
  rw [loadReports_persistReports toText (by decide : smallStation ∈ oneReportCache)] at hback
  exact absurd (congrArg List.length hback) (by decide)

end FillingPilot
