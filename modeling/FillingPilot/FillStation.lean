/-
Filling stations and reports: the two record types of the report cache.

Main definitions:

* `FillingPilot.FillStation` — the configuration of a station, its key in the report cache;
* `FillingPilot.FillStation.parseFromPlcInfo` — the stations of a list of PLC objects;
* `FillingPilot.PlcReport` — a report, and `FillingPilot.PlcReport.toJson`, the object it is sent
  as.

Main results:

* `FillingPilot.FillStation.mem_parseFromPlcInfo` — a parsed station comes from one of the PLC
  objects and carries its address and port.
-/

import FillingPilot.Json
import Mathlib.Tactic.Common

set_option relaxedAutoImplicit false
set_option autoImplicit false

namespace FillingPilot

open Json

/-! ### Stations -/

/-- The configuration of a filling station: address, data block numbers and report layout. -/
structure FillStation where
  id : String
  ip : String
  port : UInt16
  /-- An `i32`; 0 or less means that no report is read. -/
  reportDb : ℤ
  statusDb : ℤ
  reportCount : ℕ
  reportDbSize : ℕ
  reportDbTaskOffset : ℕ
  reportDbStartTimeOffset : ℕ
  reportDbEndTimeOffset : ℕ
  statusDbSize : ℕ
  deriving DecidableEq

/-- An `i64` read back as an `i32`. -/
def toI32 (n : ℤ) : Option ℤ := if -2 ^ 31 ≤ n ∧ n < 2 ^ 31 then some n else none

/-- An `i64` read back as a `usize`. -/
def toUsize (n : ℤ) : Option ℕ := if 0 ≤ n then some n.toNat else none

/-- The address and port of a PLC object; an object without one of them is skipped. -/
def plcAddress (plc : Value) : Option (String × UInt16) := do
  let ip ← (plc.get "ipAddress").bind Value.asStr
  let port ← (plc.get "portNumber").bind Value.asU64
  return (ip, UInt16.ofNat port.toNat)

namespace FillStation

/-- The station of one entry of `fillStations`: an absent field takes its default, a field outside
the range of its Rust type makes the entry unreadable. -/
def fromEntry (ip : String) (port : UInt16) (fs : Value) : Option FillStation := do
  let field (name : String) (default : ℤ) : ℤ :=
    ((fs.get name).bind Value.asI64).getD default
  let reportDb ← toI32 (field "reportDb" 0)
  let statusDb ← toI32 (field "statusDb" 0)
  let reportCount ← toUsize (field "reportCount" 50)
  let reportDbSize ← toUsize (field "reportDbSize" 808)
  let reportDbTaskOffset ← toUsize (field "reportDbTaskOffset" 780)
  let reportDbStartTimeOffset ← toUsize (field "reportDbStartTimeOffset" 472)
  let reportDbEndTimeOffset ← toUsize (field "reportDbEndTimeOffset" 480)
  let statusDbSize ← toUsize (field "statusDbSize" 38)
  return {
    id := ((fs.get "id").bind Value.asStr).getD ""
    ip, port, reportDb, statusDb, reportCount, reportDbSize, reportDbTaskOffset
    reportDbStartTimeOffset, reportDbEndTimeOffset, statusDbSize }

/-- The stations of one PLC object. -/
def fromPlc (plc : Value) : List FillStation :=
  match plcAddress plc, (plc.get "fillStations").bind Value.asArray with
  | some (ip, port), some entries => entries.filterMap (fromEntry ip port)
  | _, _ => []

/-- The stations of a `plcInfo` detail, in its order. -/
def parseFromPlcInfo (plcInfo : List Value) : List FillStation := plcInfo.flatMap fromPlc

theorem fromEntry_address {ip : String} {port : UInt16} {fs : Value} {s : FillStation}
    (h : fromEntry ip port fs = some s) : s.ip = ip ∧ s.port = port := by
  simp only [fromEntry, Option.bind_eq_bind, Option.bind_eq_some_iff, Option.pure_def,
    Option.some.injEq] at h
  obtain ⟨-, -, -, -, -, -, -, -, -, -, -, -, -, -, -, -, rfl⟩ := h
  exact ⟨rfl, rfl⟩

theorem mem_parseFromPlcInfo {plcInfo : List Value} {s : FillStation}
    (h : s ∈ parseFromPlcInfo plcInfo) :
    ∃ plc ∈ plcInfo, plcAddress plc = some (s.ip, s.port) := by
  obtain ⟨plc, hplc, hs⟩ := List.mem_flatMap.1 h
  refine ⟨plc, hplc, ?_⟩
  unfold fromPlc at hs
  split at hs
  · rename_i ip port entries haddr hentries
    obtain ⟨fs, -, hfs⟩ := List.mem_filterMap.1 hs
    obtain ⟨hip, hport⟩ := fromEntry_address hfs
    rw [haddr, hip, hport]
  · simp at hs

end FillStation

/-! ### Reports -/

/-- A report read from a station.  `reportId`, `taskId`, `startTime` and `endTime` are `i64`s; the
times are epoch milliseconds. -/
structure PlcReport where
  reportId : ℤ
  fillStation : String
  taskId : ℤ
  startTime : ℤ
  endTime : ℤ
  ip : String
  port : UInt16
  dbIndex : ℤ
  hexContent : String
  /-- Acknowledged by the server; not part of the serialized report. -/
  sent : Bool
  deriving DecidableEq

/-- The JSON object a report is serialized to, without its `sent` flag. -/
def PlcReport.toJson (r : PlcReport) : Value :=
  .object [("reportId", .ofInt r.reportId), ("fillStation", .string r.fillStation),
    ("taskId", .ofInt r.taskId), ("startTime", .ofInt r.startTime), ("endTime", .ofInt r.endTime),
    ("ip", .string r.ip), ("port", .ofInt r.port.toNat), ("dbIndex", .ofInt r.dbIndex),
    ("hexContent", .string r.hexContent)]

theorem PlcReport.get_fillStation (r : PlcReport) :
    r.toJson.get "fillStation" = some (.string r.fillStation) := rfl

theorem PlcReport.get_taskId (r : PlcReport) : r.toJson.get "taskId" = some (.ofInt r.taskId) := rfl

theorem PlcReport.get_hexContent (r : PlcReport) :
    r.toJson.get "hexContent" = some (.string r.hexContent) := rfl

end FillingPilot
