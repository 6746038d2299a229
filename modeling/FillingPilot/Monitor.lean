/-
Monitors: their configuration and the set of active ones.

Main definitions:

* `FillingPilot.Monitor` — the configuration of a monitor;
* `FillingPilot.Monitor.parseFromPlcInfo` — the monitors of a list of PLC objects;
* `FillingPilot.updateMonitors` — a new configuration;
* `FillingPilot.MonitorProcessor.States` — what is kept about the monitors, by id.

Main results:

* `FillingPilot.updateMonitors_fst` — **the active monitors are those of the configuration**.
-/

import FillingPilot.AssocMap
import FillingPilot.FillStation
import Mathlib.Data.Finset.SDiff

set_option relaxedAutoImplicit false
set_option autoImplicit false

namespace FillingPilot

open Json

/-- The configuration of a monitor; the times are in milliseconds. -/
structure Monitor where
  id : String
  merchantId : String
  ip : String
  port : UInt16
  name : String
  code : String
  dbNumber : UInt16
  offset : UInt32
  blockSize : UInt32
  monitorType : String
  /-- At least 50. -/
  frequency : ℕ
  /-- At least 1000. -/
  resendInterval : ℕ
  forwardAddress : String
  localAddress : String
  deriving DecidableEq

/-- What the processor keeps about a monitor between its reads. -/
structure MonitorState where
  lastReadTime : Option ℕ
  lastSendTime : Option ℕ
  data : String
  running : Bool
  deriving DecidableEq

namespace Monitor

/-- The monitor of one entry of `monitorList`; an absent field takes its default, a number is cut
to the width of its field. -/
def fromEntry (ip : String) (port : UInt16) (m : Value) : Monitor :=
  let text (name : String) : String := ((m.get name).bind Value.asStr).getD ""
  let number (name : String) (default : ℤ) : ℕ :=
    (((m.get name).bind Value.asU64).getD default).toNat
  { id := text "id"
    merchantId := text "merchantId"
    ip, port
    name := text "name"
    code := text "code"
    dbNumber := UInt16.ofNat (number "dbNumber" 0)
    offset := UInt32.ofNat (number "offset" 0)
    blockSize := UInt32.ofNat (number "blockSize" 0)
    monitorType := text "type"
    frequency := max (number "frequency" 50) 50
    resendInterval := max (number "resendInterval" 1000) 1000
    forwardAddress := text "forwardAddress"
    localAddress := text "localAddress" }

/-- The monitors of one PLC object. -/
def fromPlc (plc : Value) : List Monitor :=
  match plcAddress plc, (plc.get "monitorList").bind Value.asArray with
  | some (ip, port), some entries => entries.map (fromEntry ip port)
  | _, _ => []

/-- The monitors of a `plcInfo` detail, in its order. -/
def parseFromPlcInfo (plcInfo : List Value) : List Monitor := plcInfo.flatMap fromPlc

end Monitor

/-- A new configuration: the monitors it does not have go, with what is kept under their ids, and
the ones it adds come in. -/
def updateMonitors (newMonitors : List Monitor)
    (active : Finset Monitor × AList fun _ : String => MonitorState) :
    Finset Monitor × AList fun _ : String => MonitorState :=
  let (monitors, states) := active
  let newSet := newMonitors.toFinset
  let toRemove := monitors \ newSet
  let kept := monitors \ toRemove
  (kept ∪ (newSet \ kept), states.filterKeys fun id => decide (∀ m ∈ toRemove, m.id ≠ id))

/-- **The active monitors are those of the configuration.** -/
@[simp] theorem updateMonitors_fst (newMonitors : List Monitor)
    (active : Finset Monitor × AList fun _ : String => MonitorState) :
    (updateMonitors newMonitors active).1 = newMonitors.toFinset := by
  ext m
  simp only [updateMonitors, Finset.mem_union, Finset.mem_sdiff, List.mem_toFinset, not_and,
    not_not]
  tauto

namespace MonitorProcessor

/-- What is kept between the reads, by id. -/
abbrev States := AList fun _ : String => MonitorState

/-- A list in which the iteration of a set can yield it. -/
def IterationOrder (monitors : Finset Monitor) (order : List Monitor) : Prop :=
  order.Nodup ∧ order.toFinset = monitors

instance (monitors : Finset Monitor) (order : List Monitor) :
    Decidable (IterationOrder monitors order) :=
  inferInstanceAs (Decidable (order.Nodup ∧ order.toFinset = monitors))

/-- A monitor of two bytes. -/
def smallMonitor : Monitor where
  id := "M1"
  merchantId := ""
  ip := "10.0.0.1"
  port := 102
  name := ""
  code := ""
  dbNumber := 1
  offset := 0
  blockSize := 2
  monitorType := ""
  frequency := 50
  resendInterval := 1000
  forwardAddress := ""
  localAddress := ""

end MonitorProcessor

end FillingPilot
