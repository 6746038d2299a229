/-
The `plcInfo` command: one message that updates the PLC list, the stations, the monitors and the map
of station addresses.

The handler compares the detail with the last one it stored.  A changed detail with at least one
PLC is stored, and then four stores are updated one after the other; the stations and the monitors
are left alone when the detail has none, and the address map only ever gains entries.  The parser of
JSON texts is a parameter.

Main definitions:

* `FillingPilot.Session` — what the handler reads and writes;
* `FillingPilot.parsePlcList`, `FillingPilot.stationsIn`, `FillingPilot.monitorsIn` — what a detail
  yields;
* `FillingPilot.handlePlcInfo` — the handler, run to its end;
* `FillingPilot.latest` — the last non-empty list the details so far gave.

Main results:

* `FillingPilot.handlePlcInfo_tracks` — what one command keeps;
* `FillingPilot.session_follows_latest` — **what the stores hold** after any sequence of commands;
* `FillingPilot.stations_stay` — a configuration whose stations outlive the next one.
-/

import FillingPilot.Monitor
import FillingPilot.ReportCache
import FillingPilot.S7Pool

set_option relaxedAutoImplicit false
set_option autoImplicit false

namespace FillingPilot

open Json

/-! ### What a detail yields -/

/-- The PLC of one object of the detail; an object without one of the three fields is skipped. -/
def plcConfig (item : Value) : Option PlcConfig := do
  let id ← (item.get "id").bind Value.asStr
  let ip ← (item.get "ipAddress").bind Value.asStr
  let port ← (item.get "portNumber").bind Value.asU64
  return { id, ip, port := UInt16.ofNat port.toNat }

section Details

variable (fromStr : String → Option Value)

/-- The array a detail is, empty when it is none. -/
def plcArray (detail : String) : List Value := ((fromStr detail).bind Value.asArray).getD []

/-- `parse_plc_list`. -/
def parsePlcList (detail : String) : List PlcConfig := (plcArray fromStr detail).filterMap plcConfig

/-- The stations of a detail. -/
def stationsIn (detail : String) : List FillStation :=
  FillStation.parseFromPlcInfo (plcArray fromStr detail)

/-- The monitors of a detail. -/
def monitorsIn (detail : String) : List Monitor :=
  Monitor.parseFromPlcInfo (plcArray fromStr detail)

theorem parsePlcList_of_none {detail : String} (h : fromStr detail = none) :
    parsePlcList fromStr detail = [] := by
  simp [parsePlcList, plcArray, h]

end Details

/-! ### The stores -/

/-- What the handler reads and writes. -/
structure Session where
  lastPlcDetail : String
  /-- The PLC list of the S7 manager. -/
  plcList : List PlcConfig
  /-- The report cache. -/
  caches : Caches
  /-- The active monitors and what is kept for each id. -/
  monitors : Finset Monitor × AList fun _ : String => MonitorState
  /-- The addresses of the stations, for deployments. -/
  fillStations : AList fun _ : String => String × UInt16

/-- A new session. -/
def freshSession : Session where
  lastPlcDetail := ""
  plcList := []
  caches := ∅
  monitors := (∅, ∅)
  fillStations := ∅

namespace Session

/-- The detail is stored. -/
def storeDetail (detail : String) (s : Session) : Session := { s with lastPlcDetail := detail }

/-- The PLC list is replaced. -/
def updatePlcList (plcs : List PlcConfig) (s : Session) : Session := { s with plcList := plcs }

/-- The stations of the report cache, unless there are none. -/
def updateStations (stations : List FillStation) (s : Session) : Session :=
  if stations.isEmpty then s else { s with caches := updateFillStations stations s.caches }

/-- The active monitors, unless there are none. -/
def updateMonitors (monitors : List Monitor) (s : Session) : Session :=
  if monitors.isEmpty then s
  else { s with monitors := FillingPilot.updateMonitors monitors s.monitors }

/-- The addresses of the stations are added. -/
def updateAddresses (stations : List FillStation) (s : Session) : Session :=
  { s with fillStations := s.fillStations.insertPairs (stations.map fun f => (f.id, f.ip, f.port)) }

end Session

/-- The handler, run to its end without anything in between. -/
def handlePlcInfo (fromStr : String → Option Value) (s : Session) (detail : String) : Session :=
  let configChanged := s.lastPlcDetail ≠ detail
  let plcs := parsePlcList fromStr detail
  if plcs.isEmpty then s
  else if configChanged then
    let stations := stationsIn fromStr detail
    let monitors := monitorsIn fromStr detail
    ((((s.storeDetail detail).updatePlcList plcs).updateStations stations).updateMonitors
      monitors).updateAddresses stations
  else s

/-! ### Sequences of commands -/

section Sequences

variable (fromStr : String → Option Value)

/-- The session after a sequence of commands. -/
def afterCommands (details : List String) : Session :=
  details.foldl (handlePlcInfo fromStr) freshSession

/-- The last non-empty list that a detail with a PLC gave, or the empty list. -/
def latest {α : Type} (f : String → List α) (details : List String) : List α :=
  details.foldl
    (fun acc d => if (parsePlcList fromStr d).isEmpty || (f d).isEmpty then acc else f d) []

variable {fromStr}

theorem afterCommands_concat (details : List String) (d : String) :
    afterCommands fromStr (details ++ [d]) =
      handlePlcInfo fromStr (afterCommands fromStr details) d := by
  simp [afterCommands]

theorem latest_concat {α : Type} (f : String → List α) (details : List String) (d : String) :
    latest fromStr f (details ++ [d]) =
      if (parsePlcList fromStr d).isEmpty || (f d).isEmpty then latest fromStr f details
      else f d := by
  simp [latest]

/-- The address map has the ids of the stations, each with the address of a station of that id. -/
def AddressesKnown (stations : List FillStation)
    (fillStations : AList fun _ : String => String × UInt16) : Prop :=
  ∀ f ∈ stations, ∃ g ∈ stations, g.id = f.id ∧ fillStations.lookup f.id = some (g.ip, g.port)

theorem addressesKnown_updateAddresses (stations : List FillStation) (s : Session) :
    AddressesKnown stations (s.updateAddresses stations).fillStations := by
  intro f hf
  have hkey : f.id ∈ (stations.map fun f => (f.id, f.ip, f.port)).map Prod.fst := by
    rw [List.map_map]
    exact List.mem_map_of_mem hf
  obtain ⟨⟨ip, port⟩, hpair, hlookup⟩ := AList.lookup_insertPairs_of_mem hkey s.fillStations
  obtain ⟨g, hg, heq⟩ := List.mem_map.1 hpair
  simp only [Prod.mk.injEq] at heq
  obtain ⟨hid, rfl, rfl⟩ := heq
  exact ⟨g, hg, hid, hlookup⟩

/-- **The invariant of a sequence of commands**: the stations and the monitors are the latest given,
and if a detail is stored, it has a PLC, its own stations and monitors are the latest unless it has
none, and its addresses are known. -/
structure Tracks (fromStr : String → Option Value) (details : List String) (s : Session) :
    Prop where
  stations : ∀ f, f ∈ s.caches ↔ f ∈ latest fromStr (stationsIn fromStr) details
  monitors : s.monitors.1 = (latest fromStr (monitorsIn fromStr) details).toFinset
  stored : parsePlcList fromStr s.lastPlcDetail ≠ [] →
    (stationsIn fromStr s.lastPlcDetail ≠ [] →
        latest fromStr (stationsIn fromStr) details = stationsIn fromStr s.lastPlcDetail) ∧
      (monitorsIn fromStr s.lastPlcDetail ≠ [] →
        latest fromStr (monitorsIn fromStr) details = monitorsIn fromStr s.lastPlcDetail) ∧
      AddressesKnown (stationsIn fromStr s.lastPlcDetail) s.fillStations

/-- **What a changed detail with a PLC does to the stores.** -/
theorem handlePlcInfo_changed {s : Session} {d : String}
    (hplcs : (parsePlcList fromStr d).isEmpty = false) (hchanged : s.lastPlcDetail ≠ d) :
    (handlePlcInfo fromStr s d).lastPlcDetail = d ∧
      (∀ f, f ∈ (handlePlcInfo fromStr s d).caches ↔
        if (stationsIn fromStr d).isEmpty then f ∈ s.caches else f ∈ stationsIn fromStr d) ∧
      (handlePlcInfo fromStr s d).monitors.1 =
        (if (monitorsIn fromStr d).isEmpty then s.monitors.1
          else (monitorsIn fromStr d).toFinset) ∧
      AddressesKnown (stationsIn fromStr d) (handlePlcInfo fromStr s d).fillStations := by
  have hrun : handlePlcInfo fromStr s d =
      ((((s.storeDetail d).updatePlcList (parsePlcList fromStr d)).updateStations
        (stationsIn fromStr d)).updateMonitors (monitorsIn fromStr d)).updateAddresses
          (stationsIn fromStr d) := by
    simp [handlePlcInfo, hplcs, hchanged]
  rw [hrun]
  refine ⟨?_, fun f => ?_, ?_, addressesKnown_updateAddresses _ _⟩
  · simp only [Session.updateAddresses, Session.updateMonitors, Session.updateStations]
    split_ifs <;> rfl
  · simp only [Session.updateAddresses, Session.updateMonitors, Session.updateStations]
    split_ifs <;> simp [Session.updatePlcList, Session.storeDetail]
  · simp only [Session.updateAddresses, Session.updateMonitors, Session.updateStations]
    split_ifs <;> simp [Session.updatePlcList, Session.storeDetail]

/-- A detail that is stored already changes nothing in the latest lists. -/
theorem latest_concat_of_stored {α : Type} {f : String → List α} {details : List String}
    {d : String} (h : f d ≠ [] → latest fromStr f details = f d) :
    latest fromStr f (details ++ [d]) = latest fromStr f details := by
  rw [latest_concat]
  split_ifs with hempty
  · rfl
  · have hne : f d ≠ [] := by
      intro hnil
      simp [hnil] at hempty
    exact (h hne).symm

/-- **What one command keeps.** -/
theorem handlePlcInfo_tracks {details : List String} {s : Session} (hs : Tracks fromStr details s)
    (d : String) : Tracks fromStr (details ++ [d]) (handlePlcInfo fromStr s d) := by
  cases hplcs : (parsePlcList fromStr d).isEmpty with
  | true =>
      -- without a PLC the handler returns at once
      have hrun : handlePlcInfo fromStr s d = s := by simp [handlePlcInfo, hplcs]
      have hlatest : ∀ {α : Type} (f : String → List α),
          latest fromStr f (details ++ [d]) = latest fromStr f details := by
        intro α f
        rw [latest_concat, hplcs, Bool.true_or, if_pos rfl]
      rw [hrun]
      refine ⟨?_, ?_, ?_⟩
      · rw [hlatest]
        exact hs.stations
      · rw [hlatest]
        exact hs.monitors
      · rw [hlatest, hlatest]
        exact hs.stored
  | false =>
      have hne : parsePlcList fromStr d ≠ [] := by
        intro hnil
        rw [hnil] at hplcs
        cases hplcs
      by_cases hchanged : s.lastPlcDetail = d
      · have hrun : handlePlcInfo fromStr s d = s := by simp [handlePlcInfo, hchanged]
        subst hchanged
        obtain ⟨hstations, hmonitors, haddresses⟩ := hs.stored hne
        rw [hrun]
        refine ⟨?_, ?_, ?_⟩
        · rw [latest_concat_of_stored hstations]
          exact hs.stations
        · rw [latest_concat_of_stored hmonitors]
          exact hs.monitors
        · rw [latest_concat_of_stored hstations, latest_concat_of_stored hmonitors]
          exact hs.stored
      · obtain ⟨hlast, hcaches, hmonitors, haddresses⟩ := handlePlcInfo_changed hplcs hchanged
        refine ⟨fun f => ?_, ?_, fun _ => ?_⟩
        · rw [hcaches, latest_concat, hplcs, Bool.false_or]
          split_ifs
          · exact hs.stations f
          · exact Iff.rfl
        · rw [hmonitors, latest_concat, hplcs, Bool.false_or]
          split_ifs
          · exact hs.monitors
          · rfl
        · rw [hlast, latest_concat, latest_concat, hplcs, Bool.false_or, Bool.false_or]
          refine ⟨fun hsome => ?_, fun hsome => ?_, haddresses⟩
          · rw [if_neg (by rwa [List.isEmpty_iff])]
          · rw [if_neg (by rwa [List.isEmpty_iff])]

/-- **What any sequence of commands keeps.** -/
theorem afterCommands_tracks (hempty : fromStr "" = none) (details : List String) :
    Tracks fromStr details (afterCommands fromStr details) := by
  induction details using List.reverseRecOn with
  | nil =>
      refine ⟨fun f => by simp [afterCommands, freshSession, latest], rfl, fun hne => ?_⟩
      exact absurd (parsePlcList_of_none fromStr hempty) hne
  | append_singleton details d ih =>
      rw [afterCommands_concat]
      exact handlePlcInfo_tracks ih d

/-- **What the stores hold** after a sequence of commands whose last detail has a PLC: the latest
stations, the latest monitors, and an address for the id of each of the detail's stations. -/
theorem session_follows_latest (hempty : fromStr "" = none) (details : List String) {d : String}
    (hplcs : parsePlcList fromStr d ≠ []) :
    (∀ f, f ∈ (afterCommands fromStr (details ++ [d])).caches ↔
        f ∈ latest fromStr (stationsIn fromStr) (details ++ [d])) ∧
      (afterCommands fromStr (details ++ [d])).monitors.1 =
        (latest fromStr (monitorsIn fromStr) (details ++ [d])).toFinset ∧
      AddressesKnown (stationsIn fromStr d)
        (afterCommands fromStr (details ++ [d])).fillStations := by
  have hbefore := afterCommands_tracks hempty details
  have hafter := afterCommands_tracks hempty (details ++ [d])
  refine ⟨hafter.stations, hafter.monitors, ?_⟩
  -- the detail is stored now, whether it changed or not
  have hstored : (afterCommands fromStr (details ++ [d])).lastPlcDetail = d := by
    rw [afterCommands_concat]
    by_cases hchanged : (afterCommands fromStr details).lastPlcDetail = d
    · have hrun : handlePlcInfo fromStr (afterCommands fromStr details) d =
          afterCommands fromStr details := by simp [handlePlcInfo, hchanged]
      rw [hrun, hchanged]
    · have hisEmpty : (parsePlcList fromStr d).isEmpty = false := by
        rwa [List.isEmpty_eq_false_iff]
      exact (handlePlcInfo_changed hisEmpty hchanged).1
  have hknown := hafter.stored (by rwa [hstored])
  rw [hstored] at hknown
  exact hknown.2.2

end Sequences

/-! ### Two details -/

/-- The text of a detail with one PLC, one station and one monitor. -/
def fullText (n : String) : String :=
  "[\x7b\"id\":\"P" ++ n ++ "\",\"ipAddress\":\"10.0.0." ++ n ++ "\",\"portNumber\":102," ++
    "\"fillStations\":[\x7b\"id\":\"F" ++ n ++ "\"\x7d]," ++
    "\"monitorList\":[\x7b\"id\":\"M" ++ n ++ "\"\x7d]\x7d]"

/-- The text of a detail with one PLC and nothing else. -/
def bareText : String :=
  "[\x7b\"id\":\"P1\",\"ipAddress\":\"10.0.0.1\",\"portNumber\":102\x7d]"

/-- The fields of a PLC object that every detail has. -/
def plcFields (n : String) : List (String × Value) :=
  [("id", .string ("P" ++ n)), ("ipAddress", .string ("10.0.0." ++ n)), ("portNumber", .ofInt 102)]

/-- The value of `fullText`. -/
def fullValue (n : String) : Value :=
  .array [.object (plcFields n ++
    [("fillStations", .array [.object [("id", .string ("F" ++ n))]]),
      ("monitorList", .array [.object [("id", .string ("M" ++ n))]])])]

/-- What the parser gives for these texts. -/
def sampleFromStr (text : String) : Option Value :=
  if text = fullText "1" then some (fullValue "1")
  else if text = fullText "2" then some (fullValue "2")
  else if text = bareText then some (.array [.object (plcFields "1")])
  else none

theorem session_follows_latest_bare :
    (∀ f, f ∈ (afterCommands sampleFromStr [fullText "1", bareText]).caches ↔
        f ∈ stationsIn sampleFromStr (fullText "1")) ∧
      (afterCommands sampleFromStr [fullText "1", bareText]).monitors.1 =
        (monitorsIn sampleFromStr (fullText "1")).toFinset := by
  have hempty : sampleFromStr "" = none := by rfl
  have hplcs : parsePlcList sampleFromStr bareText ≠ [] := by decide
  have h := session_follows_latest hempty [fullText "1"] hplcs
  exact ⟨h.1, h.2.1⟩

/-- **Stations stay**: after a detail without stations the report cache still has the one of the
detail before. -/
theorem stations_stay :
    parsePlcList sampleFromStr bareText ≠ [] ∧
      ¬ ∀ f, f ∈ (afterCommands sampleFromStr [fullText "1", bareText]).caches ↔
        f ∈ stationsIn sampleFromStr bareText := by
  refine ⟨by decide, fun h => ?_⟩
  have hnone : stationsIn sampleFromStr bareText = [] := by rfl
  have hsome : (afterCommands sampleFromStr [fullText "1", bareText]).caches.keys ≠ [] := by decide
  obtain ⟨f, hf⟩ := List.exists_mem_of_ne_nil _ hsome
  have hmem := (h f).1 (AList.mem_keys.2 hf)
  rw [hnone] at hmem
  cases hmem

end FillingPilot
