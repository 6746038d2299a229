/-
The report loop, interleaved with acknowledgements and new configurations.

The loop runs one pass after another.  A pass takes a snapshot of the stations of the cache, reads
them one by one, each read being one lock section, and at the end collects the unsent reports as
messages.  Acknowledgements and configurations arrive on other tasks and may fall between any two
of these sections.

Main definitions:

* `FillingPilot.LoopState`, `FillingPilot.LoopEvent`, `FillingPilot.loopStep` — the loop as a
  transition system;
* `FillingPilot.StationsConfigured` — the cache has exactly the stations of the last configuration;
* `FillingPilot.WritesBackKept` — a step does not write back to a station that was dropped.

Main results:

* `FillingPilot.loopStep_cases` — what an event can do to the state;
* `FillingPilot.stationsConfigured_iff` — **the exact condition** under which a run keeps the
  stations of the cache those of the last configuration;
* `FillingPilot.removed_station_returns` — a run in which a dropped station comes back;
* `FillingPilot.reachable_lists_empty` — **no report is ever created** in a cache that starts empty;
* `FillingPilot.newRead_reported_iff` — a new read is reported exactly when the list of its station
  was not empty.
-/

import FillingPilot.ReportCache
import FillingPilot.Runs

set_option relaxedAutoImplicit false
set_option autoImplicit false

namespace FillingPilot

open Json Rust

/-! ### The transition system -/

/-- A read that returned the task of the last report of its station. -/
structure TaskUpdate where
  station : FillStation
  /-- The station name the last report carries. -/
  fillStation : String
  reportData : List UInt8

/-- The state of the loop, with a record of what it has read and sent. -/
structure LoopState where
  caches : Caches
  /-- The stations of the running pass that are still to be read; `none` between passes. -/
  todo : Option (List FillStation)
  /-- The reads of the latest pass that returned the task of the last report. -/
  updates : List TaskUpdate
  /-- The messages sent so far. -/
  emitted : List (String × Value)
  /-- The stations of the last completed configuration. -/
  configured : List FillStation

/-- What can happen next. -/
inductive LoopEvent
  /-- A pass starts, with the stations of the cache in some order. -/
  | startPass (stations : List FillStation)
  /-- The next station of the pass is read: the PLC's answer and the clock reading. -/
  | read (read : Option (List UInt8)) (nowMillis : ℕ)
  /-- The pass ends with the collection of the unsent reports. -/
  | collect
  /-- The server acknowledges a report id, whether it was sent to it or not. -/
  | ack (reportId : ℤ)
  /-- A configuration arrives. -/
  | configure (stations : List FillStation)

/-- The read of a station, when it returns the positive task id of the station's last report at a
valid start time. -/
def taskUpdate (caches : Caches) (station : FillStation) (read : Option (List UInt8)) :
    Option TaskUpdate := do
  let reportData ← read
  let last ← (reportsOf caches station).getLast?
  if 0 < station.reportDb ∧ validStart station reportData = true ∧
      0 < readTaskId station reportData ∧ last.taskId = readTaskId station reportData then
    some ⟨station, last.fillStation, reportData⟩
  else none

/-- One step of the loop. -/
def loopStep (st : LoopState) : LoopEvent → Option LoopState
  | .startPass stations =>
      if st.todo = none ∧ stations.isPerm st.caches.keys then
        some { st with todo := some stations, updates := [] }
      else none
  | .read read nowMillis =>
      match st.todo with
      | some (station :: rest) =>
          some { st with
            caches := readReport station read nowMillis st.caches
            todo := some rest
            updates := (taskUpdate st.caches station read).toList ++ st.updates }
      | _ => none
  | .collect =>
      if st.todo = some [] then
        some { st with todo := none, emitted := st.emitted ++ unsentMessages st.caches }
      else none
  | .ack reportId => some { st with caches := deleteReport reportId st.caches }
  | .configure stations =>
      some { st with
        caches := updateFillStations stations st.caches
        configured := stations }

/-- The loop before its first pass. -/
def loopStart (caches : Caches) : LoopState where
  caches := caches
  todo := none
  updates := []
  emitted := []
  configured := []

/-- **What an event can do to the state.** -/
theorem loopStep_cases {st st' : LoopState} {e : LoopEvent} (h : loopStep st e = some st') :
    (∃ stations, e = .startPass stations ∧ st.todo = none ∧ stations.Perm st.caches.keys ∧
      st' = { st with todo := some stations, updates := [] }) ∨
    (∃ read nowMillis station rest, e = .read read nowMillis ∧ st.todo = some (station :: rest) ∧
      st' = { st with
        caches := readReport station read nowMillis st.caches
        todo := some rest
        updates := (taskUpdate st.caches station read).toList ++ st.updates }) ∨
    (e = .collect ∧ st.todo = some [] ∧
      st' = { st with todo := none, emitted := st.emitted ++ unsentMessages st.caches }) ∨
    (∃ reportId, e = .ack reportId ∧
      st' = { st with caches := deleteReport reportId st.caches }) ∨
    (∃ stations, e = .configure stations ∧
      st' = { st with
        caches := updateFillStations stations st.caches
        configured := stations }) := by
  cases e with
  | startPass stations =>
      simp only [loopStep, Option.ite_none_right_eq_some, Option.some.injEq] at h
      obtain ⟨⟨htodo, hperm⟩, rfl⟩ := h
      exact Or.inl ⟨stations, rfl, htodo, List.isPerm_iff.1 hperm, rfl⟩
  | read read nowMillis =>
      simp only [loopStep] at h
      split at h
      · rename_i station rest htodo
        simp only [Option.some.injEq] at h
        exact Or.inr (Or.inl ⟨read, nowMillis, station, rest, rfl, htodo, h.symm⟩)
      · cases h
  | collect =>
      simp only [loopStep, Option.ite_none_right_eq_some, Option.some.injEq] at h
      exact Or.inr (Or.inr (Or.inl ⟨rfl, h.1, h.2.symm⟩))
  | ack reportId =>
      simp only [loopStep, Option.some.injEq] at h
      exact Or.inr (Or.inr (Or.inr (Or.inl ⟨reportId, rfl, h.symm⟩)))
  | configure stations =>
      simp only [loopStep, Option.some.injEq] at h
      exact Or.inr (Or.inr (Or.inr (Or.inr ⟨stations, rfl, h.symm⟩)))

/-! ### The stations of the cache -/

/-- The stations of the cache are exactly those of the last completed configuration. -/
def StationsConfigured (st : LoopState) : Prop :=
  ∀ station, station ∈ st.caches ↔ station ∈ st.configured

/-- If the event writes a read back to the cache, the cache still has the station of the read. -/
def WritesBackKept (st : LoopState) : LoopEvent → Prop
  | .read (some _) _ =>
      ∀ station rest, st.todo = some (station :: rest) → 0 < station.reportDb →
        station ∈ st.caches
  | _ => True

/-- A step keeps the stations those of the configuration exactly when it does not write back to a
dropped station. -/
theorem loopStep_stationsConfigured {st st' : LoopState} {e : LoopEvent}
    (hst : StationsConfigured st) (h : loopStep st e = some st') :
    StationsConfigured st' ↔ WritesBackKept st e := by
  obtain ⟨stations, rfl, -, -, rfl⟩ | ⟨read, nowMillis, station, rest, rfl, htodo, rfl⟩ |
    ⟨rfl, -, rfl⟩ | ⟨reportId, rfl, rfl⟩ | ⟨stations, rfl, rfl⟩ := loopStep_cases h
  · exact iff_of_true hst trivial
  · cases read with
    | none =>
        refine iff_of_true (fun other => ?_) trivial
        rw [mem_readReport]
        simpa using hst other
    | some reportData =>
        simp only [WritesBackKept, htodo, Option.some.injEq, List.cons.injEq]
        constructor
        · rintro hconf _ _ ⟨rfl, rfl⟩ hdb
          have hback := (hconf station).1 (mem_readReport.2 (Or.inr ⟨rfl, hdb, rfl⟩))
          exact (hst station).2 hback
        · intro hkept other
          rw [mem_readReport]
          constructor
          · rintro (hmem | ⟨rfl, hdb, -⟩)
            · exact (hst other).1 hmem
            · exact (hst other).1 (hkept other rest ⟨rfl, rfl⟩ hdb)
          · intro hmem
            exact Or.inl ((hst other).2 hmem)
  · exact iff_of_true hst trivial
  · refine iff_of_true (fun other => ?_) trivial
    rw [mem_deleteReport]
    exact hst other
  · exact iff_of_true (fun other => mem_updateFillStations) trivial

/-- **The exact condition**: the stations of the cache are those of the last configuration in every
state of a run exactly when no step of the run writes back to a station that was dropped. -/
theorem stationsConfigured_iff (events : List LoopEvent) :
    Lts.Always loopStep StationsConfigured (loopStart ∅) events ↔
      Lts.Along loopStep (fun st e => loopStep st e = none ∨ WritesBackKept st e) (loopStart ∅)
        events := by
  have hstart : StationsConfigured (loopStart ∅) := fun station => by simp [loopStart]
  exact Lts.always_iff_along (I := fun _ => True) (fun _ _ _ _ _ => trivial)
    (fun _ _ _ _ hst h => loopStep_stationsConfigured hst h) trivial hstart

/-- A pass takes its snapshot, a configuration then drops the station, and the read is written back
after that. -/
def staleWriteBack : List LoopEvent :=
  [.configure [smallStation], .startPass [smallStation], .configure [],
    .read (some (smallBlock 1 1 0)) 10]

/-- **A removed station returns**: after `staleWriteBack` the cache has a station although the last
configuration has none. -/
theorem removed_station_returns :
    ¬ Lts.Always loopStep StationsConfigured (loopStart ∅) staleWriteBack := by
  intro h
  have hlast := h.last (t := _) (by rfl)
  exact absurd ((hlast smallStation).1 (by decide)) (by decide)

/-! ### The first report -/

theorem readInto_nil (station : FillStation) (reportData : List UInt8) (nowMillis : ℕ) :
    readInto station reportData nowMillis [] = [] := by
  simp [readInto, handleNewReportRead_eq]

theorem loopStep_lists_empty {st st' : LoopState} {e : LoopEvent}
    (hst : ∀ station, reportsOf st.caches station = []) (h : loopStep st e = some st') :
    ∀ station, reportsOf st'.caches station = [] := by
  obtain ⟨stations, rfl, -, -, rfl⟩ | ⟨read, nowMillis, station, rest, rfl, htodo, rfl⟩ |
    ⟨rfl, -, rfl⟩ | ⟨reportId, rfl, rfl⟩ | ⟨stations, rfl, rfl⟩ := loopStep_cases h
  · exact hst
  · intro other
    by_cases hother : other = station
    · subst hother
      by_cases hdb : 0 < other.reportDb
      · cases read with
        | none =>
            rw [readReport_none]
            exact hst other
        | some reportData => rw [reportsOf_readReport_self hdb, hst other, readInto_nil]
      · rw [readReport_of_not_pos hdb]
        exact hst other
    · rw [reportsOf_readReport_ne hother]
      exact hst other
  · exact hst
  · intro other
    rw [reportsOf_deleteReport, hst other, List.map_nil]
  · intro other
    rw [reportsOf_updateFillStations, hst other, ite_self]

/-- **No report is ever created** in a cache that starts empty. -/
theorem reachable_lists_empty {events : List LoopEvent} {st : LoopState}
    (h : Lts.run loopStep (loopStart ∅) events = some st) (station : FillStation) :
    reportsOf st.caches station = [] := by
  have hstart : ∀ station, reportsOf (loopStart ∅).caches station = [] := fun _ => rfl
  exact Lts.run_invariant' (I := fun st => ∀ station, reportsOf st.caches station = [])
    (fun _ _ _ hst hstep => loopStep_lists_empty hst hstep) hstart h station

/-- A read is new for a list: the list is empty, or the read is new after its last report. -/
def NewRead (station : FillStation) (reportData : List UInt8) (nowMillis : ℕ)
    (reports : List PlcReport) : Prop :=
  reports = [] ∨ ∃ last, reports.getLast? = some last ∧
    IsNew last (reportOfRead station reportData nowMillis)

/-- The last report of a list carries this content and is unsent. -/
def LastCarries (reports : List PlcReport) (hex : String) : Prop :=
  ∃ last, reports.getLast? = some last ∧ last.hexContent = hex ∧ last.sent = false

/-- A `report` message carries this content. -/
def MessageCarries (messages : List (String × Value)) (hex : String) : Prop :=
  ∃ m ∈ messages, m.1 = "report" ∧ (m.2.get "hexContent").bind Value.asStr = some hex

/-- What a read makes of its station's list depends on that list only. -/
theorem reportsOf_readReport_congr {station : FillStation} {caches caches' : Caches}
    (h : reportsOf caches station = reportsOf caches' station) (read : Option (List UInt8))
    (nowMillis : ℕ) :
    reportsOf (readReport station read nowMillis caches) station =
      reportsOf (readReport station read nowMillis caches') station := by
  by_cases hdb : 0 < station.reportDb
  · cases read with
    | none => rwa [readReport_none, readReport_none]
    | some d => rw [reportsOf_readReport_self hdb, reportsOf_readReport_self hdb, h]
  · rwa [readReport_of_not_pos hdb, readReport_of_not_pos hdb]

/-- The reads of other stations leave a list alone. -/
theorem reportsOf_reads_of_notMem {station : FillStation} {stations : List FillStation}
    (hmem : station ∉ stations) (read : FillStation → Option (List UInt8))
    (nowMillis : FillStation → ℕ) (caches : Caches) :
    reportsOf (stations.foldl (fun c s => readReport s (read s) (nowMillis s) c) caches) station =
      reportsOf caches station := by
  induction stations generalizing caches with
  | nil => rfl
  | cons s ss ih =>
      rw [List.mem_cons, not_or] at hmem
      rw [List.foldl_cons, ih hmem.2, reportsOf_readReport_ne hmem.1]

theorem reportsOf_pass {stations : List FillStation} (hnodup : stations.Nodup)
    {station : FillStation} (hmem : station ∈ stations)
    (read : FillStation → Option (List UInt8)) (nowMillis : FillStation → ℕ) (caches : Caches) :
    reportsOf (readAndSendReportsDirect stations read nowMillis caches).1 station =
      reportsOf (readReport station (read station) (nowMillis station) caches) station := by
  simp only [readAndSendReportsDirect]
  induction stations generalizing caches with
  | nil => cases hmem
  | cons s ss ih =>
      rw [List.nodup_cons] at hnodup
      rw [List.foldl_cons]
      by_cases hs : station = s
      · subst hs
        exact reportsOf_reads_of_notMem hnodup.1 _ _ _
      · have hmem' : station ∈ ss := (List.mem_cons.1 hmem).resolve_left hs
        rw [ih hnodup.2 hmem']
        exact reportsOf_readReport_congr (reportsOf_readReport_ne hs _ _ _) _ _

/-- The list of a station after a new, valid read ends with the content of the read, unsent. -/
theorem lastCarries_of_newRead {station : FillStation} {reportData : List UInt8} {nowMillis : ℕ}
    {reports : List PlcReport} (hvalid : validStart station reportData = true)
    (hnew : NewRead station reportData nowMillis reports) (hne : reports ≠ []) :
    LastCarries (readInto station reportData nowMillis reports) (hexEncode reportData) := by
  obtain ⟨last, hlast, hnew⟩ := hnew.resolve_left hne
  have hread : handleNewReportRead station reports.getLast? reportData nowMillis =
      some (reportOfRead station reportData nowMillis) :=
    handleNewReportRead_eq_some.2 ⟨hvalid, rfl, last, hlast, hnew⟩
  refine ⟨reportOfRead station reportData nowMillis, ?_, rfl, rfl⟩
  rw [readInto, hread]
  exact getLast?_appendReport _ _ _

/-- A list that ends with an unsent report has that report sent in the collection. -/
theorem messageCarries_of_lastCarries {caches : Caches} {station : FillStation} {hex : String}
    (h : LastCarries (reportsOf caches station) hex) :
    MessageCarries (unsentMessages caches) hex := by
  obtain ⟨last, hlast, hhex, hsent⟩ := h
  have hmem : last ∈ reportsOf caches station := List.mem_of_getLast? hlast
  refine ⟨reportMessage last, mem_unsentMessages.2 ⟨station, last, hmem, hsent, rfl⟩, rfl, ?_⟩
  rw [reportMessage, PlcReport.get_hexContent, hhex]
  rfl

/-- **The first report is missed**: a new read in a pass is reported exactly when the list of its
station was not empty before; no cache that a run reaches from the empty one has such a list, so
there no new read is ever reported. -/
theorem newRead_reported_iff {caches : Caches} {station : FillStation} {stations : List FillStation}
    (hstations : stations.Perm caches.keys) (hstation : station ∈ caches)
    (hdb : 0 < station.reportDb) (read : FillStation → Option (List UInt8))
    (nowMillis : FillStation → ℕ) {d : List UInt8} (hread : read station = some d)
    (hvalid : validStart station d = true)
    (hnew : NewRead station d (nowMillis station) (reportsOf caches station)) :
    (LastCarries (reportsOf (readReport station (some d) (nowMillis station) caches) station)
          (hexEncode d) ∧
        MessageCarries (readAndSendReportsDirect stations read nowMillis caches).2 (hexEncode d) ↔
      reportsOf caches station ≠ []) ∧
    ∀ events st, Lts.run loopStep (loopStart ∅) events = some st → st.caches = caches →
      ¬ LastCarries (reportsOf (readReport station (some d) (nowMillis station) caches) station)
        (hexEncode d) := by
  have hself : reportsOf (readReport station (some d) (nowMillis station) caches) station =
      readInto station d (nowMillis station) (reportsOf caches station) :=
    reportsOf_readReport_self hdb _ _ _
  have hempty : reportsOf caches station = [] →
      ¬ LastCarries (reportsOf (readReport station (some d) (nowMillis station) caches) station)
        (hexEncode d) := by
    rintro hnil ⟨last, hlast, -⟩
    rw [hself, hnil, readInto_nil] at hlast
    cases hlast
  refine ⟨⟨fun h hnil => hempty hnil h.1, fun hne => ?_⟩, ?_⟩
  · have hlast := lastCarries_of_newRead hvalid hnew hne
    have hnodup : stations.Nodup := hstations.nodup_iff.2 caches.keys_nodup
    have hmem : station ∈ stations := hstations.mem_iff.2 (AList.mem_keys.1 hstation)
    refine ⟨by rwa [hself], ?_⟩
    have hpass := reportsOf_pass hnodup hmem read nowMillis caches
    rw [hread, hself] at hpass
    rw [← hpass] at hlast
    exact messageCarries_of_lastCarries hlast
  · rintro events st hrun rfl
    exact hempty (reachable_lists_empty hrun station)

/-- With a report in the list, the read of task 2 is reported. -/
theorem newRead_reported_oneReport :
    LastCarries (reportsOf (readReport smallStation (some (smallBlock 2 2 0)) 9 oneReportCache)
        smallStation) (hexEncode (smallBlock 2 2 0)) ∧
      MessageCarries (readAndSendReportsDirect [smallStation] (fun _ => some (smallBlock 2 2 0))
        (fun _ => 9) oneReportCache).2 (hexEncode (smallBlock 2 2 0)) := by
  have hne : reportsOf oneReportCache smallStation ≠ [] := by decide
  have hnew : NewRead smallStation (smallBlock 2 2 0) 9 (reportsOf oneReportCache smallStation) :=
    Or.inr ⟨_, rfl, by decide⟩
  have hkeys : [smallStation].Perm oneReportCache.keys := List.Perm.refl _
  exact (newRead_reported_iff hkeys (by decide) (by decide) (fun _ => some (smallBlock 2 2 0))
    (fun _ => 9) rfl (by decide) hnew).1.2 hne

/-- Right after the first configuration, the read of task 1 is valid and new, and lost. -/
theorem first_report_missed :
    ∃ st, Lts.run loopStep (loopStart ∅) [.configure [smallStation]] = some st ∧
      smallStation ∈ st.caches ∧ validStart smallStation (smallBlock 1 1 0) = true ∧
      NewRead smallStation (smallBlock 1 1 0) 10 (reportsOf st.caches smallStation) ∧
      ¬ LastCarries (reportsOf (readReport smallStation (some (smallBlock 1 1 0)) 10 st.caches)
        smallStation) (hexEncode (smallBlock 1 1 0)) ∧
      (readAndSendReportsDirect [smallStation] (fun _ => some (smallBlock 1 1 0)) (fun _ => 10)
        st.caches).2 = [] := by
  refine ⟨_, rfl, by decide, by decide, Or.inl rfl, ?_, rfl⟩
  rintro ⟨last, hlast, -⟩
  exact absurd hlast (by decide +revert)

end FillingPilot
