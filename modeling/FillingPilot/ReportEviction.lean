/-
**Which unsent reports are given up.**

A report that the server has not acknowledged should only be given up for lack of room.  The append
of `FillingPilot.appendReport` works in two phases: it first takes one report off the front of a
full list, and only then throws away the reports that were sent.  So a list that is full of sent
reports still loses its oldest one, sent or not.  A configuration compares whole records of
stations: a station with another field changed is dropped with its reports, and comes back with
none.

Main definitions:

* `FillingPilot.pending` — the unsent reports of a list, oldest first;
* `FillingPilot.KeepsPending` — the append keeps every pending report, in order, before the new one;
* `FillingPilot.ConfigurationKeeps` — the configuration keeps every pending report of a station id.

Main results:

* `FillingPilot.pending_appendReport` — what an append leaves pending;
* `FillingPilot.readReport_keepsPending_iff` — **the exact condition**: a list with room for another
  pending report keeps its pending reports exactly when it is not full or its oldest report was
  sent;
* `FillingPilot.readReport_evicts_pending` — a list of one pending and one sent report that loses
  the pending one;
* `FillingPilot.configurationKeeps_iff` — **the exact condition** under which a configuration keeps
  the pending reports of a station id;
* `FillingPilot.edited_station_drops_pending` — a station whose record was edited loses its report.
-/

import FillingPilot.ReportCache

set_option relaxedAutoImplicit false
set_option autoImplicit false

namespace FillingPilot

/-- The reports of a list that are still to be acknowledged, oldest first. -/
def pending (reports : List PlcReport) : List PlcReport := reports.filter fun r => !r.sent

/-- The pending reports of `before` are all in `after`, in the same order and before `report`. -/
def KeepsPending (before after : List PlcReport) (report : PlcReport) : Prop :=
  (pending before ++ [report]).Sublist after

/-- The oldest report of a list was sent. -/
def OldestSent (reports : List PlcReport) : Prop := ∃ r ∈ reports.head?, r.sent = true

theorem appendReport_of_lt {station : FillStation} {reports : List PlcReport} {r : PlcReport}
    (h : reports.length < station.reportCount) :
    appendReport station reports r = pending reports ++ [r] := by
  simp only [appendReport, pending, if_neg (Nat.not_le.2 h)]

theorem appendReport_of_le {station : FillStation} {oldest r : PlcReport} {rest : List PlcReport}
    (h : station.reportCount ≤ (oldest :: rest).length) :
    appendReport station (oldest :: rest) r = pending rest ++ [r] := by
  simp only [appendReport, pending, if_pos h, List.drop_one, List.tail_cons]

/-- **What an append leaves pending**: everything, unless the list is full and starts with a
pending report. -/
theorem pending_appendReport (station : FillStation) (oldest r : PlcReport)
    (rest : List PlcReport) :
    KeepsPending (oldest :: rest) (appendReport station (oldest :: rest) r) r ↔
      (oldest :: rest).length < station.reportCount ∨ oldest.sent = true := by
  rcases Nat.lt_or_ge (oldest :: rest).length station.reportCount with hlt | hfull
  · rw [KeepsPending, appendReport_of_lt hlt]
    exact iff_of_true (List.Sublist.refl _) (Or.inl hlt)
  · rw [KeepsPending, appendReport_of_le hfull]
    cases hsent : oldest.sent with
    | true =>
        have hpending : pending (oldest :: rest) = pending rest := by simp [pending, hsent]
        rw [hpending]
        exact iff_of_true (List.Sublist.refl _) (Or.inr rfl)
    | false =>
        have hpending : pending (oldest :: rest) = oldest :: pending rest := by
          simp [pending, hsent]
        -- one pending report too many to fit in what is left
        have hlen : ¬ (pending (oldest :: rest) ++ [r]).Sublist (pending rest ++ [r]) := by
          intro hsub
          have hle := hsub.length_le
          simp [hpending] at hle
        simp only [hlen, false_iff, not_or, Nat.not_lt, Bool.false_eq_true, not_false_eq_true,
          and_true]
        exact hfull

/-- **The exact condition**: an appending read of a list with fewer than `reportCount` pending
reports keeps them all exactly when the list is not full or its oldest report was sent. -/
theorem readReport_keepsPending_iff {station : FillStation} {reportData : List UInt8}
    {nowMillis : ℕ} {caches : Caches} {report : PlcReport} (hdb : 0 < station.reportDb)
    (happend : handleNewReportRead station (reportsOf caches station).getLast? reportData nowMillis
      = some report) :
    ((pending (reportsOf caches station)).length < station.reportCount →
        KeepsPending (reportsOf caches station)
          (reportsOf (readReport station (some reportData) nowMillis caches) station) report) ↔
      station.reportCount ≤ (pending (reportsOf caches station)).length ∨
        (reportsOf caches station).length < station.reportCount ∨
          OldestSent (reportsOf caches station) := by
  rw [reportsOf_readReport_self hdb]
  obtain ⟨-, -, last, hlast, -⟩ := handleNewReportRead_eq_some.1 happend
  simp only [readInto, happend]
  cases hreports : reportsOf caches station with
  | nil => simp [hreports] at hlast
  | cons oldest rest =>
      rw [pending_appendReport]
      simp only [OldestSent, List.head?_cons, Option.mem_some_iff, exists_eq_left']
      rcases Nat.lt_or_ge (pending (oldest :: rest)).length station.reportCount with hroom | hnone
      · simp [hroom, Nat.not_le.2 hroom]
      · simp [hnone, Nat.not_lt.2 hnone]

/-- A cache whose only list is full: a pending report, then a sent one. -/
def fullCache : Caches :=
  AList.singleton smallStation
    [reportOfRead smallStation (smallBlock 1 1 0) 10,
      { reportOfRead smallStation (smallBlock 2 2 0) 20 with sent := true }]

theorem readReport_keepsPending_iff_fullCache :
    ¬ ((pending (reportsOf fullCache smallStation)).length < smallStation.reportCount →
        KeepsPending (reportsOf fullCache smallStation)
          (reportsOf (readReport smallStation (some (smallBlock 3 3 0)) 30 fullCache) smallStation)
          (reportOfRead smallStation (smallBlock 3 3 0) 30)) := by
  rw [readReport_keepsPending_iff (by decide) (by decide)]
  unfold OldestSent
  decide

/-- **A pending report is lost although there is room**: the list of `fullCache` has one pending
report and room for two, and the read of a new task drops it. -/
theorem readReport_evicts_pending :
    0 < smallStation.reportDb ∧
      handleNewReportRead smallStation (reportsOf fullCache smallStation).getLast?
        (smallBlock 3 3 0) 30 = some (reportOfRead smallStation (smallBlock 3 3 0) 30) ∧
      (pending (reportsOf fullCache smallStation)).length < smallStation.reportCount ∧
      ¬ KeepsPending (reportsOf fullCache smallStation)
          (reportsOf (readReport smallStation (some (smallBlock 3 3 0)) 30 fullCache) smallStation)
          (reportOfRead smallStation (smallBlock 3 3 0) 30) := by
  unfold KeepsPending
  decide

/-! ### Configurations -/

/-- The pending reports held under a station id are still in the cache after the configuration. -/
def ConfigurationKeeps (stations : List FillStation) (caches : Caches) (id : String) : Prop :=
  ∀ station ∈ caches, station.id = id → ∀ r ∈ pending (reportsOf caches station),
    ∃ station', r ∈ reportsOf (updateFillStations stations caches) station'

/-- **The exact condition**: a configuration keeps the pending reports held under a station id
exactly when each of them is in the list of a record that the configuration has unchanged. -/
theorem configurationKeeps_iff (stations : List FillStation) (caches : Caches) (id : String) :
    ConfigurationKeeps stations caches id ↔
      ∀ station ∈ caches, station.id = id → ∀ r ∈ pending (reportsOf caches station),
        ∃ station' ∈ stations, r ∈ reportsOf caches station' := by
  have hkept : ∀ station' r, r ∈ reportsOf (updateFillStations stations caches) station' ↔
      station' ∈ stations ∧ r ∈ reportsOf caches station' := by
    intro station' r
    rw [reportsOf_updateFillStations]
    split_ifs with hmem
    · simp [hmem]
    · simp [hmem]
  simp only [ConfigurationKeeps, hkept]

/-- The small station, with room for one more report. -/
def editedStation : FillStation := { smallStation with reportCount := 3 }

/-- **An edited station loses its pending report**: its id is in the cache and in the new
configuration, and no station has the report after it. -/
theorem edited_station_drops_pending :
    smallStation ∈ oneReportCache ∧ editedStation.id = smallStation.id ∧
      (pending (reportsOf oneReportCache smallStation)).length = 1 ∧
      ¬ ConfigurationKeeps [editedStation] oneReportCache smallStation.id := by
  refine ⟨by decide, rfl, by decide, fun hkeeps => ?_⟩
  obtain ⟨station, hr⟩ := hkeeps smallStation (by decide) rfl
    (reportOfRead smallStation (smallBlock 1 1 0) 10) (by decide)
  rw [reportsOf_updateFillStations] at hr
  split_ifs at hr with hstation
  · rw [List.mem_singleton.1 hstation] at hr
    exact absurd hr (by decide)
  · cases hr

end FillingPilot
