/-
The report cache under its operations in any order.

The report loop, the acknowledgements and the configurations all work on the one cache, each
through a lock section of its own.  Here the sections come in any order and for any stations, so
that a pass of the loop is one of the runs.

Main definitions:

* `FillingPilot.CacheState`, `FillingPilot.CacheEvent`, `FillingPilot.cacheStep` — the cache as a
  transition system;
* `FillingPilot.allReports` — the reports of all stations.

Main results:

* `FillingPilot.mem_readInto` — **where a report comes from** after a read;
* `FillingPilot.run_pass` — a pass of the loop is a run.
-/

import FillingPilot.ReportCache
import FillingPilot.Runs

set_option relaxedAutoImplicit false
set_option autoImplicit false

namespace FillingPilot

open Json Rust

/-! ### The transition system -/

/-- The cache, the last clock reading, and the reports that were sent, with their stations. -/
structure CacheState where
  caches : Caches
  clock : ℕ
  emitted : List (FillStation × PlcReport)

/-- A lock section of the cache. -/
inductive CacheEvent
  /-- A read of a station: the PLC's answer and the clock reading. -/
  | read (station : FillStation) (answer : Option (List UInt8)) (nowMillis : ℕ)
  /-- An acknowledgement. -/
  | delete (reportId : ℤ)
  /-- A configuration. -/
  | configure (stations : List FillStation)
  /-- The unsent reports are collected and sent. -/
  | collect

/-- One lock section. -/
def cacheStep (st : CacheState) : CacheEvent → Option CacheState
  | .read station answer nowMillis =>
      some { st with caches := readReport station answer nowMillis st.caches, clock := nowMillis }
  | .delete reportId => some { st with caches := deleteReport reportId st.caches }
  | .configure stations => some { st with caches := updateFillStations stations st.caches }
  | .collect => some { st with emitted := st.emitted ++ unsentReports st.caches }

theorem cacheStep_ne_none (st : CacheState) (e : CacheEvent) : cacheStep st e ≠ none := by
  cases e <;> simp [cacheStep]

/-- The clock does not go back. -/
def ClockForward (st : CacheState) : CacheEvent → Prop
  | .read _ _ nowMillis => st.clock ≤ nowMillis
  | _ => True

/-- The cache of `oneReportCache`, before anything was sent. -/
def oneReportState : CacheState := ⟨oneReportCache, 10, []⟩

/-! ### Passes -/

/-- **A pass of the loop is a run**: its reads in turn, then the collection. -/
theorem run_pass (stations : List FillStation) (answer : FillStation → Option (List UInt8))
    (nowMillis : FillStation → ℕ) (st : CacheState) :
    ∃ st', Lts.run cacheStep st
        ((stations.map fun s => .read s (answer s) (nowMillis s)) ++ [.collect]) = some st' ∧
      st'.caches = (readAndSendReportsDirect stations answer nowMillis st.caches).1 ∧
      (st'.emitted.map fun p => reportMessage p.2) = (st.emitted.map fun p => reportMessage p.2) ++
        (readAndSendReportsDirect stations answer nowMillis st.caches).2 := by
  simp only [readAndSendReportsDirect]
  induction stations generalizing st with
  | nil => exact ⟨_, rfl, rfl, by rw [List.map_append, unsentMessages_eq]; rfl⟩
  | cons s ss ih => exact ih _

/-! ### Where a report comes from -/

/-- **Where a report comes from** after a read: it is the new one, or it was there before, or it is
the last one, unsent and not superseded, with new content. -/
theorem mem_readInto {station : FillStation} {reportData : List UInt8} {nowMillis : ℕ}
    {reports : List PlcReport} {r : PlcReport}
    (h : r ∈ readInto station reportData nowMillis reports) :
    handleNewReportRead station reports.getLast? reportData nowMillis = some r ∨ r ∈ reports ∨
      ∃ last, reports.getLast? = some last ∧ last.sent = false ∧
        handleNewReportRead station (some last) reportData nowMillis = none ∧
          r = { last with hexContent := hexEncode reportData } := by
  unfold readInto at h
  split at h
  · -- a new report, behind those of the old ones that are kept
    rename_i report hread
    rcases List.mem_append.1 h with hkept | hnew
    · refine Or.inr (Or.inl ?_)
      have hpopped := List.mem_of_mem_filter hkept
      split_ifs at hpopped
      · exact List.mem_of_mem_drop hpopped
      · exact hpopped
    · rw [List.mem_singleton] at hnew
      exact Or.inl (hnew ▸ hread)
  · -- no new report: only the last one may change
    rename_i hread
    refine Or.inr ?_
    induction reports using List.reverseRecOn with
    | nil => exact absurd h List.not_mem_nil
    | append_singleton reports last _ =>
        have hlast : (reports ++ [last]).getLast? = some last := List.getLast?_concat
        rw [refreshLast_concat, List.mem_append, List.mem_singleton] at h
        rw [hlast] at hread
        rcases h with hold | rfl
        · exact Or.inl (List.mem_append_left _ hold)
        · cases hsent : last.sent with
          | true =>
              rw [PlcReport.refresh_of_sent hsent]
              exact Or.inl (List.mem_of_getLast? hlast)
          | false =>
              exact Or.inr ⟨last, hlast, hsent, hread, PlcReport.refresh_of_unsent hsent⟩

/-! ### The reports of all stations -/

/-- The reports of all stations. -/
def allReports (caches : Caches) : List PlcReport := caches.flatValues

/-- The reports of the other stations. -/
def otherReports (caches : Caches) (station : FillStation) : List PlcReport :=
  (caches.erase station).flatValues

/-- The reports of all stations are those of one station and those of the others. -/
theorem allReports_perm (caches : Caches) (station : FillStation) :
    (allReports caches).Perm (reportsOf caches station ++ otherReports caches station) :=
  AList.flatValues_perm station caches

theorem allReports_readReport {station : FillStation} (hdb : 0 < station.reportDb)
    (reportData : List UInt8) (nowMillis : ℕ) (caches : Caches) :
    allReports (readReport station (some reportData) nowMillis caches) =
      readInto station reportData nowMillis (reportsOf caches station) ++
        otherReports caches station := by
  simp only [readReport, if_neg (Int.not_le.2 hdb)]
  rfl

@[simp] theorem allReports_deleteReport (reportId : ℤ) (caches : Caches) :
    allReports (deleteReport reportId caches) =
      (allReports caches).map (PlcReport.acknowledge reportId) :=
  AList.flatValues_mapValues _ _

theorem allReports_updateFillStations_sublist (stations : List FillStation) (caches : Caches) :
    (allReports (updateFillStations stations caches)).Sublist (allReports caches) :=
  (AList.flatValues_insertAll_nil_sublist _ _).trans (AList.flatValues_filterKeys_sublist _ _)

end FillingPilot
