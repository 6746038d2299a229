/-
What a report says about its own content.

A report carries the content of a block and, beside it, the task id and the times that were read
from the block when the report was made.  A read that makes no new report may rewrite the content
of the last one, and then leaves the task id and the times as they were; it does so for every
reason a read has for making no new report, a start time that cannot be read among them.

Main definitions:

* `FillingPilot.Untouched` — a list that a read without a new report leaves alone;
* `FillingPilot.Describes`, `FillingPilot.Coherent` — the task id and the times are those of the
  content;
* `FillingPilot.UpdateAgrees` — a read that rewrites a report agrees with it.

Main results:

* `FillingPilot.rejectedRead_noop_iff` — **the exact condition** under which a read without a valid
  start time changes nothing;
* `FillingPilot.rejectedRead_rewrites` — a block of zeros that becomes the content of a report;
* `FillingPilot.cacheStep_coherent` — what one step keeps;
* `FillingPilot.coherent_iff` — **the exact condition** under which all reports stay coherent;
* `FillingPilot.updated_report_incoherent` — a report whose end time is not that of its content.
-/

import FillingPilot.CacheRuns

set_option relaxedAutoImplicit false
set_option autoImplicit false

namespace FillingPilot

open Rust

/-! ### Rejected reads -/

/-- The last report of the list, if there is one, was sent or has the content already. -/
def Untouched (hex : String) (reports : List PlcReport) : Prop :=
  ∀ last, reports.getLast? = some last → last.sent = true ∨ last.hexContent = hex

theorem PlcReport.refresh_eq_self_iff {hex : String} {r : PlcReport} :
    r.refresh hex = r ↔ r.sent = true ∨ r.hexContent = hex := by
  cases hsent : r.sent with
  | true => simp [refresh_of_sent hsent]
  | false =>
      rw [refresh_of_unsent hsent]
      constructor
      · intro h
        have hcontent : hex = r.hexContent := congrArg PlcReport.hexContent h
        exact Or.inr hcontent.symm
      · rintro (h | rfl)
        · cases h
        · rfl

theorem refreshLast_eq_self_iff {hex : String} {reports : List PlcReport} :
    refreshLast hex reports = reports ↔ Untouched hex reports := by
  unfold Untouched
  -- a refresh looks at the last report only, so the induction is from the end of the list
  induction reports using List.reverseRecOn with
  | nil => simp
  | append_singleton reports last _ =>
      rw [refreshLast_concat, List.append_cancel_left_eq, List.cons.injEq]
      simp only [and_true, List.getLast?_concat, Option.some.injEq, forall_eq']
      exact PlcReport.refresh_eq_self_iff

theorem readInto_of_rejected {station : FillStation} {reportData : List UInt8}
    (hinvalid : validStart station reportData = false) (nowMillis : ℕ) (reports : List PlcReport) :
    readInto station reportData nowMillis reports = refreshLast (hexEncode reportData) reports := by
  simp [readInto, handleNewReportRead_eq, hinvalid]

/-- **The exact condition**: a read without a valid start time leaves the cache as it was exactly
when no report is read from the station, or the cache has the station and its last report is sent or
has the content of the read. -/
theorem rejectedRead_noop_iff {station : FillStation} {reportData : List UInt8}
    (hinvalid : validStart station reportData = false) (nowMillis : ℕ) (caches : Caches) :
    (∀ s, (readReport station (some reportData) nowMillis caches).lookup s = caches.lookup s) ↔
      station.reportDb ≤ 0 ∨
        station ∈ caches ∧ Untouched (hexEncode reportData) (reportsOf caches station) := by
  by_cases hdb : station.reportDb ≤ 0
  · simp [readReport, hdb]
  · have hread : readReport station (some reportData) nowMillis caches =
        caches.insert station (refreshLast (hexEncode reportData) (reportsOf caches station)) := by
      rw [← readInto_of_rejected hinvalid nowMillis]
      exact if_neg hdb
    simp only [hread, hdb, false_or]
    constructor
    · intro h
      -- the station itself is found after the read, hence it was there before
      have hself := h station
      rw [AList.lookup_insert] at hself
      have hmem : station ∈ caches := AList.lookup_isSome.1 (by rw [← hself]; rfl)
      have hsame : refreshLast (hexEncode reportData) (reportsOf caches station) =
          reportsOf caches station := by
        conv_rhs => rw [reportsOf, ← hself, Option.getD_some]
      exact ⟨hmem, refreshLast_eq_self_iff.1 hsame⟩
    · rintro ⟨hmem, huntouched⟩ s
      rw [refreshLast_eq_self_iff.2 huntouched]
      by_cases hs : s = station
      · subst hs
        obtain ⟨reports, hreports⟩ := Option.isSome_iff_exists.1 (AList.lookup_isSome.2 hmem)
        rw [AList.lookup_insert, reportsOf, hreports, Option.getD_some]
      · rw [AList.lookup_insert_ne hs]

/-- A block of zeros, which has no month. -/
def zeroBlock : List UInt8 := List.replicate 24 0

theorem rejectedRead_noop_iff_zeroBlock :
    ¬ ∀ s, (readReport smallStation (some zeroBlock) 11 oneReportCache).lookup s =
      oneReportCache.lookup s := by
  rw [rejectedRead_noop_iff (by decide)]
  rintro (hdb | ⟨-, huntouched⟩)
  · exact absurd hdb (by decide)
  · exact absurd (huntouched _ rfl) (by decide)

/-- **A rejected read rewrites a report**: the block of zeros becomes its content. -/
theorem rejectedRead_rewrites :
    validStart smallStation zeroBlock = false ∧
      (reportsOf oneReportCache smallStation).map PlcReport.hexContent =
        [hexEncode (smallBlock 1 1 0)] ∧
      (reportsOf (readReport smallStation (some zeroBlock) 11 oneReportCache)
        smallStation).map PlcReport.hexContent = [hexEncode zeroBlock] := by
  decide

/-! ### Coherent reports -/

/-- The task id and the times are those in the block. -/
structure Describes (station : FillStation) (reportData : List UInt8) (r : PlcReport) : Prop where
  task : r.taskId = readTaskId station reportData
  start : extractS7Datetime reportData station.reportDbStartTimeOffset = some r.startTime
  stop : r.endTime = (extractS7Datetime reportData station.reportDbEndTimeOffset).getD 0

/-- The task id and the times of the report are those in its content. -/
def Coherent (station : FillStation) (r : PlcReport) : Prop :=
  ∃ reportData, r.hexContent = hexEncode reportData ∧ Describes station reportData r

theorem coherent_reportOfRead {station : FillStation} {reportData : List UInt8}
    (hvalid : validStart station reportData = true) (nowMillis : ℕ) :
    Coherent station (reportOfRead station reportData nowMillis) := by
  cases hstart : extractS7Datetime reportData station.reportDbStartTimeOffset with
  | none => simp [validStart, hstart] at hvalid
  | some t =>
      have htime : (reportOfRead station reportData nowMillis).startTime = t := by
        change (extractS7Datetime reportData station.reportDbStartTimeOffset).getD 0 = t
        rw [hstart, Option.getD_some]
      refine ⟨reportData, rfl, rfl, ?_, rfl⟩
      rw [hstart, htime]

/-- A report with new content is coherent exactly when it describes that content. -/
theorem coherent_rewritten_iff {station : FillStation} {reportData : List UInt8} {r : PlcReport} :
    Coherent station { r with hexContent := hexEncode reportData } ↔
      Describes station reportData r := by
  constructor
  · rintro ⟨data, hcontent, htask, hstart, hstop⟩
    obtain rfl : reportData = data := hexEncode_injective hcontent
    exact ⟨htask, hstart, hstop⟩
  · rintro ⟨htask, hstart, hstop⟩
    exact ⟨reportData, rfl, htask, hstart, hstop⟩

theorem coherent_acknowledge {station : FillStation} {reportId : ℤ} {r : PlcReport}
    (h : Coherent station r) : Coherent station (r.acknowledge reportId) := by
  obtain ⟨data, hcontent, htask, hstart, hstop⟩ := h
  unfold PlcReport.acknowledge
  split_ifs
  · exact ⟨data, hcontent, htask, hstart, hstop⟩
  · exact ⟨data, hcontent, htask, hstart, hstop⟩

/-- All reports, in the cache and sent, are coherent. -/
structure AllCoherent (st : CacheState) : Prop where
  cached : ∀ station, ∀ r ∈ reportsOf st.caches station, Coherent station r
  sent : ∀ p ∈ st.emitted, Coherent p.1 p.2

/-- If the read finds an unsent last report that it does not supersede, that report describes the
block. -/
def UpdateAgrees (st : CacheState) : CacheEvent → Prop
  | .read station (some reportData) nowMillis =>
      0 < station.reportDb →
        ∀ last, (reportsOf st.caches station).getLast? = some last → last.sent = false →
          ¬ (validStart station reportData = true ∧
            IsNew last (reportOfRead station reportData nowMillis)) →
          Describes station reportData last
  | _ => True

theorem handleNewReportRead_eq_none {station : FillStation} {last : PlcReport}
    {reportData : List UInt8} {nowMillis : ℕ} :
    handleNewReportRead station (some last) reportData nowMillis = none ↔
      ¬ (validStart station reportData = true ∧
        IsNew last (reportOfRead station reportData nowMillis)) := by
  rw [handleNewReportRead_eq, Option.bind_some]
  split_ifs with hvalid hnew
  · simp [hvalid, hnew]
  · simp [hnew]
  · simp [hvalid]

/-- **What one read keeps**: the list of the station stays coherent exactly when the read agrees
with the report it rewrites. -/
theorem readInto_coherent_iff {station : FillStation} {reportData : List UInt8} {nowMillis : ℕ}
    {reports : List PlcReport} (hreports : ∀ r ∈ reports, Coherent station r) :
    (∀ r ∈ readInto station reportData nowMillis reports, Coherent station r) ↔
      ∀ last, reports.getLast? = some last → last.sent = false →
        ¬ (validStart station reportData = true ∧
          IsNew last (reportOfRead station reportData nowMillis)) →
        Describes station reportData last := by
  constructor
  · intro h last hlast hsent hnot
    have hread := handleNewReportRead_eq_none.2 hnot
    -- the last report, with the new content, is in the list after the read
    have hmem : last.refresh (hexEncode reportData) ∈
        readInto station reportData nowMillis reports := by
      refine List.mem_of_getLast? ?_
      rw [readInto, hlast, hread, getLast?_refreshLast, hlast, Option.map_some]
    rw [PlcReport.refresh_of_unsent hsent] at hmem
    exact coherent_rewritten_iff.1 (h _ hmem)
  · intro h r hr
    rcases mem_readInto hr with hnew | hold | ⟨last, hlast, hsent, hread, rfl⟩
    · obtain ⟨hvalid, rfl, -⟩ := handleNewReportRead_eq_some.1 hnew
      exact coherent_reportOfRead hvalid nowMillis
    · exact hreports r hold
    · exact coherent_rewritten_iff.2 (h last hlast hsent (handleNewReportRead_eq_none.1 hread))

/-- **What one step keeps**: all reports stay coherent exactly when the step agrees with the report
it rewrites. -/
theorem cacheStep_coherent {st st' : CacheState} {e : CacheEvent} (hst : AllCoherent st)
    (h : cacheStep st e = some st') : AllCoherent st' ↔ UpdateAgrees st e := by
  cases e with
  | read station answer nowMillis =>
      cases h
      cases answer with
      | none =>
          rw [readReport_none]
          exact iff_of_true ⟨hst.cached, hst.sent⟩ trivial
      | some reportData =>
          by_cases hdb : 0 < station.reportDb
          · have hself := reportsOf_readReport_self hdb reportData nowMillis st.caches
            have hiff := @readInto_coherent_iff station reportData nowMillis _ (hst.cached station)
            constructor
            · intro hst' _
              have hcached := hst'.cached station
              rw [hself] at hcached
              exact hiff.1 hcached
            · intro hagrees
              refine ⟨fun other => ?_, hst.sent⟩
              -- the read writes the list of its own station only
              by_cases hother : other = station
              · subst hother
                rw [hself]
                exact hiff.2 (hagrees hdb)
              · rw [reportsOf_readReport_ne hother]
                exact hst.cached other
          · rw [readReport_of_not_pos hdb]
            exact iff_of_true ⟨hst.cached, hst.sent⟩ fun hpos => absurd hpos hdb
  | delete reportId =>
      cases h
      refine iff_of_true ⟨fun station r hr => ?_, hst.sent⟩ trivial
      rw [reportsOf_deleteReport] at hr
      obtain ⟨r, hold, rfl⟩ := List.mem_map.1 hr
      exact coherent_acknowledge (hst.cached station r hold)
  | configure stations =>
      cases h
      refine iff_of_true ⟨fun station r hr => ?_, hst.sent⟩ trivial
      rw [reportsOf_updateFillStations] at hr
      split_ifs at hr
      · exact hst.cached station r hr
      · cases hr
  | collect =>
      cases h
      refine iff_of_true ⟨hst.cached, fun p hp => ?_⟩ trivial
      rcases List.mem_append.1 hp with hold | hnew
      · exact hst.sent p hold
      · exact hst.cached p.1 p.2 (mem_unsentReports.1 hnew).1

/-- **The exact condition**: all reports, in the cache and sent, are coherent in every state of a
run exactly when every read of the run agrees with the report it rewrites. -/
theorem coherent_iff {st : CacheState} (hst : AllCoherent st) (events : List CacheEvent) :
    Lts.Always cacheStep AllCoherent st events ↔ Lts.Along cacheStep UpdateAgrees st events :=
  Lts.always_iff_along_of_enabled cacheStep_ne_none (fun _ _ _ hs h => cacheStep_coherent hs h) hst

/-- Task 1 goes on for five minutes, and is collected. -/
def fiveMinutes : List CacheEvent :=
  [.read smallStation (some (smallBlock 1 1 5)) 11, .collect]

theorem oneReportState_coherent : AllCoherent oneReportState := by
  refine ⟨fun station r hr => ?_, fun r hr => absurd hr List.not_mem_nil⟩
  by_cases hstation : station = smallStation
  · subst hstation
    have hreports : reportsOf oneReportState.caches smallStation =
        [reportOfRead smallStation (smallBlock 1 1 0) 10] := by decide
    rw [hreports, List.mem_singleton] at hr
    subst hr
    exact coherent_reportOfRead (by decide) 10
  · have hnone : oneReportState.caches.lookup station = none := by
      rw [AList.lookup_eq_none, oneReportState, oneReportCache, AList.mem_keys]
      simpa using hstation
    simp [reportsOf, hnone] at hr

theorem coherent_iff_fiveMinutes :
    ¬ Lts.Always cacheStep AllCoherent oneReportState fiveMinutes := by
  rw [coherent_iff oneReportState_coherent]
  intro h
  have hnot : ¬ (validStart smallStation (smallBlock 1 1 5) = true ∧
      IsNew (reportOfRead smallStation (smallBlock 1 1 0) 10)
        (reportOfRead smallStation (smallBlock 1 1 5) 11)) := by decide
  have hdescribes := h.1 (by decide) (reportOfRead smallStation (smallBlock 1 1 0) 10) rfl rfl hnot
  exact absurd hdescribes.stop (by decide)

/-- **A report disagrees with its content**: `fiveMinutes` sends a report with the content of the
second block and the end time of the first. -/
theorem updated_report_incoherent :
    AllCoherent oneReportState ∧ validStart smallStation (smallBlock 1 1 5) = true ∧
      ∃ st, Lts.run cacheStep oneReportState fiveMinutes = some st ∧
        ∃ p ∈ st.emitted, ¬ Coherent p.1 p.2 := by
  refine ⟨oneReportState_coherent, by decide, _, rfl, (smallStation, { reportOfRead smallStation
    (smallBlock 1 1 0) 10 with hexContent := hexEncode (smallBlock 1 1 5) }), by decide, ?_⟩
  rw [coherent_rewritten_iff]
  intro hdescribes
  exact absurd hdescribes.stop (by decide)

end FillingPilot
