/-
**What an acknowledgement does, and what it leaves.**

The id of a report is the clock reading of the read that made it, in milliseconds, and an
acknowledgement goes through the lists of all stations.  Two reports that are made within a
millisecond have the same id, and one acknowledgement marks both; this is the only way in which ids
come to be equal.  A report that is marked stays marked: no operation takes the mark back, so that
an acknowledged report is not sent again.

Main definitions:

* `FillingPilot.keptReports` — what an append keeps;
* `FillingPilot.Mints` — a read that makes a new report;
* `FillingPilot.OneReportPerAck` — all ids differ, and an acknowledgement marks one report;
* `FillingPilot.Survives` — what a report may become.

Main results:

* `FillingPilot.cacheStep_distinct` — what one step keeps;
* `FillingPilot.oneReportPerAck_iff` — **the exact condition** under which all ids stay distinct;
* `FillingPilot.same_tick_same_id` — two stations read within a millisecond;
* `FillingPilot.cacheStep_survives` — what one step makes of the reports of a station;
* `FillingPilot.acknowledged_not_sent_again` — **an acknowledged report is not sent again**.
-/

import FillingPilot.CacheRuns
import Mathlib.Data.List.Forall2

set_option relaxedAutoImplicit false
set_option autoImplicit false

namespace FillingPilot

/-! ### New reports -/

/-- What an append keeps: the unsent reports, without the oldest report of a full list. -/
def keptReports (station : FillStation) (reports : List PlcReport) : List PlcReport :=
  (if station.reportCount ≤ reports.length then reports.drop 1 else reports).filter
    fun r => !r.sent

theorem appendReport_eq (station : FillStation) (reports : List PlcReport) (r : PlcReport) :
    appendReport station reports r = keptReports station reports ++ [r] := rfl

theorem keptReports_sublist (station : FillStation) (reports : List PlcReport) :
    (keptReports station reports).Sublist reports := by
  unfold keptReports
  split_ifs
  · exact List.filter_sublist.trans (List.drop_sublist 1 reports)
  · exact List.filter_sublist

/-- The event is a read that makes the new report `r`. -/
def Mints (st : CacheState) (e : CacheEvent) (r : PlcReport) : Prop :=
  match e with
  | .read station (some reportData) nowMillis =>
      0 < station.reportDb ∧
        handleNewReportRead station (reportsOf st.caches station).getLast? reportData nowMillis =
          some r
  | _ => False

theorem reportOfRead_reportId (station : FillStation) (reportData : List UInt8) (nowMillis : ℕ) :
    (reportOfRead station reportData nowMillis).reportId = Int.bmod nowMillis (2 ^ 64) := by
  dsimp only [reportOfRead]

theorem map_reportId_refreshLast (hex : String) (reports : List PlcReport) :
    (refreshLast hex reports).map PlcReport.reportId = reports.map PlcReport.reportId := by
  induction reports using List.reverseRecOn with
  | nil => rfl
  | append_singleton reports last _ =>
      have hlast : (last.refresh hex).reportId = last.reportId := by
        unfold PlcReport.refresh
        split <;> rfl
      simp only [refreshLast_concat, List.map_append, List.map_cons, List.map_nil, hlast]

theorem PlcReport.acknowledge_reportId (reportId : ℤ) (r : PlcReport) :
    (r.acknowledge reportId).reportId = r.reportId := by
  unfold acknowledge
  split <;> rfl

/-! ### Distinct ids -/

/-- The ids of all reports differ. -/
def DistinctIds (caches : Caches) : Prop := ((allReports caches).map PlcReport.reportId).Nodup

instance (caches : Caches) : Decidable (DistinctIds caches) := by
  unfold DistinctIds
  infer_instance

/-- The reports that an acknowledgement changes. -/
def marked (reportId : ℤ) (caches : Caches) : List PlcReport :=
  (allReports caches).filter fun r => r.acknowledge reportId ≠ r

/-- Where the ids of all reports differ, an acknowledgement marks at most one report. -/
theorem length_marked_le_one {caches : Caches} (h : DistinctIds caches) (reportId : ℤ) :
    (marked reportId caches).length ≤ 1 := by
  have hid : ∀ r : PlcReport, r.acknowledge reportId ≠ r → r.reportId = reportId := by
    intro r hr
    by_contra hne
    exact hr (if_neg hne)
  -- only reports of the id change, and the id stands among all ids at most once
  calc (marked reportId caches).length
      = (allReports caches).countP fun r => r.acknowledge reportId ≠ r :=
        List.countP_eq_length_filter.symm
    _ ≤ (allReports caches).countP fun r => r.reportId == reportId :=
        List.countP_mono_left fun r _ hr => by simpa using hid r (by simpa using hr)
    _ = ((allReports caches).map PlcReport.reportId).count reportId := by
        rw [List.count, List.countP_map]
        rfl
    _ ≤ 1 := List.nodup_iff_count_le_one.1 h reportId

/-- The ids of all reports differ, and no acknowledgement marks two. -/
structure OneReportPerAck (st : CacheState) : Prop where
  distinct : DistinctIds st.caches
  one : ∀ reportId, (marked reportId st.caches).length ≤ 1

theorem oneReportPerAck_iff_distinctIds {st : CacheState} :
    OneReportPerAck st ↔ DistinctIds st.caches :=
  ⟨OneReportPerAck.distinct, fun h => ⟨h, length_marked_le_one h⟩⟩

/-- If the read makes a new report, its clock reading is not the id of a report that stays. -/
def MintsFresh (st : CacheState) : CacheEvent → Prop
  | .read station (some reportData) nowMillis =>
      0 < station.reportDb → validStart station reportData = true →
        ∀ last, (reportsOf st.caches station).getLast? = some last →
          IsNew last (reportOfRead station reportData nowMillis) →
          ∀ r ∈ keptReports station (reportsOf st.caches station) ++
              otherReports st.caches station, r.reportId ≠ Int.bmod nowMillis (2 ^ 64)
  | _ => True

/-- **What one read keeps**: the ids stay distinct exactly when a new report has one of its own. -/
theorem readReport_distinct_iff {station : FillStation} (hdb : 0 < station.reportDb)
    {reportData : List UInt8} {nowMillis : ℕ} {caches : Caches} (h : DistinctIds caches) :
    DistinctIds (readReport station (some reportData) nowMillis caches) ↔
      ∀ report, handleNewReportRead station (reportsOf caches station).getLast? reportData
          nowMillis = some report →
        ∀ r ∈ keptReports station (reportsOf caches station) ++ otherReports caches station,
          r.reportId ≠ report.reportId := by
  have hids : ((reportsOf caches station ++ otherReports caches station).map
      PlcReport.reportId).Nodup := ((allReports_perm caches station).map _).nodup_iff.1 h
  rw [DistinctIds, allReports_readReport hdb, readInto]
  cases hread : handleNewReportRead station (reportsOf caches station).getLast? reportData
      nowMillis with
  | none =>
      -- the report that is rewritten keeps its id
      rw [List.map_append, map_reportId_refreshLast, ← List.map_append]
      simpa using hids
  | some report =>
      -- what is kept has distinct ids already, so that only the new id can be there twice
      set kept := keptReports station (reportsOf caches station)
      have hkept : ((kept ++ otherReports caches station).map PlcReport.reportId).Nodup :=
        hids.sublist (((keptReports_sublist _ _).append_right _).map _)
      have hperm : (appendReport station (reportsOf caches station) report ++
          otherReports caches station).Perm (report :: (kept ++ otherReports caches station)) := by
        rw [appendReport_eq, List.append_assoc, List.singleton_append]
        exact List.perm_middle
      simp only [(hperm.map PlcReport.reportId).nodup_iff, List.map_cons, List.nodup_cons, hkept,
        and_true, Option.some.injEq, forall_eq', List.mem_map, not_exists, not_and]

/-- **What one step keeps**: the ids stay distinct exactly when a new report has one of its own. -/
theorem cacheStep_distinct {st st' : CacheState} {e : CacheEvent} (hst : DistinctIds st.caches)
    (h : cacheStep st e = some st') : DistinctIds st'.caches ↔ MintsFresh st e := by
  cases e with
  | read station answer nowMillis =>
      cases h
      cases answer with
      | none =>
          rw [readReport_none]
          exact iff_of_true hst trivial
      | some reportData =>
          by_cases hdb : 0 < station.reportDb
          · rw [readReport_distinct_iff hdb hst]
            constructor
            · intro h _ hvalid last hlast hnew
              rw [← reportOfRead_reportId station reportData]
              exact h _ (handleNewReportRead_eq_some.2 ⟨hvalid, rfl, last, hlast, hnew⟩)
            · intro h report hread
              obtain ⟨hvalid, rfl, last, hlast, hnew⟩ := handleNewReportRead_eq_some.1 hread
              rw [reportOfRead_reportId]
              exact h hdb hvalid last hlast hnew
          · rw [readReport_of_not_pos hdb]
            exact iff_of_true hst fun hpos => absurd hpos hdb
  | delete reportId =>
      cases h
      refine iff_of_true ?_ trivial
      have hids : PlcReport.reportId ∘ PlcReport.acknowledge reportId = PlcReport.reportId :=
        funext (PlcReport.acknowledge_reportId reportId)
      rw [DistinctIds, allReports_deleteReport, List.map_map, hids]
      exact hst
  | configure stations =>
      cases h
      exact iff_of_true (hst.sublist ((allReports_updateFillStations_sublist _ _).map _)) trivial
  | collect =>
      cases h
      exact iff_of_true hst trivial

/-- **The exact condition**: all ids differ, and no acknowledgement marks two reports, in every
state of a run exactly when every new report of the run is made at a clock reading that is not the
id of a report that stays. -/
theorem oneReportPerAck_iff {st : CacheState} (hst : DistinctIds st.caches)
    (events : List CacheEvent) :
    Lts.Always cacheStep OneReportPerAck st events ↔ Lts.Along cacheStep MintsFresh st events := by
  refine Lts.always_iff_along_of_enabled cacheStep_ne_none ?_
    (oneReportPerAck_iff_distinctIds.2 hst)
  intro s e s' hs h
  rw [oneReportPerAck_iff_distinctIds]
  exact cacheStep_distinct hs.distinct h

/-- A second station of the same kind. -/
def secondStation : FillStation := { smallStation with id := "FS2", ip := "10.0.0.2" }

/-- Two stations with one unsent report each, of ids 10 and 11. -/
def twoStationState : CacheState where
  caches := (AList.singleton secondStation [reportOfRead secondStation (smallBlock 1 1 0) 11]).insert
    smallStation [reportOfRead smallStation (smallBlock 1 1 0) 10]
  clock := 20
  emitted := []

/-- Both stations have a new task, and are read within one millisecond. -/
def sameTick : List CacheEvent :=
  [.read smallStation (some (smallBlock 2 2 0)) 20, .read secondStation (some (smallBlock 2 2 0)) 20]

theorem oneReportPerAck_iff_sameTick :
    ¬ Lts.Always cacheStep OneReportPerAck twoStationState sameTick := by
  rw [oneReportPerAck_iff (by decide)]
  intro h
  have hsecond := (h.2 _ rfl).1
  exact hsecond (by decide) (by decide) _ rfl (by decide)
    (reportOfRead smallStation (smallBlock 2 2 0) 20) (by decide) rfl

/-- **Two reports of one id**: after `sameTick` an acknowledgement of the id 20 marks two reports.
-/
theorem same_tick_same_id :
    DistinctIds twoStationState.caches ∧
      (∀ r ∈ allReports twoStationState.caches, r.reportId ≤ twoStationState.clock) ∧
      Lts.Along cacheStep ClockForward twoStationState sameTick ∧
      ∃ st, Lts.run cacheStep twoStationState sameTick = some st ∧ ¬ DistinctIds st.caches ∧
        (marked 20 st.caches).length = 2 := by
  refine ⟨by decide, by decide, ?_, _, rfl, by decide, by decide⟩
  refine Lts.Along.of_step (by simp [ClockForward, twoStationState]) rfl ?_
  exact Lts.Along.of_step (by simp [ClockForward]) rfl trivial

/-! ### Acknowledged reports -/

/-- What a report may become: its content may be replaced while it is unsent, and it may be marked
as sent. -/
structure Survives (after before : PlcReport) : Prop where
  same : after = { before with hexContent := after.hexContent, sent := after.sent }
  kept : before.sent = true → after = before

@[refl] theorem Survives.refl (r : PlcReport) : Survives r r := ⟨rfl, fun _ => rfl⟩

instance : Std.Refl Survives := ⟨Survives.refl⟩

theorem survives_refresh (hex : String) (r : PlcReport) : Survives (r.refresh hex) r := by
  cases hsent : r.sent with
  | true => rw [PlcReport.refresh_of_sent hsent]
  | false =>
      rw [PlcReport.refresh_of_unsent hsent]
      exact ⟨rfl, fun h => by rw [hsent] at h; cases h⟩

theorem survives_acknowledge (reportId : ℤ) (r : PlcReport) :
    Survives (r.acknowledge reportId) r := by
  unfold PlcReport.acknowledge
  split_ifs
  · exact ⟨rfl, fun hsent => by rw [← hsent]⟩
  · exact Survives.refl r

/-- The reports of `after` come from reports of `before`, in the same order. -/
abbrev AllSurvive (after before : List PlcReport) : Prop := List.SublistForall₂ Survives after before

theorem allSurvive_of_sublist {after before : List PlcReport} (h : after.Sublist before) :
    AllSurvive after before := h.sublistForall₂

theorem allSurvive_refreshLast (hex : String) (reports : List PlcReport) :
    AllSurvive (refreshLast hex reports) reports := by
  refine List.sublistForall₂_iff.2 ⟨reports, ?_, List.Sublist.refl _⟩
  induction reports using List.reverseRecOn with
  | nil => exact List.Forall₂.nil
  | append_singleton reports last _ =>
      rw [refreshLast_concat]
      exact List.rel_append (List.forall₂_refl reports)
        (List.Forall₂.cons (survives_refresh hex last) List.Forall₂.nil)

theorem allSurvive_acknowledge (reportId : ℤ) (reports : List PlcReport) :
    AllSurvive (reports.map (PlcReport.acknowledge reportId)) reports := by
  refine List.sublistForall₂_iff.2 ⟨reports, ?_, List.Sublist.refl _⟩
  rw [List.forall₂_map_left_iff, List.forall₂_same]
  exact fun r _ => survives_acknowledge reportId r

/-- Every report comes from one of `before`. -/
theorem AllSurvive.origin {after before : List PlcReport} (h : AllSurvive after before) :
    ∀ r ∈ after, ∃ b ∈ before, Survives r b := by
  induction h with
  | nil => exact fun r hr => absurd hr List.not_mem_nil
  | cons hsurvives _ ih =>
      intro r hr
      rcases List.mem_cons.1 hr with rfl | hr
      · exact ⟨_, List.mem_cons_self, hsurvives⟩
      · obtain ⟨b, hb, hrb⟩ := ih r hr
        exact ⟨b, List.mem_cons_of_mem _ hb, hrb⟩
  | cons_right _ ih =>
      intro r hr
      obtain ⟨b, hb, hrb⟩ := ih r hr
      exact ⟨b, List.mem_cons_of_mem _ hb, hrb⟩

/-- What a step makes of the reports of a station: some of the old ones survive, and at most new
ones are added. -/
def StepSurvives (st : CacheState) (e : CacheEvent) (st' : CacheState) : Prop :=
  ∀ station, ∃ old minted, reportsOf st'.caches station = old ++ minted ∧
    AllSurvive old (reportsOf st.caches station) ∧ ∀ r ∈ minted, Mints st e r

theorem AllSurvive.unminted {after before : List PlcReport} (h : AllSurvive after before)
    (st : CacheState) (e : CacheEvent) : ∃ old minted, after = old ++ minted ∧
      AllSurvive old before ∧ ∀ r ∈ minted, Mints st e r :=
  ⟨after, [], (List.append_nil after).symm, h, fun _ hr => absurd hr List.not_mem_nil⟩

theorem stepSurvives_of_allSurvive {st st' : CacheState} {e : CacheEvent}
    (h : ∀ station, AllSurvive (reportsOf st'.caches station) (reportsOf st.caches station)) :
    StepSurvives st e st' :=
  fun station => (h station).unminted st e

/-- **What a step makes of the reports of a station.** -/
theorem cacheStep_survives {st st' : CacheState} {e : CacheEvent} (h : cacheStep st e = some st') :
    StepSurvives st e st' := by
  cases e with
  | read station answer nowMillis =>
      cases h
      cases answer with
      | none =>
          refine stepSurvives_of_allSurvive fun other => allSurvive_of_sublist ?_
          rw [readReport_none]
      | some reportData =>
          by_cases hdb : 0 < station.reportDb
          · intro other
            by_cases hother : other = station
            · subst hother
              simp only [reportsOf_readReport_self hdb, readInto]
              cases hread : handleNewReportRead other (reportsOf st.caches other).getLast?
                  reportData nowMillis with
              | none => exact (allSurvive_refreshLast _ _).unminted st _
              | some report =>
                  -- the kept reports are a sublist of the old ones, and the new one comes last
                  refine ⟨_, [report], appendReport_eq _ _ _,
                    allSurvive_of_sublist (keptReports_sublist _ _), fun r hr => ?_⟩
                  rw [List.mem_singleton] at hr
                  subst hr
                  exact ⟨hdb, hread⟩
            · rw [reportsOf_readReport_ne hother]
              exact (allSurvive_of_sublist (List.Sublist.refl _)).unminted st _
          · refine stepSurvives_of_allSurvive fun other => allSurvive_of_sublist ?_
            rw [readReport_of_not_pos hdb]
  | delete reportId =>
      cases h
      refine stepSurvives_of_allSurvive fun station => ?_
      rw [reportsOf_deleteReport]
      exact allSurvive_acknowledge reportId _
  | configure stations =>
      cases h
      refine stepSurvives_of_allSurvive fun station => allSurvive_of_sublist ?_
      rw [reportsOf_updateFillStations]
      split_ifs
      · exact List.Sublist.refl _
      · exact List.nil_sublist _
  | collect =>
      cases h
      exact stepSurvives_of_allSurvive fun station => allSurvive_of_sublist (List.Sublist.refl _)

/-- Every report of the id was sent. -/
def Acknowledged (reportId : ℤ) (caches : Caches) : Prop :=
  ∀ station, ∀ r ∈ reportsOf caches station, r.reportId = reportId → r.sent = true

/-- The step does not make a new report of the id. -/
def NoMint (reportId : ℤ) (st : CacheState) (e : CacheEvent) : Prop :=
  ∀ r, Mints st e r → r.reportId ≠ reportId

theorem acknowledged_deleteReport (reportId : ℤ) (caches : Caches) :
    Acknowledged reportId (deleteReport reportId caches) := by
  intro station r hr hid
  rw [reportsOf_deleteReport] at hr
  obtain ⟨before, -, rfl⟩ := List.mem_map.1 hr
  rw [PlcReport.acknowledge_reportId] at hid
  simp [PlcReport.acknowledge, hid]

/-- A step that makes no new report of the id leaves its reports acknowledged. -/
theorem cacheStep_acknowledged {reportId : ℤ} {st st' : CacheState} {e : CacheEvent}
    (hmint : NoMint reportId st e) (hst : Acknowledged reportId st.caches)
    (h : cacheStep st e = some st') : Acknowledged reportId st'.caches := by
  intro station r hr hid
  obtain ⟨old, minted, hreports, hold, hnew⟩ := cacheStep_survives h station
  rw [hreports] at hr
  rcases List.mem_append.1 hr with hr | hr
  · obtain ⟨before, hbefore, hsurvives⟩ := hold.origin r hr
    -- the report it comes from has the id too, so that it was sent and has stayed as it was
    have hsent : before.sent = true := by
      refine hst station before hbefore ?_
      rw [← hid, hsurvives.same]
    rw [hsurvives.kept hsent, hsent]
  · exact absurd hid (hmint r (hnew r hr))

theorem cacheStep_emitted {st st' : CacheState} {e : CacheEvent} (h : cacheStep st e = some st') :
    ∃ later, st'.emitted = st.emitted ++ later ∧ ∀ p ∈ later, p ∈ unsentReports st.caches := by
  cases e with
  | collect =>
      cases h
      exact ⟨_, rfl, fun p hp => hp⟩
  | _ =>
      cases h
      exact ⟨[], (List.append_nil _).symm, fun p hp => absurd hp List.not_mem_nil⟩

/-- **An acknowledged report is not sent again**: after the acknowledgement no report of the id is
sent, unless a read makes a new one; and no step takes back the mark of a report. -/
theorem acknowledged_not_sent_again {reportId : ℤ} {st st' : CacheState} {events : List CacheEvent}
    (hmint : Lts.Along cacheStep (NoMint reportId) st (.delete reportId :: events))
    (hrun : Lts.run cacheStep st (.delete reportId :: events) = some st') :
    (∃ later, st'.emitted = st.emitted ++ later ∧ ∀ p ∈ later, p.2.reportId ≠ reportId) ∧
      ∀ s e s', cacheStep s e = some s' → StepSurvives s e s' := by
  refine ⟨?_, fun s e s' => cacheStep_survives⟩
  -- the invariant after the acknowledgement: all reports of the id are marked, and none was sent since
  let Silent (s : CacheState) : Prop := Acknowledged reportId s.caches ∧
    ∃ later, s.emitted = st.emitted ++ later ∧ ∀ p ∈ later, p.2.reportId ≠ reportId
  have hstep : ∀ s e s', NoMint reportId s e → Silent s → cacheStep s e = some s' → Silent s' := by
    rintro s e s' hno ⟨hack, later, hemitted, hlater⟩ h
    refine ⟨cacheStep_acknowledged hno hack h, ?_⟩
    obtain ⟨more, hmore, hunsent⟩ := cacheStep_emitted h
    refine ⟨later ++ more, by rw [hmore, hemitted, List.append_assoc], fun p hp hid => ?_⟩
    rcases List.mem_append.1 hp with hp | hp
    · exact hlater p hp hid
    · obtain ⟨hreport, hsent⟩ := mem_unsentReports.1 (hunsent p hp)
      have hsent' := hack p.1 p.2 hreport hid
      rw [hsent'] at hsent
      cases hsent
  obtain ⟨acked, hacked, hrun⟩ := Lts.run_cons.1 hrun
  have halong := hmint.2 acked hacked
  cases hacked
  have hstart : Silent { st with caches := deleteReport reportId st.caches } :=
    ⟨acknowledged_deleteReport reportId st.caches, [], (List.append_nil _).symm,
      fun p hp => absurd hp List.not_mem_nil⟩
  exact (Lts.run_invariant hstep hstart halong hrun).2

/-- After the acknowledgement, the read of a new task and a collection. -/
def nextTask : List CacheEvent := [.read smallStation (some (smallBlock 2 2 0)) 30, .collect]

theorem acknowledged_not_sent_again_nextTask :
    ∃ st', Lts.run cacheStep oneReportState (.delete 10 :: nextTask) = some st' ∧
      ∃ later, st'.emitted = oneReportState.emitted ++ later ∧ ∀ p ∈ later, p.2.reportId ≠ 10 := by
  have hmint : Lts.Along cacheStep (NoMint 10) oneReportState (.delete 10 :: nextTask) := by
    refine Lts.Along.of_step (fun r h => h.elim) rfl (Lts.Along.of_step ?_ rfl ?_)
    · rintro r ⟨-, hread⟩
      obtain ⟨-, rfl, -⟩ := handleNewReportRead_eq_some.1 hread
      decide
    · exact Lts.Along.of_step (fun r h => h.elim) rfl trivial
  exact ⟨_, rfl, (acknowledged_not_sent_again hmint rfl).1⟩

end FillingPilot
