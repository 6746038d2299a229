/-
**Polling a station whose block does not change.**

The report loop reads the block of a station again and again, and in between the server
acknowledges reports.  One read settles what the block has to say: a report was appended for it,
the last report took its content, or there was nothing to do, and all further reads of the same
bytes find it so, whatever the clock says and whatever was acknowledged meanwhile.

Main definitions:

* `FillingPilot.Settled` — a list of reports to which some bytes have nothing to add;
* `FillingPilot.PollsOf` — reads of the same bytes, and acknowledgements;
* `FillingPilot.PlcReport.markSent` — a report after some acknowledgements.

Main results:

* `FillingPilot.settled_readInto` — **one read settles** the list of its station;
* `FillingPilot.Settled.acknowledge` — an acknowledgement leaves it settled;
* `FillingPilot.polling_idempotent` — **every run of polls** after the first read does no more than
  mark the acknowledged reports.
-/

import FillingPilot.ReportContent

set_option relaxedAutoImplicit false
set_option autoImplicit false

namespace FillingPilot

open Rust

/-! ### Settled lists -/

/-- A read of the bytes makes no new report after the last one, at no time, and has nothing to
rewrite. -/
structure Settled (station : FillStation) (reportData : List UInt8) (reports : List PlcReport) :
    Prop where
  notNew : ∀ last, reports.getLast? = some last → ∀ nowMillis,
    ¬ (validStart station reportData = true ∧
      IsNew last (reportOfRead station reportData nowMillis))
  untouched : Untouched (hexEncode reportData) reports

section Settled

variable {station : FillStation} {reportData : List UInt8} {reports : List PlcReport}

theorem isNew_reportOfRead (last : PlcReport) (nowMillis nowMillis' : ℕ) :
    IsNew last (reportOfRead station reportData nowMillis) ↔
      IsNew last (reportOfRead station reportData nowMillis') := by
  have hhex : (reportOfRead station reportData nowMillis).hexContent =
      (reportOfRead station reportData nowMillis').hexContent := rfl
  have htask : (reportOfRead station reportData nowMillis).taskId =
      (reportOfRead station reportData nowMillis').taskId := rfl
  have hstart : (reportOfRead station reportData nowMillis).startTime =
      (reportOfRead station reportData nowMillis').startTime := rfl
  have hend : (reportOfRead station reportData nowMillis).endTime =
      (reportOfRead station reportData nowMillis').endTime := rfl
  unfold IsNew
  rw [hhex, htask, hstart, hend]

theorem not_isNew_of_hexContent {last : PlcReport} (h : last.hexContent = hexEncode reportData)
    (nowMillis : ℕ) : ¬ IsNew last (reportOfRead station reportData nowMillis) := by
  intro hnew
  exact hnew.1 h.symm

theorem Settled.readInto (h : Settled station reportData reports) (nowMillis : ℕ) :
    readInto station reportData nowMillis reports = reports := by
  have hread : handleNewReportRead station reports.getLast? reportData nowMillis = none := by
    cases hlast : reports.getLast? with
    | none => rw [handleNewReportRead_eq, Option.bind_none, ite_self]
    | some last => exact handleNewReportRead_eq_none.2 (h.notNew last hlast nowMillis)
  rw [FillingPilot.readInto, hread]
  exact refreshLast_eq_self_iff.2 h.untouched

theorem settled_of_hexContent
    (h : ∀ last, reports.getLast? = some last → last.hexContent = hexEncode reportData) :
    Settled station reportData reports where
  notNew last hlast nowMillis hnew := not_isNew_of_hexContent (h last hlast) nowMillis hnew.2
  untouched last hlast := Or.inr (h last hlast)

/-- **One read settles** the list of its station. -/
theorem settled_readInto (station : FillStation) (reportData : List UInt8) (nowMillis : ℕ)
    (reports : List PlcReport) :
    Settled station reportData (readInto station reportData nowMillis reports) := by
  unfold readInto
  cases hread : handleNewReportRead station reports.getLast? reportData nowMillis with
  | some report =>
      -- the last report is the new one, which has the content of the bytes
      obtain ⟨-, rfl, -⟩ := handleNewReportRead_eq_some.1 hread
      refine settled_of_hexContent fun last hlast => ?_
      rw [getLast?_appendReport, Option.some.injEq] at hlast
      rw [← hlast]
      rfl
  | none =>
      cases hlast : reports.getLast? with
      | none =>
          rw [List.getLast?_eq_none_iff.1 hlast]
          exact settled_of_hexContent nofun
      | some last =>
          rw [hlast] at hread
          have hafter : (refreshLast (hexEncode reportData) reports).getLast? =
              some (last.refresh (hexEncode reportData)) := by
            rw [getLast?_refreshLast, hlast, Option.map_some]
          cases hsent : last.sent with
          | true =>
              -- nothing is rewritten, and the last report is the one that was not superseded
              have hsame : (refreshLast (hexEncode reportData) reports) = reports := by
                refine refreshLast_eq_self_iff.2 fun last' hlast' => ?_
                rw [hlast, Option.some.injEq] at hlast'
                exact Or.inl (hlast' ▸ hsent)
              rw [hsame]
              refine ⟨fun last' hlast' now hnew => ?_, refreshLast_eq_self_iff.1 hsame⟩
              rw [hlast, Option.some.injEq] at hlast'
              subst hlast'
              exact handleNewReportRead_eq_none.1 hread
                ⟨hnew.1, (isNew_reportOfRead last now nowMillis).1 hnew.2⟩
          | false =>
              -- the last report took the content of the bytes
              refine settled_of_hexContent fun last' hlast' => ?_
              rw [hafter, Option.some.injEq, PlcReport.refresh_of_unsent hsent] at hlast'
              rw [← hlast']

/-- An acknowledgement changes nothing that a read is compared with. -/
theorem isNew_acknowledge (reportId : ℤ) (last r : PlcReport) :
    IsNew (last.acknowledge reportId) r ↔ IsNew last r := by
  unfold PlcReport.acknowledge
  split_ifs
  · exact Iff.rfl
  · exact Iff.rfl

theorem Settled.acknowledge (h : Settled station reportData reports) (reportId : ℤ) :
    Settled station reportData (reports.map (PlcReport.acknowledge reportId)) := by
  have hlast : ∀ last', (reports.map (PlcReport.acknowledge reportId)).getLast? = some last' →
      ∃ last, reports.getLast? = some last ∧ last.acknowledge reportId = last' := by
    intro last' h'
    rw [List.getLast?_map, Option.map_eq_some_iff] at h'
    exact h'
  refine ⟨fun last' h' nowMillis hnew => ?_, fun last' h' => ?_⟩
  · obtain ⟨last, hmem, rfl⟩ := hlast last' h'
    exact h.notNew last hmem nowMillis ⟨hnew.1, (isNew_acknowledge reportId last _).1 hnew.2⟩
  · obtain ⟨last, hmem, rfl⟩ := hlast last' h'
    unfold PlcReport.acknowledge
    split_ifs
    · exact Or.inl rfl
    · exact h.untouched last hmem

end Settled

/-! ### Polls -/

/-- A read of the station that finds the same bytes, or an acknowledgement. -/
def PollsOf (station : FillStation) (reportData : List UInt8) (e : CacheEvent) : Prop :=
  (∃ nowMillis, e = .read station (some reportData) nowMillis) ∨ ∃ reportId, e = .delete reportId

/-- The ids that are acknowledged. -/
def deletedIds (events : List CacheEvent) : List ℤ :=
  events.filterMap fun
    | .delete reportId => some reportId
    | _ => none

/-- A report after acknowledgements. -/
def PlcReport.markSent (reportIds : List ℤ) (r : PlcReport) : PlcReport :=
  { r with sent := r.sent || decide (r.reportId ∈ reportIds) }

@[simp] theorem PlcReport.markSent_nil (r : PlcReport) : r.markSent [] = r := by
  simp [markSent]

theorem PlcReport.markSent_cons (reportId : ℤ) (reportIds : List ℤ) (r : PlcReport) :
    r.markSent (reportId :: reportIds) = (r.acknowledge reportId).markSent reportIds := by
  unfold markSent acknowledge
  by_cases h : r.reportId = reportId
  · simp [h]
  · simp [h]

/-- The cache after acknowledgements, as far as its lookups show. -/
def MarkedSent (reportIds : List ℤ) (before after : Caches) : Prop :=
  ∀ station, after.lookup station =
    (before.lookup station).map (List.map (PlcReport.markSent reportIds))

/-- The station is not read, or its list is there and settled. -/
def Polled (station : FillStation) (reportData : List UInt8) (caches : Caches) : Prop :=
  0 < station.reportDb →
    ∃ reports, caches.lookup station = some reports ∧ Settled station reportData reports

section Polls

variable {station : FillStation} {reportData : List UInt8} {caches : Caches}

theorem polled_readReport (station : FillStation) (reportData : List UInt8) (nowMillis : ℕ)
    (caches : Caches) :
    Polled station reportData (readReport station (some reportData) nowMillis caches) := by
  intro hdb
  refine ⟨_, ?_, settled_readInto station reportData nowMillis (reportsOf caches station)⟩
  simp [readReport, Int.not_le.2 hdb]

/-- A further read of the bytes changes nothing. -/
theorem Polled.lookup_readReport (h : Polled station reportData caches) (nowMillis : ℕ)
    (other : FillStation) :
    (readReport station (some reportData) nowMillis caches).lookup other = caches.lookup other := by
  by_cases hdb : 0 < station.reportDb
  · obtain ⟨reports, hlookup, hsettled⟩ := h hdb
    have hread : readReport station (some reportData) nowMillis caches =
        caches.insert station reports := by
      simp only [readReport, if_neg (Int.not_le.2 hdb), reportsOf, hlookup, Option.getD_some,
        hsettled.readInto]
    rw [hread]
    by_cases hother : other = station
    · rw [hother, AList.lookup_insert, hlookup]
    · exact AList.lookup_insert_ne hother
  · rw [readReport_of_not_pos hdb]

/-- Whether a station is polled shows in the lookups. -/
theorem Polled.congr (h : Polled station reportData caches) {caches' : Caches}
    (hlookup : caches'.lookup station = caches.lookup station) :
    Polled station reportData caches' := by
  intro hdb
  rw [hlookup]
  exact h hdb

theorem Polled.deleteReport (h : Polled station reportData caches) (reportId : ℤ) :
    Polled station reportData (deleteReport reportId caches) := by
  intro hdb
  obtain ⟨reports, hlookup, hsettled⟩ := h hdb
  refine ⟨_, ?_, hsettled.acknowledge reportId⟩
  rw [FillingPilot.deleteReport, AList.lookup_mapValues, hlookup, Option.map_some]

/-- Every run of polls marks the acknowledged reports and does nothing else. -/
theorem run_polls {events : List CacheEvent} (hpolls : ∀ e ∈ events, PollsOf station reportData e) :
    ∀ {st : CacheState}, Polled station reportData st.caches →
      ∃ st', Lts.run cacheStep st events = some st' ∧
        MarkedSent (deletedIds events) st.caches st'.caches := by
  induction events with
  | nil =>
      intro st _
      refine ⟨st, rfl, fun other => ?_⟩
      have hmark : PlcReport.markSent (deletedIds []) = id := funext PlcReport.markSent_nil
      rw [hmark, List.map_id_fun, Option.map_id_fun]
      rfl
  | cons e events ih =>
      intro st hst
      have hrest : ∀ e ∈ events, PollsOf station reportData e := fun e he =>
        hpolls e (List.mem_cons_of_mem _ he)
      rcases hpolls e List.mem_cons_self with ⟨nowMillis, rfl⟩ | ⟨reportId, rfl⟩
      · have hsame := hst.lookup_readReport nowMillis
        obtain ⟨st', hrun, hmarked⟩ := @ih hrest
          { st with
            caches := readReport station (some reportData) nowMillis st.caches
            clock := nowMillis } (hst.congr (hsame station))
        refine ⟨st', Lts.run_cons.2 ⟨_, rfl, hrun⟩, fun other => ?_⟩
        rw [hmarked other, hsame other]
        rfl
      · obtain ⟨st', hrun, hmarked⟩ := @ih hrest
          { st with caches := deleteReport reportId st.caches } (hst.deleteReport reportId)
        refine ⟨st', Lts.run_cons.2 ⟨_, rfl, hrun⟩, fun other => ?_⟩
        have hids : deletedIds (.delete reportId :: events) = reportId :: deletedIds events := rfl
        rw [hmarked other, hids, deleteReport, AList.lookup_mapValues, Option.map_map,
          List.map_comp_map]
        congr 2
        funext r
        exact (PlcReport.markSent_cons reportId _ r).symm

end Polls

/-- **Polling is idempotent**: after one read of a station, in any cache, all further reads that
find the same bytes, at any times and with acknowledgements in between, leave the reports of every
station as they are, in their order, except that the acknowledged ones are marked as sent. -/
theorem polling_idempotent (station : FillStation) (reportData : List UInt8) (nowMillis : ℕ)
    (st : CacheState) {events : List CacheEvent}
    (hpolls : ∀ e ∈ events, PollsOf station reportData e) :
    ∃ st₁ st₂, cacheStep st (.read station (some reportData) nowMillis) = some st₁ ∧
      Lts.run cacheStep st₁ events = some st₂ ∧
        MarkedSent (deletedIds events) st₁.caches st₂.caches := by
  obtain ⟨st₂, hrun, hmarked⟩ := @run_polls station reportData events hpolls
    { st with
      caches := readReport station (some reportData) nowMillis st.caches
      clock := nowMillis } (polled_readReport station reportData nowMillis st.caches)
  exact ⟨_, st₂, rfl, hrun, hmarked⟩

/-- Two polls with an acknowledgement between them; the clock goes back. -/
theorem polling_idempotent_acknowledged :
    ∃ st₁ st₂, cacheStep oneReportState (.read smallStation (some (smallBlock 2 2 0)) 20) =
        some st₁ ∧
      Lts.run cacheStep st₁ [.read smallStation (some (smallBlock 2 2 0)) 30, .delete 20,
        .read smallStation (some (smallBlock 2 2 0)) 25] = some st₂ ∧
        MarkedSent [20] st₁.caches st₂.caches := by
  refine polling_idempotent smallStation (smallBlock 2 2 0) 20 oneReportState fun e he => ?_
  simp only [List.mem_cons, List.not_mem_nil, or_false] at he
  rcases he with rfl | rfl | rfl
  · exact Or.inl ⟨30, rfl⟩
  · exact Or.inr ⟨20, rfl⟩
  · exact Or.inl ⟨25, rfl⟩

end FillingPilot
