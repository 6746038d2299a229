/-
The shape of the report lists.

The list of a station is bounded by its report count, where a count of 0 counts as 1, because an
append makes room before it adds.  Its ids are clock readings and stand in the order of the reads,
and every report carries the address of the station it is filed under.

Main definitions:

* `FillingPilot.PlcReport.label` — what no operation changes in a report;
* `FillingPilot.BelongsTo` — a report of a station;
* `FillingPilot.Shape`, `FillingPilot.Shaped` — the invariant, of one list and of the cache.

Main results:

* `FillingPilot.Shape.readInto` — what a read keeps of the list of its station;
* `FillingPilot.cacheStep_shaped` — what one step keeps;
* `FillingPilot.run_shaped` — **the invariant in every run**, and the frame of a read.
-/

import FillingPilot.ReportAcks

set_option relaxedAutoImplicit false
set_option autoImplicit false

namespace FillingPilot

open Json Rust

/-! ### Labels -/

/-- What no operation changes in a report: its id and the address it was read from. -/
def PlcReport.label (r : PlcReport) : ℤ × String × String × UInt16 × ℤ :=
  (r.reportId, r.fillStation, r.ip, r.port, r.dbIndex)

theorem PlcReport.label_acknowledge (reportId : ℤ) (r : PlcReport) :
    (r.acknowledge reportId).label = r.label := by
  unfold acknowledge
  split <;> rfl

theorem PlcReport.label_refresh (hex : String) (r : PlcReport) :
    (r.refresh hex).label = r.label := by
  unfold refresh
  split <;> rfl

theorem map_label_refreshLast (hex : String) (reports : List PlcReport) :
    (refreshLast hex reports).map PlcReport.label = reports.map PlcReport.label := by
  induction reports using List.reverseRecOn with
  | nil => rfl
  | append_singleton reports last _ =>
      simp only [refreshLast_concat, List.map_append, List.map_cons, List.map_nil,
        PlcReport.label_refresh]

/-! ### The shape of a list -/

/-- The report carries the id and the address of the station. -/
structure BelongsTo (station : FillStation) (r : PlcReport) : Prop where
  fillStation : r.fillStation = station.id
  ip : r.ip = station.ip
  port : r.port = station.port
  dbIndex : r.dbIndex = station.reportDb

/-- The invariant of the list of a station when the clock shows `now`. -/
structure Shape (station : FillStation) (now : ℤ) (reports : List PlcReport) : Prop where
  bounded : reports.length ≤ max 1 station.reportCount
  ordered : (reports.map PlcReport.reportId).Pairwise (· ≤ ·)
  past : ∀ r ∈ reports, r.reportId ≤ now
  own : ∀ r ∈ reports, BelongsTo station r

section

variable {station : FillStation} {now now' : ℤ} {reports reports' : List PlcReport}

theorem shape_nil (station : FillStation) (now : ℤ) : Shape station now [] where
  bounded := Nat.zero_le _
  ordered := List.Pairwise.nil
  past := by simp
  own := by simp

theorem Shape.mono (h : Shape station now reports) (hnow : now ≤ now') :
    Shape station now' reports :=
  { h with past := fun r hr => (h.past r hr).trans hnow }

theorem Shape.sublist (h : Shape station now reports) (hsub : reports'.Sublist reports) :
    Shape station now reports' where
  bounded := hsub.length_le.trans h.bounded
  ordered := h.ordered.sublist (hsub.map _)
  past := fun r hr => h.past r (hsub.subset hr)
  own := fun r hr => h.own r (hsub.subset hr)

/-- The invariant is one of the labels. -/
theorem Shape.congr (h : Shape station now reports)
    (hlabel : reports'.map PlcReport.label = reports.map PlcReport.label) :
    Shape station now reports' := by
  have hids : reports'.map PlcReport.reportId = reports.map PlcReport.reportId := by
    have hfst := congrArg (List.map Prod.fst) hlabel
    rwa [List.map_map, List.map_map] at hfst
  have hmem : ∀ r ∈ reports', ∃ r' ∈ reports, r'.label = r.label := by
    intro r hr
    have hr : r.label ∈ reports.map PlcReport.label := hlabel ▸ List.mem_map_of_mem hr
    exact List.mem_map.1 hr
  refine ⟨?_, hids ▸ h.ordered, ?_, ?_⟩
  · have hlen := congrArg List.length hlabel
    rw [List.length_map, List.length_map] at hlen
    exact hlen ▸ h.bounded
  · intro r hr
    obtain ⟨r', hr', heq⟩ := hmem r hr
    have hid : r'.reportId = r.reportId := congrArg Prod.fst heq
    exact hid ▸ h.past r' hr'
  · intro r hr
    obtain ⟨r', hr', heq⟩ := hmem r hr
    obtain ⟨hstation, hip, hport, hdb⟩ := h.own r' hr'
    simp only [PlcReport.label, Prod.mk.injEq] at heq
    obtain ⟨-, hstation', hip', hport', hdb'⟩ := heq
    exact ⟨hstation' ▸ hstation, hip' ▸ hip, hport' ▸ hport, hdb' ▸ hdb⟩

/-- Room is made before a report is added, even where the station counts none. -/
theorem length_keptReports_lt (h : reports.length ≤ max 1 station.reportCount) :
    (keptReports station reports).length < max 1 station.reportCount := by
  unfold keptReports
  split_ifs with hfull
  · have hfilter := List.length_filter_le (fun r => !r.sent) (reports.drop 1)
    rw [List.length_drop] at hfilter
    omega
  · have hfilter := List.length_filter_le (fun r => !r.sent) reports
    omega

theorem Shape.appendReport (h : Shape station now reports) {r : PlcReport}
    (hnow : now ≤ r.reportId) (hown : BelongsTo station r) :
    Shape station r.reportId (appendReport station reports r) := by
  have hkept : Shape station now (keptReports station reports) :=
    h.sublist (keptReports_sublist station reports)
  have hlen := length_keptReports_lt h.bounded
  rw [appendReport_eq]
  refine ⟨?_, ?_, ?_, ?_⟩
  · rw [List.length_append, List.length_singleton]
    omega
  · rw [List.map_append, List.pairwise_append]
    refine ⟨hkept.ordered, List.pairwise_singleton _ _, ?_⟩
    intro id hid id' hid'
    obtain ⟨old, hold, rfl⟩ := List.mem_map.1 hid
    obtain rfl : id' = r.reportId := by simpa using hid'
    exact (hkept.past old hold).trans hnow
  · intro r' hr'
    rcases List.mem_append.1 hr' with hold | hnew
    · exact (hkept.past r' hold).trans hnow
    · rw [List.mem_singleton.1 hnew]
  · intro r' hr'
    rcases List.mem_append.1 hr' with hold | hnew
    · exact hkept.own r' hold
    · exact List.mem_singleton.1 hnew ▸ hown

theorem belongsTo_reportOfRead (station : FillStation) (reportData : List UInt8)
    (nowMillis : ℕ) : BelongsTo station (reportOfRead station reportData nowMillis) := by
  constructor <;> dsimp only [reportOfRead]

/-- **What a read keeps** of the list of its station, when the clock has not gone back. -/
theorem Shape.readInto (h : Shape station now reports) (reportData : List UInt8)
    {nowMillis : ℕ} (hnow : now ≤ Int.bmod nowMillis (2 ^ 64)) :
    Shape station (Int.bmod nowMillis (2 ^ 64))
      (readInto station reportData nowMillis reports) := by
  unfold FillingPilot.readInto
  cases hread : handleNewReportRead station reports.getLast? reportData nowMillis with
  | none =>
      exact (h.mono hnow).congr (map_label_refreshLast _ reports)
  | some report =>
      obtain ⟨-, rfl, -⟩ := handleNewReportRead_eq_some.1 hread
      have hid := reportOfRead_reportId station reportData nowMillis
      rw [← hid] at hnow ⊢
      exact h.appendReport hnow (belongsTo_reportOfRead station reportData nowMillis)

end

/-! ### The shape of the cache -/

/-- The invariant, for every station.  Ids are `i64`, and so is the clock they are compared with. -/
def Shaped (st : CacheState) : Prop :=
  ∀ station, Shape station (Int.bmod st.clock (2 ^ 64)) (reportsOf st.caches station)

/-- The clock, as an `i64`, does not go back. -/
def MillisForward (st : CacheState) : CacheEvent → Prop
  | .read _ _ nowMillis => Int.bmod st.clock (2 ^ 64) ≤ Int.bmod nowMillis (2 ^ 64)
  | _ => True

/-- **What one step keeps.** -/
theorem cacheStep_shaped {st st' : CacheState} {e : CacheEvent} (hst : Shaped st)
    (hclock : MillisForward st e) (h : cacheStep st e = some st') : Shaped st' := by
  intro other
  cases e with
  | read station answer nowMillis =>
      cases h
      have hother := (hst other).mono hclock
      dsimp only
      by_cases hne : other = station
      · subst hne
        cases answer with
        | none => rwa [readReport_none]
        | some reportData =>
            by_cases hdb : 0 < other.reportDb
            · rw [reportsOf_readReport_self hdb]
              exact (hst other).readInto reportData hclock
            · rwa [readReport_of_not_pos hdb]
      · rwa [reportsOf_readReport_ne hne]
  | delete reportId =>
      cases h
      dsimp only
      rw [reportsOf_deleteReport]
      refine (hst other).congr ?_
      rw [List.map_map]
      exact List.map_congr_left fun r _ => PlcReport.label_acknowledge reportId r
  | configure stations =>
      cases h
      dsimp only
      rw [reportsOf_updateFillStations]
      split_ifs with hmem
      · exact hst other
      · exact shape_nil _ _
  | collect =>
      cases h
      exact hst other

/-- **The invariant in every run**: reads of any station with any answer, acknowledgements and
configurations keep the shape of every list, and a read of one station leaves the lists of the
others as they are. -/
theorem run_shaped {st st' : CacheState} {events : List CacheEvent} (hst : Shaped st)
    (hclock : Lts.Along cacheStep MillisForward st events)
    (hrun : Lts.run cacheStep st events = some st') :
    Shaped st' ∧ ∀ station other answer nowMillis, other ≠ station →
      reportsOf (readReport station answer nowMillis st'.caches) other =
        reportsOf st'.caches other := by
  refine ⟨?_, fun station other answer nowMillis hne => reportsOf_readReport_ne hne _ _ _⟩
  exact Lts.run_invariant (fun _ _ _ hok hs hstep => cacheStep_shaped hs hok hstep) hst hclock hrun

theorem shaped_oneReportState : Shaped oneReportState := by
  intro station
  by_cases h : station = smallStation
  · subst h
    refine ⟨by decide, by decide, by decide, ?_⟩
    intro r hr
    rw [List.mem_singleton.1 hr]
    exact belongsTo_reportOfRead smallStation (smallBlock 1 1 0) 10
  · have hnone : oneReportState.caches.lookup station = none := by
      refine AList.lookup_eq_none.2 ?_
      rw [AList.mem_keys, oneReportState, oneReportCache, AList.keys_singleton, List.mem_singleton]
      exact h
    rw [reportsOf, hnone]
    exact shape_nil _ _

/-- A new task, its acknowledgement and a configuration without the station. -/
def taskAndAck : List CacheEvent :=
  [.read smallStation (some (smallBlock 2 2 0)) 20, .delete 20, .configure []]

theorem run_shaped_taskAndAck :
    ∃ st, Lts.run cacheStep oneReportState taskAndAck = some st ∧ Shaped st := by
  have hclock : Lts.Along cacheStep MillisForward oneReportState taskAndAck := by
    refine Lts.Along.of_step (show Int.bmod 10 (2 ^ 64) ≤ Int.bmod 20 (2 ^ 64) by decide) rfl ?_
    exact Lts.Along.of_step trivial rfl (Lts.Along.of_step trivial rfl trivial)
  exact ⟨_, rfl, (run_shaped shaped_oneReportState hclock rfl).1⟩

end FillingPilot
