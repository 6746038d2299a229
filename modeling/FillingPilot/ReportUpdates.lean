/-
Content updates of a running task.

While a task runs, every pass reads its block again, and the last report of the station takes the
new content.  The server has seen the update when a message has carried it.  An acknowledgement
names the report only by its id, so it also closes content the server has not seen, and a closed
report takes no further content.

Main definitions:

* `FillingPilot.Carried` — a message has carried an update;
* `FillingPilot.KeepsUpdates` — the step closes no report that still has an update to carry;
* `FillingPilot.UpdatesSafe` — the invariant: each update of the pass is carried or still waits in
  the last report of its station.

Main results:

* `FillingPilot.loopStep_updatesSafe` — what one step keeps;
* `FillingPilot.updates_carried` — **no update is lost** in a run whose steps all keep updates;
* `FillingPilot.update_after_ack_lost` — a run that loses an update.
-/

import FillingPilot.ReportLoop

set_option relaxedAutoImplicit false
set_option autoImplicit false

namespace FillingPilot

open Json Rust

/-! ### What a message carries -/

namespace TaskUpdate

/-- The task of the update. -/
def taskId (u : TaskUpdate) : ℤ := readTaskId u.station u.reportData

/-- The content of the update. -/
def hexContent (u : TaskUpdate) : String := hexEncode u.reportData

/-- A report that has taken the content of the update. -/
def TakenBy (u : TaskUpdate) (r : PlcReport) : Prop :=
  r.fillStation = u.fillStation ∧ r.taskId = u.taskId ∧ r.hexContent = u.hexContent

end TaskUpdate

/-- Some `report` message has carried the content of the update, for its station and task. -/
def Carried (emitted : List (String × Value)) (u : TaskUpdate) : Prop :=
  ∃ m ∈ emitted, m.1 = "report" ∧
    (m.2.get "fillStation").bind Value.asStr = some u.fillStation ∧
      (m.2.get "taskId").bind Value.asI64 = some u.taskId ∧
        (m.2.get "hexContent").bind Value.asStr = some u.hexContent

instance (emitted : List (String × Value)) (u : TaskUpdate) : Decidable (Carried emitted u) := by
  unfold Carried
  infer_instance

/-- Messages that come later take nothing back. -/
theorem Carried.append {emitted : List (String × Value)} {u : TaskUpdate} (h : Carried emitted u)
    (messages : List (String × Value)) : Carried (emitted ++ messages) u := by
  obtain ⟨m, hm, hcarry⟩ := h
  exact ⟨m, List.mem_append_left _ hm, hcarry⟩

theorem readTaskId_range (station : FillStation) (reportData : List UInt8) :
    -2 ^ 63 ≤ readTaskId station reportData ∧ readTaskId station reportData < 2 ^ 63 := by
  unfold readTaskId
  split_ifs
  · have hrange := BigEndian.readSigned_range 8
      ((reportData.drop station.reportDbTaskOffset).take 8)
    omega
  · decide

/-- The message of a report carries the update the report has taken. -/
theorem carried_reportMessage {u : TaskUpdate} {r : PlcReport} (h : u.TakenBy r) :
    Carried [reportMessage r] u := by
  obtain ⟨hstation, htask, hhex⟩ := h
  have hrange := readTaskId_range u.station u.reportData
  refine ⟨reportMessage r, List.mem_singleton_self _, rfl, ?_, ?_, ?_⟩
  · rw [reportMessage, PlcReport.get_fillStation, hstation]
    rfl
  · rw [reportMessage, PlcReport.get_taskId, htask, Option.bind_some]
    exact Value.asI64_ofInt hrange.1 hrange.2
  · rw [reportMessage, PlcReport.get_hexContent, hhex]
    rfl

/-! ### The invariant -/

/-- The last report of the station has taken the update and is unsent. -/
def Waits (caches : Caches) (u : TaskUpdate) : Prop :=
  ∃ last, (reportsOf caches u.station).getLast? = some last ∧ last.sent = false ∧ u.TakenBy last

/-- What waits is carried by the next collection. -/
theorem Waits.carried {caches : Caches} {u : TaskUpdate} (h : Waits caches u)
    (emitted : List (String × Value)) : Carried (emitted ++ unsentMessages caches) u := by
  obtain ⟨last, hlast, hsent, htaken⟩ := h
  obtain ⟨m, hm, hcarry⟩ := carried_reportMessage htaken
  rw [List.mem_singleton] at hm
  subst hm
  have hmem : reportMessage last ∈ unsentMessages caches :=
    mem_unsentMessages.2 ⟨u.station, last, List.mem_of_getLast? hlast, hsent, rfl⟩
  exact ⟨reportMessage last, List.mem_append_right _ hmem, hcarry⟩

/-- **The invariant of a pass**: every update of the pass is carried or, while the pass runs, waits
to be; and the stations still to be read are distinct and have no update yet. -/
structure UpdatesSafe (st : LoopState) : Prop where
  safe : ∀ u ∈ st.updates, Carried st.emitted u ∨ st.todo ≠ none ∧ Waits st.caches u
  nodup : ∀ stations, st.todo = some stations → stations.Nodup
  fresh : ∀ stations, st.todo = some stations → ∀ u ∈ st.updates, u.station ∉ stations

/-- The step closes no report that still has an update to carry: a read of the task of the last
report finds that report unsent, or its content carried already, and an acknowledgement does not
name the last report of a station whose update is still to be carried. -/
def KeepsUpdates (st : LoopState) : LoopEvent → Prop
  | .read read _ =>
      ∀ station rest, st.todo = some (station :: rest) →
        ∀ u, taskUpdate st.caches station read = some u →
          Carried st.emitted u ∨
            ∃ last, (reportsOf st.caches station).getLast? = some last ∧ last.sent = false
  | .ack reportId =>
      ∀ u ∈ st.updates, Carried st.emitted u ∨
        ∀ last, (reportsOf st.caches u.station).getLast? = some last → last.reportId ≠ reportId
  | _ => True

/-- What a read of the task of the last report is. -/
theorem taskUpdate_eq_some {caches : Caches} {station : FillStation} {read : Option (List UInt8)}
    {u : TaskUpdate} :
    taskUpdate caches station read = some u ↔
      ∃ reportData last, read = some reportData ∧
        (reportsOf caches station).getLast? = some last ∧
        (0 < station.reportDb ∧ validStart station reportData = true ∧
          0 < readTaskId station reportData ∧ last.taskId = readTaskId station reportData) ∧
        u = ⟨station, last.fillStation, reportData⟩ := by
  simp only [taskUpdate, Option.bind_eq_bind, Option.bind_eq_some_iff,
    Option.ite_none_right_eq_some, Option.some.injEq]
  constructor
  · rintro ⟨reportData, hread, last, hlast, hcond, rfl⟩
    exact ⟨reportData, last, hread, hlast, hcond, rfl⟩
  · rintro ⟨reportData, last, hread, hlast, hcond, rfl⟩
    exact ⟨reportData, hread, last, hlast, hcond, rfl⟩

/-- **One read of a running task**: an unsent last report takes the update. -/
theorem waits_readReport {caches : Caches} {station : FillStation} {read : Option (List UInt8)}
    {u : TaskUpdate} (hupdate : taskUpdate caches station read = some u)
    (hunsent : ∃ last, (reportsOf caches station).getLast? = some last ∧ last.sent = false)
    (nowMillis : ℕ) : Waits (readReport station read nowMillis caches) u := by
  obtain ⟨reportData, last, rfl, hlast, ⟨hdb, -, hpos, htask⟩, rfl⟩ := taskUpdate_eq_some.1 hupdate
  obtain ⟨last', hlast', hsent⟩ := hunsent
  obtain rfl : last' = last := Option.some.inj (hlast'.symm.trans hlast)
  -- the same task is never a new report
  have hsame : handleNewReportRead station (reportsOf caches station).getLast? reportData
      nowMillis = none := by
    rw [handleNewReportRead_eq, hlast, Option.bind_some]
    have hnot : ¬ IsNew last' (reportOfRead station reportData nowMillis) := by
      intro hnew
      have hid : 0 < (reportOfRead station reportData nowMillis).taskId := hpos
      have hother := hnew.2
      rw [if_pos hid] at hother
      exact hother htask
    rw [if_neg hnot, ite_self]
  refine ⟨last'.refresh (hexEncode reportData), ?_, ?_, ?_⟩
  · rw [reportsOf_readReport_self hdb, readInto, hsame, getLast?_refreshLast, hlast,
      Option.map_some]
  · rw [PlcReport.refresh_of_unsent hsent]
    exact hsent
  · rw [PlcReport.refresh_of_unsent hsent]
    exact ⟨rfl, htask, rfl⟩

theorem Waits.deleteReport {caches : Caches} {u : TaskUpdate} {reportId : ℤ}
    (h : Waits caches u)
    (hother : ∀ last, (reportsOf caches u.station).getLast? = some last →
      last.reportId ≠ reportId) :
    Waits (deleteReport reportId caches) u := by
  obtain ⟨last, hlast, hsent, htaken⟩ := h
  have hsame : last.acknowledge reportId = last := if_neg (hother last hlast)
  refine ⟨last, ?_, hsent, htaken⟩
  rw [reportsOf_deleteReport, List.getLast?_map, hlast, Option.map_some, hsame]

/-- **What one step keeps**, when it keeps updates and is no configuration. -/
theorem loopStep_updatesSafe {st st' : LoopState} {e : LoopEvent} (hkeep : KeepsUpdates st e)
    (hconf : ∀ stations, e ≠ .configure stations) (hst : UpdatesSafe st)
    (h : loopStep st e = some st') : UpdatesSafe st' := by
  obtain ⟨stations, rfl, htodo, hperm, rfl⟩ | ⟨read, nowMillis, station, rest, rfl, htodo, rfl⟩ |
    ⟨rfl, htodo, rfl⟩ | ⟨reportId, rfl, rfl⟩ | ⟨stations, rfl, rfl⟩ := loopStep_cases h
  · -- a pass starts without updates
    refine ⟨fun u hu => absurd hu List.not_mem_nil, ?_, fun _ _ u hu => absurd hu List.not_mem_nil⟩
    rintro _ ⟨⟩
    exact hperm.nodup_iff.2 st.caches.keys_nodup
  · have hnodup : (station :: rest).Nodup := hst.nodup _ htodo
    rw [List.nodup_cons] at hnodup
    refine ⟨?_, ?_, ?_⟩
    · intro u hu
      rw [List.mem_append, Option.mem_toList] at hu
      rcases hu with hnew | hold
      · -- the update of this read
        rcases hkeep station rest htodo u hnew with hcarried | hunsent
        · exact Or.inl hcarried
        · exact Or.inr ⟨Option.some_ne_none rest, waits_readReport hnew hunsent nowMillis⟩
      · -- an update of another station, whose list the read leaves alone
        have hne : u.station ≠ station := by
          intro heq
          exact hst.fresh _ htodo u hold (heq ▸ List.mem_cons_self)
        rcases hst.safe u hold with hcarried | ⟨-, hwaits⟩
        · exact Or.inl hcarried
        · refine Or.inr ⟨Option.some_ne_none rest, ?_⟩
          simpa only [Waits, reportsOf_readReport_ne hne] using hwaits
    · rintro _ ⟨⟩
      exact hnodup.2
    · rintro _ ⟨⟩ u hu
      rw [List.mem_append, Option.mem_toList] at hu
      rcases hu with hnew | hold
      · obtain ⟨_, _, _, _, _, rfl⟩ := taskUpdate_eq_some.1 hnew
        exact hnodup.1
      · intro hmem
        exact hst.fresh _ htodo u hold (List.mem_cons_of_mem _ hmem)
  · -- the collection carries what waits
    refine ⟨fun u hu => ?_, by rintro _ ⟨⟩, by rintro _ ⟨⟩⟩
    rcases hst.safe u hu with hcarried | ⟨-, hwaits⟩
    · exact Or.inl (hcarried.append _)
    · exact Or.inl (hwaits.carried st.emitted)
  · -- an acknowledgement of another report leaves what waits
    refine ⟨fun u hu => ?_, hst.nodup, hst.fresh⟩
    rcases hst.safe u hu with hcarried | ⟨hrunning, hwaits⟩
    · exact Or.inl hcarried
    · rcases hkeep u hu with hcarried | hother
      · exact Or.inl hcarried
      · exact Or.inr ⟨hrunning, hwaits.deleteReport hother⟩
  · exact absurd rfl (hconf stations)

/-! ### Whole runs -/

/-- **No update is lost** in a run of passes and acknowledgements whose steps all keep updates:
whenever a pass has ended, its updates have been carried. -/
theorem updates_carried {st st' : LoopState} (htodo : st.todo = none) (hupdates : st.updates = [])
    {events : List LoopEvent} (hconf : ∀ stations, LoopEvent.configure stations ∉ events)
    (hkeep : Lts.Along loopStep KeepsUpdates st events)
    (hrun : Lts.run loopStep st events = some st') (hended : st'.todo = none) :
    ∀ u ∈ st'.updates, Carried st'.emitted u := by
  have hstart : UpdatesSafe st := by
    refine ⟨fun u hu => ?_, fun _ hsome => ?_, fun _ hsome => ?_⟩
    · rw [hupdates] at hu
      cases hu
    · rw [htodo] at hsome
      cases hsome
    · rw [htodo] at hsome
      cases hsome
  have halong : Lts.Along loopStep
      (fun st e => KeepsUpdates st e ∧ ∀ stations, e ≠ .configure stations) st events := by
    refine hkeep.and_mem fun e he stations heq => ?_
    exact hconf stations (heq ▸ he)
  have hsafe : UpdatesSafe st' :=
    Lts.run_invariant (fun _ _ _ hok hst hstep => loopStep_updatesSafe hok.1 hok.2 hst hstep)
      hstart halong hrun
  -- an update waits only while a pass is running
  intro u hu
  rcases hsafe.safe u hu with hcarried | ⟨hrunning, -⟩
  · exact hcarried
  · exact absurd hended hrunning

/-- Task 1 goes on in a pass, which sends the new content; the report is acknowledged. -/
def acknowledgedPass : List LoopEvent :=
  [.startPass [smallStation], .read (some (smallBlock 1 1 5)) 11, .collect, .ack 10]

theorem updates_carried_acknowledgedPass :
    ∃ st, Lts.run loopStep (loopStart oneReportCache) acknowledgedPass = some st ∧
      st.updates ≠ [] ∧ ∀ u ∈ st.updates, Carried st.emitted u := by
  have hconf : ∀ stations, LoopEvent.configure stations ∉ acknowledgedPass := by
    simp [acknowledgedPass]
  have hkeep : Lts.Along loopStep KeepsUpdates (loopStart oneReportCache) acknowledgedPass := by
    refine .of_step trivial rfl (.of_step ?_ rfl (.of_step trivial rfl (.of_step ?_ rfl trivial)))
    · rintro _ _ ⟨⟩ u -
      exact Or.inr ⟨_, rfl, rfl⟩
    · intro u hu
      exact Or.inl (by decide +revert)
  exact ⟨_, rfl, by decide, updates_carried rfl rfl hconf hkeep rfl rfl⟩

/-! ### A lost update -/

/-- A message with this report id was sent. -/
def idSent (emitted : List (String × Value)) (reportId : ℤ) : Prop :=
  ∃ m ∈ emitted, (m.2.get "reportId").bind Value.asI64 = some reportId

instance (emitted : List (String × Value)) (reportId : ℤ) :
    Decidable (idSent emitted reportId) := by
  unfold idSent
  infer_instance

/-- An acknowledgement names a report id that was sent. -/
def AcksSent (st : LoopState) : LoopEvent → Prop
  | .ack reportId => idSent st.emitted reportId
  | _ => True

/-- Task 1 is sent and acknowledged, and then goes on in another pass. -/
def updateAfterAck : List LoopEvent :=
  [.startPass [smallStation], .read (some (smallBlock 1 1 0)) 11, .collect, .ack 10,
    .startPass [smallStation], .read (some (smallBlock 1 1 5)) 12, .collect]

/-- **An update is lost**: the second pass of `updateAfterAck` ends, and no message has carried what
it read, although only a report that was sent has been acknowledged. -/
theorem update_after_ack_lost :
    Lts.Along loopStep AcksSent (loopStart oneReportCache) updateAfterAck ∧
      ∃ st, Lts.run loopStep (loopStart oneReportCache) updateAfterAck = some st ∧
        st.todo = none ∧ ∃ u ∈ st.updates, ¬ Carried st.emitted u := by
  have hsent : Lts.Along loopStep AcksSent (loopStart oneReportCache) updateAfterAck := by
    refine .of_step trivial rfl (.of_step trivial rfl (.of_step trivial rfl (.of_step ?_ rfl
      (.of_step trivial rfl (.of_step trivial rfl (.of_step trivial rfl trivial))))))
    unfold AcksSent
    decide
  exact ⟨hsent, _, rfl, rfl, by decide⟩

end FillingPilot
