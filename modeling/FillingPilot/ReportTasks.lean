/-
**One report per task run.**

The reads of one station, with acknowledgements in between, append a report exactly when the task
changes: the task id of the last report is that of the last read, whatever was rewritten in place,
acknowledged, evicted or filtered in between.  What carries the proof is that a last report whose
task id is the one in its own content stays so, which also makes the comparison of the contents
agree with the comparison of the task ids.

Main definitions:

* `FillingPilot.StationEvent` — a read of the station, or an acknowledgement;
* `FillingPilot.appendedReports` — the reports a sequence of events appends;
* `FillingPilot.readsOf` — the report each read of the sequence describes.

Main results:

* `FillingPilot.read_step` — one read: what is appended, and what the last report is afterwards;
* `FillingPilot.appendedReports_eq_changes` — the appended reports are the changes of task;
* `FillingPilot.appendedReports_one_per_task` — **one report per task run**, with the task ids and
  the contents spelled out.
-/

import FillingPilot.Changes
import FillingPilot.ReportCache

set_option relaxedAutoImplicit false
set_option autoImplicit false

namespace FillingPilot

open Rust

/-! ### Events at one station -/

/-- What happens to the cache between two passes, as far as one station goes. -/
inductive StationEvent
  /-- The station's block is read with this content, at this clock reading. -/
  | read (reportData : List UInt8) (nowMillis : ℕ)
  /-- The server acknowledges a report id. -/
  | delete (reportId : ℤ)

namespace StationEvent

variable (station : FillStation)

/-- The cache after an event. -/
def apply : StationEvent → Caches → Caches
  | read reportData nowMillis => readReport station (some reportData) nowMillis
  | delete reportId => deleteReport reportId

/-- The report an event appends to the list of the station, if any. -/
def appended (caches : Caches) : StationEvent → Option PlcReport
  | read reportData nowMillis =>
      handleNewReportRead station (reportsOf caches station).getLast? reportData nowMillis
  | delete _ => none

/-- A read long enough for a task id, with a positive one and a valid start time. -/
def Valid : StationEvent → Prop
  | read reportData _ =>
      station.reportDbTaskOffset + 8 ≤ reportData.length ∧
        0 < readTaskId station reportData ∧ validStart station reportData = true
  | delete _ => True

/-- The report a read describes. -/
def report? : StationEvent → Option PlcReport
  | read reportData nowMillis => some (reportOfRead station reportData nowMillis)
  | delete _ => none

end StationEvent

/-- The reports a sequence of events appends, in order. -/
def appendedReports (station : FillStation) : List StationEvent → Caches → List PlcReport
  | [], _ => []
  | e :: es, caches =>
      (e.appended station caches).toList ++ appendedReports station es (e.apply station caches)

/-- The reports the reads of a sequence of events describe, in order. -/
def readsOf (station : FillStation) (events : List StationEvent) : List PlcReport :=
  events.filterMap (StationEvent.report? station)

theorem reportsOf_apply_read {station : FillStation} (hdb : 0 < station.reportDb)
    (reportData : List UInt8) (nowMillis : ℕ) (caches : Caches) :
    reportsOf ((StationEvent.read reportData nowMillis).apply station caches) station =
      match (StationEvent.read reportData nowMillis).appended station caches with
      | some report => appendReport station (reportsOf caches station) report
      | none => refreshLast (hexEncode reportData) (reportsOf caches station) := by
  rw [StationEvent.apply, reportsOf_readReport_self hdb]
  rfl

/-! ### The last report -/

/-- The task id of a report is the one in its own content. -/
def OwnTask (station : FillStation) (r : PlcReport) : Prop :=
  ∃ data, r.hexContent = hexEncode data ∧ r.taskId = readTaskId station data

/-- After a report that carries its own task, a read with a positive task id is new exactly when it
has another task id. -/
theorem isNew_iff_of_ownTask {station : FillStation} {last : PlcReport} {reportData : List UInt8}
    {nowMillis : ℕ} (hlast : OwnTask station last) (htask : 0 < readTaskId station reportData) :
    IsNew last (reportOfRead station reportData nowMillis) ↔
      last.taskId ≠ readTaskId station reportData := by
  obtain ⟨data, hcontent, hid⟩ := hlast
  have hpos : 0 < (reportOfRead station reportData nowMillis).taskId := htask
  have hnew : IsNew last (reportOfRead station reportData nowMillis) ↔
      hexEncode reportData ≠ last.hexContent ∧ last.taskId ≠ readTaskId station reportData := by
    rw [IsNew, if_pos hpos]
    exact Iff.rfl
  rw [hnew]
  constructor
  · rintro ⟨-, hne⟩
    exact hne
  · intro hne
    refine ⟨fun heq => hne ?_, hne⟩
    -- equal contents hold equal task ids
    have hhex : hexEncode reportData = hexEncode data := by rw [heq, hcontent]
    rw [hid, hexEncode_injective hhex]

/-- **One read**: it appends the report it describes exactly when the task changes, and leaves a
last report that carries the read's task. -/
theorem read_step {station : FillStation} (hdb : 0 < station.reportDb) {caches : Caches}
    {last : PlcReport} (hlast : (reportsOf caches station).getLast? = some last)
    (hown : OwnTask station last) {reportData : List UInt8} (nowMillis : ℕ)
    (htask : 0 < readTaskId station reportData) (hvalid : validStart station reportData = true) :
    (StationEvent.read reportData nowMillis).appended station caches =
        (if last.taskId = readTaskId station reportData then none
          else some (reportOfRead station reportData nowMillis)) ∧
      ∃ last', (reportsOf ((StationEvent.read reportData nowMillis).apply station caches)
          station).getLast? = some last' ∧ OwnTask station last' ∧
        last'.taskId = readTaskId station reportData := by
  have hdecision : (StationEvent.read reportData nowMillis).appended station caches =
      if last.taskId = readTaskId station reportData then none
        else some (reportOfRead station reportData nowMillis) := by
    rw [StationEvent.appended, handleNewReportRead_eq, if_pos hvalid, hlast, Option.bind_some]
    simp only [isNew_iff_of_ownTask hown htask, ne_eq, ite_not]
  refine ⟨hdecision, ?_⟩
  rw [reportsOf_apply_read hdb, hdecision]
  by_cases hsame : last.taskId = readTaskId station reportData
  · -- the same task: the last report is refreshed, unless it was sent
    simp only [if_pos hsame, getLast?_refreshLast, hlast, Option.map_some, Option.some.injEq]
    refine ⟨_, rfl, ?_, ?_⟩
    · cases hsent : last.sent with
      | true => rwa [PlcReport.refresh_of_sent hsent]
      | false =>
          rw [PlcReport.refresh_of_unsent hsent]
          exact ⟨reportData, rfl, hsame⟩
    · rw [PlcReport.refresh_taskId, hsame]
  · simp only [if_neg hsame, getLast?_appendReport, Option.some.injEq]
    exact ⟨_, rfl, ⟨reportData, rfl, rfl⟩, rfl⟩

/-- **One acknowledgement**: nothing is appended, and the last report keeps its task. -/
theorem delete_step {station : FillStation} {caches : Caches} {last : PlcReport}
    (hlast : (reportsOf caches station).getLast? = some last) (hown : OwnTask station last)
    (reportId : ℤ) :
    ∃ last', (reportsOf ((StationEvent.delete reportId).apply station caches)
        station).getLast? = some last' ∧ OwnTask station last' ∧ last'.taskId = last.taskId := by
  refine ⟨last.acknowledge reportId, ?_, ?_, ?_⟩
  · rw [StationEvent.apply, reportsOf_deleteReport, List.getLast?_map, hlast, Option.map_some]
  · unfold PlcReport.acknowledge
    split_ifs
    · exact hown
    · exact hown
  · unfold PlcReport.acknowledge
    split_ifs <;> rfl

/-! ### Runs of events -/

/-- The appended reports are the changes of task, from the task of the last report on. -/
theorem appendedReports_eq_changes {station : FillStation} (hdb : 0 < station.reportDb) :
    ∀ {events : List StationEvent} {caches : Caches} {last : PlcReport},
      (∀ e ∈ events, e.Valid station) →
      (reportsOf caches station).getLast? = some last → OwnTask station last →
      appendedReports station events caches =
        List.changes PlcReport.taskId last.taskId (readsOf station events) := by
  intro events
  induction events with
  | nil => intro caches last _ _ _; rfl
  | cons e events ih =>
      intro caches last hvalid hlast hown
      have hvalid' : ∀ e ∈ events, e.Valid station := fun e he =>
        hvalid e (List.mem_cons_of_mem _ he)
      cases e with
      | read reportData nowMillis =>
          obtain ⟨-, htask, hstart⟩ := hvalid _ (List.mem_cons_self ..)
          obtain ⟨happended, last', hlast', hown', hid'⟩ :=
            read_step hdb hlast hown nowMillis htask hstart
          have hreads : readsOf station (.read reportData nowMillis :: events) =
              reportOfRead station reportData nowMillis :: readsOf station events := rfl
          rw [appendedReports, happended, ih hvalid' hlast' hown', hid', hreads]
          by_cases hsame : last.taskId = readTaskId station reportData
          · have hkey : last.taskId = (reportOfRead station reportData nowMillis).taskId := hsame
            rw [if_pos hsame, List.changes_cons_of_eq hkey, hsame]
            rfl
          · have hkey : last.taskId ≠ (reportOfRead station reportData nowMillis).taskId := hsame
            rw [if_neg hsame, List.changes_cons_of_ne hkey]
            rfl
      | delete reportId =>
          obtain ⟨last', hlast', hown', hid'⟩ := delete_step hlast hown reportId
          rw [appendedReports, ih hvalid' hlast' hown', hid']
          rfl

/-- **One report per task run**: over any sequence of valid reads and acknowledgements, the
appended reports are those of the reads at which the task changes, and their task ids are the
sequence of task ids, from the last report's on, with repetitions removed.  A read leaves the list
with the report that it appends, or with the content of the last one renewed. -/
theorem appendedReports_one_per_task {station : FillStation} (hdb : 0 < station.reportDb)
    {caches : Caches} {last : PlcReport}
    (hlast : (reportsOf caches station).getLast? = some last) (hown : OwnTask station last)
    {events : List StationEvent} (hvalid : ∀ e ∈ events, e.Valid station) :
    (appendedReports station events caches).map PlcReport.taskId =
        ((last.taskId :: (readsOf station events).map PlcReport.taskId).destutter (· ≠ ·)).tail ∧
      appendedReports station events caches =
        ((last :: readsOf station events).destutter fun r r' => r.taskId ≠ r'.taskId).tail ∧
      ∀ (reportData : List UInt8) (nowMillis : ℕ) (before : Caches),
        reportsOf ((StationEvent.read reportData nowMillis).apply station before) station =
          match (StationEvent.read reportData nowMillis).appended station before with
          | some report => appendReport station (reportsOf before station) report
          | none => refreshLast (hexEncode reportData) (reportsOf before station) := by
  rw [appendedReports_eq_changes hdb hvalid hlast hown]
  exact ⟨List.map_changes _ _ _, (List.tail_destutter_cons_eq_changes _ _ _).symm,
    reportsOf_apply_read hdb⟩

/-- Task 1 goes on, is acknowledged and goes on again; then task 2 runs, and task 1 comes back. -/
def taskRun : List StationEvent :=
  [.read (smallBlock 1 1 5) 11, .delete 10, .read (smallBlock 1 1 6) 12,
    .read (smallBlock 2 2 0) 20, .read (smallBlock 2 2 1) 21, .read (smallBlock 1 3 0) 30]

theorem appendedReports_one_per_task_taskRun :
    (appendedReports smallStation taskRun oneReportCache).map PlcReport.taskId = [2, 1] := by
  have hlast : (reportsOf oneReportCache smallStation).getLast? =
      some (reportOfRead smallStation (smallBlock 1 1 0) 10) := by decide
  have hown : OwnTask smallStation (reportOfRead smallStation (smallBlock 1 1 0) 10) :=
    ⟨smallBlock 1 1 0, by decide, by decide⟩
  have hvalid : ∀ e ∈ taskRun, e.Valid smallStation := by
    simp only [taskRun, List.mem_cons, List.not_mem_nil, or_false, forall_eq_or_imp, forall_eq,
      StationEvent.Valid]
    decide
  rw [(appendedReports_one_per_task (by decide) hlast hown hvalid).1]
  decide

end FillingPilot
