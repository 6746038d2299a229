/-
**The reports of a device** over its whole life, restarts included.

The report cache is empty when the process starts.  A thread then reads the file of the reports and
another writes it once a minute, while the loop, the acknowledgements and the configurations go on.
The keys of the file cannot be read as stations, so that no file ever puts a report into the cache;
and the first read of a station without reports makes none.

Main definitions:

* `FillingPilot.DeviceState`, `FillingPilot.deviceStep` — the loop, the file and the restarts;
* `FillingPilot.WithoutReports` — no list has a report, and no `report` message was sent.

Main results:

* `FillingPilot.loadReports_eq` — a file changes nothing;
* `FillingPilot.deviceStep_withoutReports` — what a step keeps;
* `FillingPilot.never_reports` — **a device never sends a report**.
-/

import FillingPilot.ReportLoop
import FillingPilot.ReportStore

set_option relaxedAutoImplicit false
set_option autoImplicit false

namespace FillingPilot

open Json

/-! ### Restarts -/

/-- The loop of the running process, with all messages the device has sent, and the file. -/
structure DeviceState where
  loop : LoopState
  reportsFile : Option Value

/-- What can happen to a device. -/
inductive DeviceEvent
  | loop (e : LoopEvent)
  /-- The thread of the start reads the file. -/
  | load
  /-- The other thread writes it. -/
  | persist
  /-- The process ends at any point, and starts again. -/
  | restart

/-- One step of a device. -/
def deviceStep (toText : Value → String) (st : DeviceState) : DeviceEvent → Option DeviceState
  | .loop e => (loopStep st.loop e).map fun loop => { st with loop := loop }
  | .load => some { st with
      loop := { st.loop with caches := loadReports st.reportsFile st.loop.caches } }
  | .persist => some { st with
      reportsFile := persistReports toText st.loop.caches st.reportsFile }
  | .restart => some { st with loop := { loopStart ∅ with emitted := st.loop.emitted } }

/-- A device at its first start, with whatever file it finds. -/
def deviceStart (reportsFile : Option Value) : DeviceState := ⟨loopStart ∅, reportsFile⟩

/-! ### What is loaded -/

/-- **A file changes nothing**: a key cannot be read as a station, whatever the file has. -/
theorem loadReports_eq (file : Option Value) (caches : Caches) :
    loadReports file caches = caches := by
  cases file with
  | none => rfl
  | some content =>
      cases content with
      | object members =>
          by_cases hne : members = []
          · subst hne
            rfl
          · have hkeys : ∀ name, FillStation.fromKey name = none := fun _ => rfl
            rw [loadReports, readMap_of_unreadable hkeys hne]
      | null | bool | number | string | array => rfl

/-! ### What is sent -/

/-- No list has a report, and no message was sent. -/
structure WithoutReports (st : LoopState) : Prop where
  lists : ∀ station, reportsOf st.caches station = []
  emitted : st.emitted = []

theorem unsentMessages_of_lists_empty {caches : Caches}
    (h : ∀ station, reportsOf caches station = []) : unsentMessages caches = [] := by
  rw [List.eq_nil_iff_forall_not_mem]
  intro m hm
  obtain ⟨station, r, hr, -, -⟩ := mem_unsentMessages.1 hm
  rw [h station] at hr
  cases hr

/-- What a step of the loop keeps. -/
theorem loopStep_withoutReports {st st' : LoopState} {e : LoopEvent} (hst : WithoutReports st)
    (h : loopStep st e = some st') : WithoutReports st' := by
  refine ⟨loopStep_lists_empty hst.lists h, ?_⟩
  obtain ⟨stations, rfl, -, -, rfl⟩ | ⟨read, nowMillis, station, rest, rfl, htodo, rfl⟩ |
    ⟨rfl, -, rfl⟩ | ⟨reportId, rfl, rfl⟩ | ⟨stations, rfl, rfl⟩ := loopStep_cases h
  · exact hst.emitted
  · exact hst.emitted
  · show st.emitted ++ unsentMessages st.caches = []
    rw [hst.emitted, unsentMessages_of_lists_empty hst.lists, List.append_nil]
  · exact hst.emitted
  · exact hst.emitted

/-- **What a step of a device keeps.** -/
theorem deviceStep_withoutReports {toText : Value → String} {st st' : DeviceState}
    {e : DeviceEvent} (hst : WithoutReports st.loop) (h : deviceStep toText st e = some st') :
    WithoutReports st'.loop := by
  cases e with
  | loop e =>
      obtain ⟨loop, hloop, rfl⟩ := Option.map_eq_some_iff.1 h
      exact loopStep_withoutReports hst hloop
  | load =>
      cases h
      exact ⟨by rw [loadReports_eq]; exact hst.lists, hst.emitted⟩
  | persist =>
      cases h
      exact hst
  | restart =>
      cases h
      exact ⟨fun _ => rfl, hst.emitted⟩

/-- **A device never sends a report**: in every state of every run, over any number of restarts and
whatever file is there at first, every list is empty and no `report` message was sent. -/
theorem never_reports (toText : Value → String) (reportsFile : Option Value)
    (events : List DeviceEvent) :
    Lts.Always (deviceStep toText) (fun st => WithoutReports st.loop) (deviceStart reportsFile)
      events :=
  Lts.always_of_invariant (I := fun st => WithoutReports st.loop) (fun _ hst => hst)
    (fun _ _ _ hst h => deviceStep_withoutReports hst h) ⟨fun _ => rfl, rfl⟩

end FillingPilot
