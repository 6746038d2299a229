/-
**The monitors over the starts of a device.**

The monitors of the last configuration are written to a file once a minute, and `main` reads the
file at the start.  To put the monitors into the set behind the lock it blocks on a runtime of its
own, and `main` is a task of a runtime already: with any monitor in the file the start ends in a
panic, before the writer is started.

Main definitions:

* `FillingPilot.MonitorProcessor.loadFromDiskBy` — the load, from a task or from a thread;
* `FillingPilot.BootState`, `FillingPilot.BootEvent`, `FillingPilot.bootStep` — starts,
  configurations, rounds of the writer and stops;
* `FillingPilot.WritesRead` — what is written is read back.

Main results:

* `FillingPilot.bootStep_file` — when a step leaves no monitor in the file;
* `FillingPilot.start_goes_through_iff` — **when a start goes through**: when no round of the
  writer, in all the life of the device, had a monitor to write.
-/

import FillingPilot.MetaStore
import FillingPilot.Runs

set_option relaxedAutoImplicit false
set_option autoImplicit false

namespace FillingPilot

open Json Rust

/-! ### Times that are read -/

namespace Monitor

theorem inRange_fromEntry (ip : String) (port : UInt16) (m : Value) :
    (fromEntry ip port m).InRange := by
  have hnumber (name : String) {default : ℤ} (hdefault : default < 2 ^ 64) :
      (((m.get name).bind Value.asU64).getD default).toNat < 2 ^ 64 := by
    cases hread : (m.get name).bind Value.asU64 with
    | none =>
        rw [Option.getD_none]
        omega
    | some n =>
        obtain ⟨v, -, hv⟩ := Option.bind_eq_some_iff.1 hread
        have hlt := Value.asU64_lt hv
        rw [Option.getD_some]
        omega
  have hfrequency := hnumber "frequency" (show (50 : ℤ) < 2 ^ 64 by decide)
  have hresend := hnumber "resendInterval" (show (1000 : ℤ) < 2 ^ 64 by decide)
  exact ⟨max_lt hfrequency (by decide), max_lt hresend (by decide)⟩

theorem inRange_of_mem_parseFromPlcInfo {plcInfo : List Value} {m : Monitor}
    (h : m ∈ parseFromPlcInfo plcInfo) : m.InRange := by
  obtain ⟨plc, -, hm⟩ := List.mem_flatMap.1 h
  unfold fromPlc at hm
  split at hm
  · obtain ⟨entry, -, rfl⟩ := List.mem_map.1 hm
    exact inRange_fromEntry _ _ entry
  · cases hm

end Monitor

/-! ### The device -/

/-- The load of the monitors: they are put into the set by a future that is blocked on. -/
def MonitorProcessor.loadFromDiskBy (caller : Caller) (text : JsonText) (file : Option String)
    (active : Finset Monitor) : Outcome (Finset Monitor) :=
  let monitors := Monitor.loadFromDisk text file
  if monitors.isEmpty then .ok active
  else caller.blockOn (.ok (monitors.foldl (fun active m => insert m active) active))

/-- From a thread of its own the load would be the one of the processor. -/
theorem MonitorProcessor.loadFromDiskBy_thread (text : JsonText) (file : Option String)
    (active : Finset Monitor) :
    loadFromDiskBy .thread text file active = .ok (loadFromDisk text file active) := by
  rw [loadFromDiskBy, loadFromDisk]
  split_ifs
  · rfl
  · rfl

/-- Whether the process runs, the active monitors with what is kept about them, and the file. -/
structure BootState where
  running : Bool
  active : Finset Monitor × MonitorProcessor.States
  file : Option String

inductive BootEvent
  /-- The process is started: `main` comes to the load of the monitors. -/
  | start
  /-- A configuration that differs from the last one. -/
  | plcInfo (plcInfo : List Value)
  /-- A round of the writer, which takes the set in the order of its iteration. -/
  | persist (order : List Monitor)
  /-- The process ends. -/
  | stop

section Runs

variable (text : JsonText)

/-- The state of a process that is not there. -/
def ended (st : BootState) : BootState := { st with running := false, active := (∅, ∅) }

def bootStep (st : BootState) : BootEvent → Option BootState
  | .start =>
      if st.running then none
      else match MonitorProcessor.loadFromDiskBy .task text st.file ∅ with
        | .ok active => some { st with running := true, active := (active, ∅) }
        | _ => some (ended st)
  | .plcInfo plcInfo =>
      if st.running then
        let monitors := Monitor.parseFromPlcInfo plcInfo
        -- a configuration without monitors does not come to the processor
        if monitors.isEmpty then some st
        else some { st with active := updateMonitors monitors st.active }
      else none
  | .persist order =>
      if st.running ∧ MonitorProcessor.IterationOrder st.active.1 order then
        some { st with file := Monitor.persistToDisk text order st.file }
      else none
  | .stop => if st.running then some (ended st) else none

/-- A device before its first start. -/
def unstarted (file : Option String) : BootState := ⟨false, (∅, ∅), file⟩

/-- What is written is read back as it was. -/
def WritesRead (_ : BootState) : BootEvent → Prop
  | .persist order => order ≠ [] → text.ReadsBack (Monitor.listToJson order)
  | _ => True

/-- No monitor in the file. -/
def NoneStored (file : Option String) : Prop := Monitor.loadFromDisk text file = []

/-- A round of the writer had nothing to write. -/
def WritesNothing : BootEvent → Prop
  | .persist order => order = []
  | _ => True

end Runs

/-! ### Starts -/

section Starts

variable {text : JsonText}

/-- A start goes through when there is no monitor in the file, and ends in a panic otherwise. -/
theorem bootStep_start {st st' : BootState} (h : bootStep text st .start = some st') :
    (st'.running = true ↔ NoneStored text st.file) ∧ st'.file = st.file ∧ st'.active.1 = ∅ := by
  simp only [bootStep] at h
  split_ifs at h with hrunning
  by_cases hnone : Monitor.loadFromDisk text st.file = []
  · have hload : MonitorProcessor.loadFromDiskBy .task text st.file ∅ = .ok ∅ := by
      rw [MonitorProcessor.loadFromDiskBy, hnone]
      rfl
    rw [hload] at h
    obtain rfl := Option.some.inj h
    exact ⟨iff_of_true rfl hnone, rfl, rfl⟩
  · have hload : MonitorProcessor.loadFromDiskBy .task text st.file ∅ = .panic := by
      rw [MonitorProcessor.loadFromDiskBy]
      simp only [List.isEmpty_iff, hnone, if_false, Caller.blockOn_task]
    rw [hload] at h
    obtain rfl := Option.some.inj h
    exact ⟨iff_of_false Bool.false_ne_true hnone, rfl, rfl⟩

theorem exists_bootStep_start {st : BootState} (h : st.running = false) :
    ∃ st', bootStep text st .start = some st' := by
  simp only [bootStep, h, Bool.false_eq_true, if_false]
  split
  · exact ⟨_, rfl⟩
  · exact ⟨_, rfl⟩

/-- The times of the active monitors are in range. -/
def ActiveInRange (st : BootState) : Prop := ∀ m ∈ st.active.1, m.InRange

theorem bootStep_inRange {st st' : BootState} {e : BootEvent} (hst : ActiveInRange st)
    (h : bootStep text st e = some st') : ActiveInRange st' := by
  cases e with
  | start =>
      intro m hm
      rw [(bootStep_start h).2.2] at hm
      cases hm
  | plcInfo plcInfo =>
      simp only [bootStep] at h
      split_ifs at h with hrunning hempty
      · obtain rfl := Option.some.inj h
        exact hst
      · obtain rfl := Option.some.inj h
        intro m hm
        rw [updateMonitors_fst, List.mem_toFinset] at hm
        exact Monitor.inRange_of_mem_parseFromPlcInfo hm
  | persist order =>
      simp only [bootStep] at h
      split_ifs at h
      obtain rfl := Option.some.inj h
      exact hst
  | stop =>
      simp only [bootStep] at h
      split_ifs at h
      obtain rfl := Option.some.inj h
      exact nofun

/-- **When a step leaves no monitor in the file**: when there was none, and none is written. -/
theorem bootStep_file {st st' : BootState} {e : BootEvent} (hok : WritesRead text st e)
    (hst : ActiveInRange st) (h : bootStep text st e = some st') :
    NoneStored text st'.file ↔ NoneStored text st.file ∧ WritesNothing e := by
  cases e with
  | start =>
      rw [(bootStep_start h).2.1]
      exact (and_iff_left trivial).symm
  | plcInfo plcInfo =>
      simp only [bootStep] at h
      split_ifs at h
      · obtain rfl := Option.some.inj h
        exact (and_iff_left trivial).symm
      · obtain rfl := Option.some.inj h
        exact (and_iff_left trivial).symm
  | persist order =>
      simp only [bootStep] at h
      split_ifs at h with hguard
      obtain rfl := Option.some.inj h
      show NoneStored text (Monitor.persistToDisk text order st.file) ↔
        NoneStored text st.file ∧ order = []
      by_cases hnil : order = []
      · subst hnil
        exact (and_iff_left rfl).symm
      · have hrange : ∀ m ∈ order, m.InRange := fun m hm =>
          hst m (hguard.2.2 ▸ List.mem_toFinset.2 hm)
        rw [NoneStored, Monitor.loadFromDisk_persistToDisk hnil hrange (hok hnil)]
        exact iff_of_false hnil fun hboth => hnil hboth.2
  | stop =>
      simp only [bootStep] at h
      split_ifs at h
      obtain rfl := Option.some.inj h
      exact (and_iff_left trivial).symm

theorem run_file {events : List BootEvent} {st st' : BootState}
    (hreads : Lts.Along (bootStep text) (WritesRead text) st events) (hst : ActiveInRange st)
    (hrun : Lts.run (bootStep text) st events = some st') :
    NoneStored text st'.file ↔ NoneStored text st.file ∧ ∀ e ∈ events, WritesNothing e := by
  induction events generalizing st with
  | nil =>
      obtain rfl := Option.some.inj hrun
      exact (and_iff_left nofun).symm
  | cons e events ih =>
      obtain ⟨u, hu, hrest⟩ := Lts.run_cons.1 hrun
      rw [ih (hreads.2 u hu) (bootStep_inRange hst hu) hrest, bootStep_file hreads.1 hst hu,
        List.forall_mem_cons, and_assoc]

/-- **When a start goes through**: after any run, when there was no monitor in the file at first and
no round of the writer had one to write. -/
theorem start_goes_through_iff {file : Option String} {events : List BootEvent} {st st' : BootState}
    (hreads : Lts.Along (bootStep text) (WritesRead text) (unstarted file) events)
    (hrun : Lts.run (bootStep text) (unstarted file) events = some st)
    (hstart : bootStep text st .start = some st') :
    st'.running = true ↔ NoneStored text file ∧ ∀ e ∈ events, WritesNothing e := by
  rw [(bootStep_start hstart).1]
  exact run_file hreads nofun hrun

end Starts

/-- A configuration with one monitor. -/
def plcWithMonitor : Value :=
  .object [("ipAddress", .string "10.0.0.1"), ("portNumber", .ofInt 102),
    ("monitorList", .array [.object [("id", .string "M1"), ("dbNumber", .ofInt 1),
      ("blockSize", .ofInt 2)]])]

/-- The monitor is written once, and the process ends. -/
def firstLife : List BootEvent :=
  [.start, .plcInfo [plcWithMonitor], .persist [MonitorProcessor.smallMonitor], .stop]

theorem start_goes_through_iff_firstLife :
    ∃ st st', Lts.run (bootStep smallText) (unstarted none) firstLife = some st ∧
      bootStep smallText st .start = some st' ∧ st'.running = false := by
  have htexts : smallMonitorText ≠ labelText := by decide
  have hreads : Lts.Along (bootStep smallText) (WritesRead smallText) (unstarted none)
      firstLife := by
    refine .of_step trivial rfl (.of_step trivial rfl (.of_step ?_ rfl ?_))
    · intro _
      simp only [JsonText.ReadsBack, smallText, Monitor.listToJson, Option.bind_some,
        if_neg htexts, if_true]
    · exact .of_step trivial rfl trivial
  obtain ⟨st, hrun, hended⟩ : ∃ st, Lts.run (bootStep smallText) (unstarted none) firstLife =
      some st ∧ st.running = false := ⟨_, rfl, rfl⟩
  obtain ⟨st', hstart⟩ : ∃ st', bootStep smallText st .start = some st' :=
    exists_bootStep_start hended
  refine ⟨st, st', hrun, hstart, Bool.eq_false_of_not_eq_true fun hrunning => ?_⟩
  have hnothing := ((start_goes_through_iff hreads hrun hstart).1 hrunning).2
    (.persist [MonitorProcessor.smallMonitor]) (by simp [firstLife])
  cases hnothing

end FillingPilot
