/-
**The messages of a monitor over the runs of the loop.**

The state of a monitor is kept under its id, so that all monitors of one id share it: the data kept
is that of the last message, and the times kept are those of the last read and the last message.
From this one invariant follows what the server sees of an id: every change, the same data again
only after the interval, and reads that keep their distance.

Main definitions:

* `FillingPilot.MonitorProcessor.ProcessorState`,
  `FillingPilot.MonitorProcessor.processorStep` — the loop, its turns and the configurations;
* `FillingPilot.MonitorProcessor.Tracks` — **the invariant**: the state of an id and its log;
* `FillingPilot.MonitorProcessor.Faithful` — what the log of an id says.

Main results:

* `FillingPilot.MonitorProcessor.Tracks.turn` — what one turn keeps;
* `FillingPilot.MonitorProcessor.processorStep_log` — **what a step does** to the log of an id;
* `FillingPilot.MonitorProcessor.monitor_messages_faithful` — **every run**: the messages of an id
  carry every change and are paced.
-/

import FillingPilot.Changes
import FillingPilot.LocalRequest
import FillingPilot.Simulation

set_option relaxedAutoImplicit false
set_option autoImplicit false

namespace FillingPilot

open Json Rust

namespace MonitorProcessor

/-! ### The loop -/

/-- A successful read: the monitor, the clock reading of the pass, and the block. -/
structure ReadRecord where
  monitor : Monitor
  time : ℕ
  block : List UInt8

/-- A message: the monitor, the clock reading of the pass, and the data it carries. -/
structure MonitorMessage where
  monitor : Monitor
  time : ℕ
  data : String

/-- The type and the text of a message. -/
def MonitorMessage.toMessage (m : MonitorMessage) : String × Value :=
  ("monitorStatus", buildMonitorMessage m.monitor m.data)

theorem MonitorMessage.get_data (m : MonitorMessage) :
    m.toMessage.2.get "data" = some (.string m.data) := rfl

/-- A configuration under way: the monitors that it has still to remove, and those that it has. -/
structure Update where
  toRemove : List Monitor
  newMonitors : List Monitor

/-- The active monitors with what is kept for each id, the last clock reading, the monitors that are
left to a running pass with the messages that it has collected, a configuration under way, what was
read, the messages of the passes that ended, and the requests under way. -/
structure ProcessorState where
  active : Finset Monitor × States
  clock : ℕ
  pass : Option (List Monitor)
  collected : List MonitorMessage
  update : Option Update
  reads : List ReadRecord
  sent : List MonitorMessage
  posts : List LocalPost

/-- A step of the processor. -/
inductive ProcessorEvent
  /-- A pass takes the active monitors, in the order of the set's iteration, and the clock. -/
  | startPass (monitors : List Monitor) (nowMillis : ℕ)
  /-- The next monitor of the pass has its turn, with the definitions that there are. -/
  | trigger (plc : S7Read → Option (List UInt8)) (cache : MetaCache)
  /-- The pass returns its messages. -/
  | endPass
  /-- A configuration takes the lock of the monitors. -/
  | configure (newMonitors toRemove : List Monitor)
  /-- The configuration removes the next monitor, and what is kept under its id. -/
  | remove
  /-- The configuration adds the monitors that are new. -/
  | configured

/-- What is kept under an id. -/
def stateOf (st : ProcessorState) (id : String) : MonitorState := stateAt st.active.2 id

/-- The state after the turn of a monitor. -/
def afterTurn (st : ProcessorState) (monitor : Monitor) (rest : List Monitor) (turn : Turn)
    (post : Option LocalPost) : ProcessorState :=
  { st with
    active := (st.active.1, st.active.2.insert monitor.id turn.state)
    pass := some rest
    collected :=
      st.collected ++ (turn.message.map fun data => ⟨monitor, st.clock, data⟩).toList
    reads := st.reads ++ (turn.block.map fun block => ⟨monitor, st.clock, block⟩).toList
    posts := st.posts ++ post.toList }

/-- The state after a turn that panicked: the pass returns nothing. -/
def afterPanic (st : ProcessorState) (monitor : Monitor) (state : MonitorState)
    (block : Option (List UInt8)) : ProcessorState :=
  { st with
    active := (st.active.1, st.active.2.insert monitor.id state)
    pass := none
    collected := []
    reads := st.reads ++ (block.map fun block => ⟨monitor, st.clock, block⟩).toList }

/-- One step.  The lock of the states is held for a turn and for one removal; the lock of the
monitors is held by a configuration from its begin to its end, and by a pass at its begin. -/
def processorStep (host : Host) (st : ProcessorState) : ProcessorEvent → Option ProcessorState
  | .startPass monitors nowMillis =>
      if st.pass = none ∧ st.update.isNone ∧ IterationOrder st.active.1 monitors then
        some { st with clock := nowMillis, pass := some monitors }
      else none
  | .trigger plc cache =>
      match st.pass with
      | some (monitor :: rest) =>
          match monitorTurn host cache plc st.clock monitor (stateOf st monitor.id) with
          | .through turn post => some (afterTurn st monitor rest turn post)
          | .panic state block => some (afterPanic st monitor state block)
      | _ => none
  | .endPass =>
      if st.pass = some [] then
        some { st with pass := none, collected := [], sent := st.sent ++ st.collected }
      else none
  | .configure newMonitors toRemove =>
      if st.update.isNone ∧ IterationOrder (st.active.1 \ newMonitors.toFinset) toRemove then
        some { st with update := some ⟨toRemove, newMonitors⟩ }
      else none
  | .remove =>
      match st.update with
      | some ⟨m :: toRemove, newMonitors⟩ => some { st with
          active := (st.active.1.erase m, st.active.2.erase m.id)
          update := some ⟨toRemove, newMonitors⟩ }
      | _ => none
  | .configured =>
      match st.update with
      | some ⟨[], newMonitors⟩ => some { st with
          active := (st.active.1 ∪ (newMonitors.toFinset \ st.active.1), st.active.2)
          update := none }
      | _ => none

/-- The state when the processor starts to be watched. -/
def watched (active : Finset Monitor × States) (clock : ℕ) : ProcessorState :=
  ⟨active, clock, none, [], none, [], [], []⟩

/-- The successful reads for an id, oldest first. -/
def readsFor (id : String) (st : ProcessorState) : List ReadRecord :=
  st.reads.filter fun r => r.monitor.id = id

/-- The messages for an id that passes have returned, oldest first. -/
def messagesFor (id : String) (st : ProcessorState) : List MonitorMessage :=
  st.sent.filter fun m => m.monitor.id = id

/-- The messages for an id, with those of the running pass. -/
def madeFor (id : String) (st : ProcessorState) : List MonitorMessage :=
  (st.sent ++ st.collected).filter fun m => m.monitor.id = id

/-- The monitor that the configuration under way removes next. -/
def nextRemoved (st : ProcessorState) : Option Monitor := do
  let update ← st.update
  update.toRemove.head?

/-- The clock does not go back. -/
def Forward (st : ProcessorState) : ProcessorEvent → Prop
  | .startPass _ nowMillis => st.clock ≤ nowMillis
  | _ => True

/-- The clock does not go back, and the monitors have their offset in their block. -/
def Regular (st : ProcessorState) : ProcessorEvent → Prop
  | .startPass monitors nowMillis =>
      st.clock ≤ nowMillis ∧ ∀ m ∈ monitors, m.offset ≤ m.blockSize
  | _ => True

theorem Regular.forward {st : ProcessorState} {e : ProcessorEvent} (h : Regular st e) :
    Forward st e := by
  cases e with
  | startPass => exact h.1
  | trigger | endPass | configure | remove | configured => trivial

/-- No monitor of the id is removed. -/
def KeepsMonitors (id : String) (st : ProcessorState) : ProcessorEvent → Prop
  | .remove => ∀ m ∈ nextRemoved st, m.id ≠ id
  | _ => True

/-- No message of the id is lost: a turn that has to decode its data is not one of the id, and the
pass has no message of the id yet. -/
def KeepsMessages (id : String) (st : ProcessorState) : ProcessorEvent → Prop
  | .trigger plc _ =>
      ∀ monitor rest, st.pass = some (monitor :: rest) →
        NeedsDecoding plc st.clock monitor (stateOf st monitor.id) →
          monitor.id ≠ id ∧ ∀ m ∈ st.collected, m.monitor.id ≠ id
  | _ => True

/-! ### The invariant -/

/-- The second read is the frequency of its monitor after the first. -/
def Spaced (a b : ReadRecord) : Prop := a.time + b.monitor.frequency ≤ b.time

/-- The second message has other data, or comes the resend interval of its monitor after the
first. -/
def Paced (a b : MonitorMessage) : Prop :=
  a.data ≠ b.data ∨ a.time + b.monitor.resendInterval ≤ b.time

/-- **The invariant**: what is kept under an id is what its log ends with. -/
structure Tracks (clock : ℕ) (state : MonitorState) (reads : List ReadRecord)
    (messages : List MonitorMessage) : Prop where
  idle : state.running = false
  readTime : state.lastReadTime = reads.getLast?.map ReadRecord.time
  sendTime : state.lastSendTime = messages.getLast?.map MonitorMessage.time
  data : state.data = (messages.getLast?.map MonitorMessage.data).getD ""
  block : ∀ r ∈ reads.getLast?, hexEncode r.block = state.data
  sentOnce : (∃ r ∈ reads, r.block ≠ []) → messages ≠ []
  readClock : ∀ t ∈ state.lastReadTime, t ≤ clock
  sendClock : ∀ t ∈ state.lastSendTime, t ≤ clock
  spaced : reads.IsChain Spaced
  paced : messages.IsChain Paced

theorem tracks_newState (clock : ℕ) : Tracks clock newState [] [] where
  idle := rfl
  readTime := rfl
  sendTime := rfl
  data := rfl
  block r hr := by cases hr
  sentOnce := by rintro ⟨r, hr, -⟩; cases hr
  readClock t ht := by cases ht
  sendClock t ht := by cases ht
  spaced := List.IsChain.nil
  paced := List.IsChain.nil

section Turn

variable {clock : ℕ} {monitor : Monitor} {state : MonitorState} {reads : List ReadRecord}
  {messages : List MonitorMessage}

/-- Data that is kept was sent. -/
theorem Tracks.messages_ne_nil (h : Tracks clock state reads messages) (hdata : state.data ≠ "") :
    messages ≠ [] := by
  rintro rfl
  exact hdata h.data

/-- The end of a turn keeps the invariant. -/
theorem Tracks.ending {block : Option (List UInt8)} {turn : Turn}
    (h : Tracks clock state reads messages) (hend : Ending clock monitor state block turn) :
    turn.block = block ∧ Tracks clock turn.state reads
      (messages ++ (turn.message.map fun data => ⟨monitor, clock, data⟩).toList) := by
  cases hend with
  | quiet => exact ⟨rfl, by simpa using h⟩
  | again t hlast hdue hdata =>
      refine ⟨rfl, ?_⟩
      have hpaced : ∀ m ∈ messages.getLast?, Paced m ⟨monitor, clock, state.data⟩ := by
        intro m hm
        refine Or.inr ?_
        -- the time kept is that of the last message
        have htime := h.sendTime
        rw [hlast, Option.mem_def.1 hm, Option.map_some, Option.some.injEq] at htime
        rw [← htime]
        exact hdue
      exact {
        idle := h.idle
        readTime := h.readTime
        sendTime := by simp
        data := by simp
        block := h.block
        sentOnce := fun _ => by simp
        readClock := h.readClock
        sendClock := fun t ht => (Option.some.inj ht).symm.le
        spaced := h.spaced
        paced := List.isChain_concat h.paced hpaced }

/-- A read that is due comes after the last one. -/
theorem Tracks.isChain_reads (h : Tracks clock state reads messages)
    (hdue : ∀ t ∈ state.lastReadTime, t + monitor.frequency ≤ clock) (full : List UInt8) :
    (reads ++ [ReadRecord.mk monitor clock full]).IsChain Spaced := by
  refine List.isChain_concat h.spaced fun r hr => hdue r.time ?_
  rw [h.readTime, Option.mem_def.1 hr, Option.map_some, Option.mem_def]

theorem Tracks.unchanged (h : Tracks clock state reads messages)
    (hdue : ∀ t ∈ state.lastReadTime, t + monitor.frequency ≤ clock) {full : List UInt8}
    (hdata : hexEncode full = state.data) :
    Tracks clock { state with lastReadTime := some clock } (reads ++ [⟨monitor, clock, full⟩])
      messages where
  idle := h.idle
  readTime := by simp
  sendTime := h.sendTime
  data := h.data
  block r hr := by
    rw [List.getLast?_concat, Option.mem_some_iff] at hr
    exact hr ▸ hdata
  sentOnce := by
    rintro ⟨r, hr, hne⟩
    rcases List.mem_append.1 hr with hr | hr
    · exact h.sentOnce ⟨r, hr, hne⟩
    · -- the block is the data kept, which is empty only as long as nothing was sent
      rw [List.mem_singleton.1 hr] at hne
      refine h.messages_ne_nil fun hempty => hne (hexEncode_injective ?_)
      rw [hdata, hempty]
      rfl
  readClock t ht := (Option.some.inj ht).symm.le
  sendClock := h.sendClock
  spaced := h.isChain_reads hdue full
  paced := h.paced

theorem Tracks.changed (h : Tracks clock state reads messages)
    (hdue : ∀ t ∈ state.lastReadTime, t + monitor.frequency ≤ clock) {full : List UInt8}
    (hdata : hexEncode full ≠ state.data) :
    Tracks clock
      { state with
        data := hexEncode full, lastReadTime := some clock, lastSendTime := some clock }
      (reads ++ [⟨monitor, clock, full⟩]) (messages ++ [⟨monitor, clock, hexEncode full⟩]) where
  idle := h.idle
  readTime := by simp
  sendTime := by simp
  data := by simp
  block r hr := by
    rw [List.getLast?_concat, Option.mem_some_iff] at hr
    rw [← hr]
  sentOnce := fun _ => by simp
  readClock t ht := (Option.some.inj ht).symm.le
  sendClock t ht := (Option.some.inj ht).symm.le
  spaced := h.isChain_reads hdue full
  paced := by
    -- the data kept is that of the last message, and the block differs from it
    refine List.isChain_concat h.paced fun m hm => Or.inl fun heq => hdata ?_
    have hkept := h.data
    rw [Option.mem_def.1 hm, Option.map_some, Option.getD_some] at hkept
    rw [hkept]
    exact heq.symm

/-- **What one turn keeps.** -/
theorem Tracks.turn {turn : Turn} (h : Tracks clock state reads messages)
    (hturn : TurnOf clock monitor state turn) :
    Tracks clock turn.state
      (reads ++ (turn.block.map fun block => ⟨monitor, clock, block⟩).toList)
      (messages ++ (turn.message.map fun data => ⟨monitor, clock, data⟩).toList) := by
  cases hturn with
  | changed full hdue hdata => exact h.changed hdue hdata
  | unchanged full _ hdue hdata hend =>
      obtain ⟨hblock, hstate⟩ := (h.unchanged hdue hdata).ending hend
      rw [hblock]
      exact hstate
  | unread _ hend =>
      obtain ⟨hblock, hstate⟩ := h.ending hend
      rw [hblock]
      simpa using hstate

end Turn

/-! ### Steps -/

section Steps

variable {host : Host} {st st' : ProcessorState}

theorem trigger_eq_some {plc : S7Read → Option (List UInt8)} {cache : MetaCache}
    (h : processorStep host st (.trigger plc cache) = some st') :
    ∃ monitor rest, st.pass = some (monitor :: rest) ∧
      ((∃ turn post, monitorTurn host cache plc st.clock monitor (stateOf st monitor.id) =
          .through turn post ∧ st' = afterTurn st monitor rest turn post) ∨
        ∃ state block, monitorTurn host cache plc st.clock monitor (stateOf st monitor.id) =
          .panic state block ∧ st' = afterPanic st monitor state block) := by
  simp only [processorStep] at h
  split at h
  · rename_i monitor rest hpass
    refine ⟨monitor, rest, hpass, ?_⟩
    split at h
    · rename_i turn post hturn
      exact Or.inl ⟨turn, post, hturn, (Option.some.inj h).symm⟩
    · rename_i state block hturn
      exact Or.inr ⟨state, block, hturn, (Option.some.inj h).symm⟩
  · cases h

theorem startPass_eq_some {monitors : List Monitor} {nowMillis : ℕ}
    (h : processorStep host st (.startPass monitors nowMillis) = some st') :
    (st.pass = none ∧ st.update.isNone ∧ IterationOrder st.active.1 monitors) ∧
      st' = { st with clock := nowMillis, pass := some monitors } := by
  simp only [processorStep] at h
  split_ifs at h with hguard
  exact ⟨hguard, (Option.some.inj h).symm⟩

theorem endPass_eq_some (h : processorStep host st .endPass = some st') :
    st.pass = some [] ∧
      st' = { st with pass := none, collected := [], sent := st.sent ++ st.collected } := by
  simp only [processorStep] at h
  split_ifs at h with hguard
  exact ⟨hguard, (Option.some.inj h).symm⟩

theorem configure_eq_some {newMonitors toRemove : List Monitor}
    (h : processorStep host st (.configure newMonitors toRemove) = some st') :
    (st.update.isNone ∧ IterationOrder (st.active.1 \ newMonitors.toFinset) toRemove) ∧
      st' = { st with update := some ⟨toRemove, newMonitors⟩ } := by
  simp only [processorStep] at h
  split_ifs at h with hguard
  exact ⟨hguard, (Option.some.inj h).symm⟩

theorem remove_eq_some (h : processorStep host st .remove = some st') :
    ∃ m toRemove newMonitors, st.update = some ⟨m :: toRemove, newMonitors⟩ ∧
      st' = { st with
        active := (st.active.1.erase m, st.active.2.erase m.id)
        update := some ⟨toRemove, newMonitors⟩ } := by
  simp only [processorStep] at h
  split at h
  · rename_i m toRemove newMonitors hupdate
    exact ⟨m, toRemove, newMonitors, hupdate, (Option.some.inj h).symm⟩
  · cases h

theorem configured_eq_some (h : processorStep host st .configured = some st') :
    ∃ newMonitors, st.update = some ⟨[], newMonitors⟩ ∧
      st' = { st with
        active := (st.active.1 ∪ (newMonitors.toFinset \ st.active.1), st.active.2)
        update := none } := by
  simp only [processorStep] at h
  split at h
  · rename_i newMonitors hupdate
    exact ⟨newMonitors, hupdate, (Option.some.inj h).symm⟩
  · cases h

end Steps

/-- The removals of a configuration. -/
theorem run_removes {host : Host} {newMonitors toRemove : List Monitor} :
    ∀ {st : ProcessorState}, st.update = some ⟨toRemove, newMonitors⟩ →
      ∃ st', Lts.run (processorStep host) st (List.replicate toRemove.length .remove) = some st' ∧
        st'.active.1 = st.active.1 \ toRemove.toFinset ∧
        (∀ id, st'.active.2.lookup id =
          if ∃ m ∈ toRemove, m.id = id then none else st.active.2.lookup id) ∧
        st' = { st with active := st'.active, update := some ⟨[], newMonitors⟩ } := by
  induction toRemove with
  | nil =>
      intro st hupdate
      refine ⟨st, rfl, by simp, fun id => by simp, ?_⟩
      rw [← hupdate]
  | cons m toRemove ih =>
      intro st hupdate
      obtain ⟨st', hrun, hmonitors, hstates, heq⟩ := @ih { st with
        active := (st.active.1.erase m, st.active.2.erase m.id)
        update := some ⟨toRemove, newMonitors⟩ } rfl
      refine ⟨st', ?_, ?_, fun id => ?_, heq⟩
      · refine Lts.run_cons.2 ⟨_, ?_, hrun⟩
        simp only [processorStep, hupdate]
      · rw [hmonitors, List.toFinset_cons, Finset.sdiff_insert, Finset.erase_sdiff_comm]
      · rw [hstates]
        by_cases hid : id = m.id
        · subst hid
          simp
        · simp [AList.lookup_erase_ne hid, Ne.symm hid]

/-- **A configuration on its own** does what `updateMonitors` says. -/
theorem run_configuration {host : Host} {newMonitors toRemove : List Monitor}
    {st : ProcessorState} (hupdate : st.update = none)
    (horder : IterationOrder (st.active.1 \ newMonitors.toFinset) toRemove) :
    ∃ st', Lts.run (processorStep host) st (.configure newMonitors toRemove ::
        (List.replicate toRemove.length .remove ++ [.configured])) = some st' ∧
      st'.active.1 = (updateMonitors newMonitors st.active).1 ∧
      (∀ id, st'.active.2.lookup id = (updateMonitors newMonitors st.active).2.lookup id) ∧
      st' = { st with active := st'.active } := by
  obtain ⟨st', hrun, hmonitors, hstates, heq⟩ := @run_removes host newMonitors toRemove
    { st with update := some ⟨toRemove, newMonitors⟩ } rfl
  have hupdate' : st'.update = some ⟨[], newMonitors⟩ := by rw [heq]
  refine ⟨{ st' with
    active := (st'.active.1 ∪ (newMonitors.toFinset \ st'.active.1), st'.active.2)
    update := none }, Lts.run_cons.2 ⟨_, ?_, Lts.run_append.2 ⟨st', hrun, ?_⟩⟩, ?_, fun id => ?_, ?_⟩
  · simp only [processorStep, hupdate, Option.isNone_none, true_and, if_pos horder]
  · simp [processorStep, hupdate', Lts.run]
  · rw [hmonitors, horder.2, updateMonitors]
  · have hmem (m : Monitor) : m ∈ toRemove ↔ m ∈ st.active.1 \ newMonitors.toFinset := by
      rw [← horder.2, List.mem_toFinset]
    rw [hstates]
    simp only [hmem, updateMonitors, AList.lookup_filterKeys, decide_eq_true_eq]
    by_cases hgone : ∃ m ∈ st.active.1 \ newMonitors.toFinset, m.id = id
    · obtain ⟨m, hm, hid⟩ := hgone
      rw [if_pos ⟨m, hm, hid⟩, if_neg fun hkept => hkept m hm hid]
    · rw [if_neg hgone, if_pos fun m hm hid => hgone ⟨m, hm, hid⟩]
  · rw [heq, hupdate]

/-! ### What the passes keep -/

/-- No time that is kept lies after `now`. -/
def NotBefore (now : ℕ) (states : States) : Prop :=
  ∀ id, (∀ t ∈ (stateAt states id).lastReadTime, t ≤ now) ∧
    ∀ t ∈ (stateAt states id).lastSendTime, t ≤ now

theorem notBefore_empty (now : ℕ) : NotBefore now ∅ := by
  intro id
  simp [stateAt, newState]

theorem NotBefore.insert {now : ℕ} {states : States} (hstates : NotBefore now states) {id : String}
    {state : MonitorState} (hread : ∀ t ∈ state.lastReadTime, t ≤ now)
    (hsend : ∀ t ∈ state.lastSendTime, t ≤ now) : NotBefore now (states.insert id state) := by
  intro id'
  by_cases hid : id' = id
  · subst hid
    rw [stateAt, AList.lookup_insert]
    exact ⟨hread, hsend⟩
  · rw [stateAt, AList.lookup_insert_ne hid]
    exact hstates id'

theorem NotBefore.erase {now : ℕ} {states : States} (hstates : NotBefore now states)
    (id : String) : NotBefore now (states.erase id) := by
  intro id'
  by_cases hid : id' = id
  · subst hid
    simp [stateAt, newState]
  · rw [stateAt, AList.lookup_erase_ne hid]
    exact hstates id'

theorem NotBefore.forward {now later : ℕ} {states : States} (hstates : NotBefore now states)
    (hle : now ≤ later) : NotBefore later states := fun id =>
  ⟨fun t ht => ((hstates id).1 t ht).trans hle, fun t ht => ((hstates id).2 t ht).trans hle⟩

/-- What the passes keep: no time lies after the clock, the monitors of a pass have their offset in
their block, and messages are collected by a pass. -/
structure PassInv (st : ProcessorState) : Prop where
  clock : NotBefore st.clock st.active.2
  offsets : ∀ rest ∈ st.pass, ∀ m ∈ rest, m.offset ≤ m.blockSize
  between : st.pass = none → st.collected = []

theorem passInv_watched {active : Finset Monitor × States} {clock : ℕ}
    (hclock : NotBefore clock active.2) : PassInv (watched active clock) where
  clock := hclock
  offsets rest hrest := by cases hrest
  between _ := rfl

/-- **What a step keeps.** -/
theorem PassInv.step {host : Host} {st st' : ProcessorState} {e : ProcessorEvent}
    (hok : Regular st e) (hst : PassInv st) (h : processorStep host st e = some st') :
    PassInv st' := by
  cases e with
  | startPass monitors nowMillis =>
      obtain ⟨-, rfl⟩ := startPass_eq_some h
      refine ⟨hst.clock.forward hok.1, fun rest hrest => ?_, fun hnone => by cases hnone⟩
      rw [Option.mem_some_iff] at hrest
      exact hrest ▸ hok.2
  | trigger plc cache =>
      obtain ⟨monitor, rest, hpass, hcases⟩ := trigger_eq_some h
      have hmonitor := hst.offsets _ hpass monitor List.mem_cons_self
      obtain ⟨hread, hsend⟩ := hst.clock monitor.id
      obtain ⟨turn, post, hturn, rfl⟩ | ⟨state, block, hturn, rfl⟩ := hcases
      · obtain ⟨hread', hsend'⟩ := turn_notAfter hread hsend (monitorTurn_eq_through hturn).1
        refine ⟨hst.clock.insert hread' hsend', fun rest' hrest' m hm => ?_,
          fun hnone => by cases hnone⟩
        rw [afterTurn, Option.mem_some_iff] at hrest'
        exact hst.offsets _ hpass m (List.mem_cons_of_mem _ (hrest' ▸ hm))
      · obtain ⟨-, turn, hok', rfl, rfl⟩ := monitorTurn_eq_panic hmonitor hread hsend hturn
        obtain ⟨hread', hsend'⟩ := turn_notAfter hread hsend hok'
        refine ⟨hst.clock.insert hread' hsend', fun rest hrest => ?_, fun _ => rfl⟩
        cases hrest
  | endPass =>
      obtain ⟨-, rfl⟩ := endPass_eq_some h
      refine ⟨hst.clock, fun rest hrest => ?_, fun _ => rfl⟩
      cases hrest
  | configure newMonitors toRemove =>
      obtain ⟨-, rfl⟩ := configure_eq_some h
      exact ⟨hst.clock, hst.offsets, hst.between⟩
  | remove =>
      obtain ⟨m, toRemove, newMonitors, -, rfl⟩ := remove_eq_some h
      exact ⟨hst.clock.erase m.id, hst.offsets, hst.between⟩
  | configured =>
      obtain ⟨newMonitors, -, rfl⟩ := configured_eq_some h
      exact ⟨hst.clock, hst.offsets, hst.between⟩

/-- All monitors that are active, in a pass, in a configuration under way or in a message are such.
-/
structure AllMonitors (P : Monitor → Prop) (st : ProcessorState) : Prop where
  active : ∀ m ∈ st.active.1, P m
  pass : ∀ rest ∈ st.pass, ∀ m ∈ rest, P m
  update : ∀ u ∈ st.update, ∀ m ∈ u.newMonitors, P m
  made : ∀ m ∈ st.sent ++ st.collected, P m.monitor

theorem allMonitors_watched {P : Monitor → Prop} {active : Finset Monitor × States}
    (hactive : ∀ m ∈ active.1, P m) (clock : ℕ) : AllMonitors P (watched active clock) where
  active := hactive
  pass := by simp [watched]
  update := by simp [watched]
  made := by simp [watched]

/-- **What a step keeps**, when the configurations have such monitors only. -/
theorem AllMonitors.step {P : Monitor → Prop} {host : Host} {st st' : ProcessorState}
    {e : ProcessorEvent}
    (hnew : ∀ newMonitors toRemove, e = .configure newMonitors toRemove → ∀ m ∈ newMonitors, P m)
    (hst : AllMonitors P st) (h : processorStep host st e = some st') : AllMonitors P st' := by
  cases e with
  | startPass monitors nowMillis =>
      obtain ⟨⟨-, -, -, hactive⟩, rfl⟩ := startPass_eq_some h
      refine ⟨hst.active, fun rest hrest m hm => ?_, hst.update, hst.made⟩
      obtain rfl := Option.some.inj hrest
      exact hst.active m (hactive ▸ List.mem_toFinset.2 hm)
  | trigger plc cache =>
      obtain ⟨monitor, rest, hpass, ⟨turn, post, -, rfl⟩ | ⟨state, block, -, rfl⟩⟩ :=
        trigger_eq_some h
      · refine ⟨hst.active, fun rest' hrest' m hm => ?_, hst.update, fun m hm => ?_⟩
        · obtain rfl := Option.some.inj hrest'
          exact hst.pass _ hpass m (List.mem_cons_of_mem _ hm)
        · rw [afterTurn, ← List.append_assoc] at hm
          rcases List.mem_append.1 hm with hm | hm
          · exact hst.made m hm
          · obtain ⟨data, -, rfl⟩ := Option.map_eq_some_iff.1 (Option.mem_toList.1 hm)
            exact hst.pass _ hpass monitor List.mem_cons_self
      · refine ⟨hst.active, by simp [afterPanic], hst.update, fun m hm => hst.made m ?_⟩
        rw [afterPanic, List.append_nil] at hm
        exact List.mem_append_left _ hm
  | endPass =>
      obtain ⟨-, rfl⟩ := endPass_eq_some h
      exact ⟨hst.active, by simp, hst.update, by simpa using hst.made⟩
  | configure newMonitors toRemove =>
      obtain ⟨-, rfl⟩ := configure_eq_some h
      refine ⟨hst.active, hst.pass, fun u hu => ?_, hst.made⟩
      obtain rfl := Option.some.inj hu
      exact hnew _ _ rfl
  | remove =>
      obtain ⟨m, toRemove, newMonitors, hupdate, rfl⟩ := remove_eq_some h
      refine ⟨fun m' hm' => hst.active m' (Finset.mem_of_mem_erase hm'), hst.pass, fun u hu => ?_,
        hst.made⟩
      obtain rfl := Option.some.inj hu
      intro m' hm'
      exact hst.update ⟨m :: toRemove, newMonitors⟩ hupdate m' hm'
  | configured =>
      obtain ⟨newMonitors, hupdate, rfl⟩ := configured_eq_some h
      refine ⟨fun m hm => ?_, hst.pass, by simp, hst.made⟩
      rcases Finset.mem_union.1 hm with hm | hm
      · exact hst.active m hm
      · exact hst.update _ hupdate m (List.mem_toFinset.1 (Finset.mem_sdiff.1 hm).1)

/-! ### What a step does to the log of an id -/

section Log

variable {id : String} {st : ProcessorState} {monitor : Monitor} {rest : List Monitor} {turn : Turn}
  {post : Option LocalPost}

theorem afterTurn_self (hid : monitor.id = id) :
    stateOf (afterTurn st monitor rest turn post) id = turn.state ∧
      readsFor id (afterTurn st monitor rest turn post) = readsFor id st ++
        (turn.block.map fun block => ⟨monitor, st.clock, block⟩).toList ∧
      madeFor id (afterTurn st monitor rest turn post) = madeFor id st ++
        (turn.message.map fun data => ⟨monitor, st.clock, data⟩).toList := by
  subst hid
  refine ⟨by simp [stateOf, stateAt, afterTurn], ?_, ?_⟩
  · cases hblock : turn.block <;> simp [readsFor, afterTurn, hblock]
  · cases hmessage : turn.message <;> simp [madeFor, afterTurn, hmessage]

theorem afterTurn_ne (hid : monitor.id ≠ id) :
    stateOf (afterTurn st monitor rest turn post) id = stateOf st id ∧
      readsFor id (afterTurn st monitor rest turn post) = readsFor id st ∧
      madeFor id (afterTurn st monitor rest turn post) = madeFor id st := by
  refine ⟨by simp [stateOf, stateAt, afterTurn, AList.lookup_insert_ne hid.symm], ?_, ?_⟩
  · cases hblock : turn.block <;> simp [readsFor, afterTurn, hblock, hid]
  · cases hmessage : turn.message <;> simp [madeFor, afterTurn, hmessage, hid]

/-- A turn that panics, for another id that has no message in the pass. -/
theorem afterPanic_ne {state : MonitorState} {block : Option (List UInt8)} (hid : monitor.id ≠ id)
    (hnone : ∀ m ∈ st.collected, m.monitor.id ≠ id) :
    stateOf (afterPanic st monitor state block) id = stateOf st id ∧
      readsFor id (afterPanic st monitor state block) = readsFor id st ∧
      madeFor id (afterPanic st monitor state block) = madeFor id st := by
  refine ⟨by simp [stateOf, stateAt, afterPanic, AList.lookup_insert_ne hid.symm], ?_, ?_⟩
  · cases block <;> simp [readsFor, afterPanic, hid]
  · have hnil : (st.collected.filter fun m => m.monitor.id = id) = [] :=
      List.filter_eq_nil_iff.2 fun m hm => by simpa using hnone m hm
    simp [madeFor, afterPanic, hnil]

end Log

/-! ### Runs -/

/-- The clock may go on. -/
theorem Tracks.forward {clock later : ℕ} {state : MonitorState} {reads : List ReadRecord}
    {messages : List MonitorMessage} (h : Tracks clock state reads messages)
    (hle : clock ≤ later) : Tracks later state reads messages :=
  { h with
    readClock := fun t ht => (h.readClock t ht).trans hle
    sendClock := fun t ht => (h.sendClock t ht).trans hle }

/-- What is kept under an id is what its log ends with. -/
def TracksLog (id : String) (st : ProcessorState) : Prop :=
  Tracks st.clock (stateOf st id) (readsFor id st) (madeFor id st)

/-- The invariant of the processor for an id. -/
structure ProcessorInv (id : String) (st : ProcessorState) : Prop where
  passes : PassInv st
  tracks : TracksLog id st

theorem processorInv_watched {id : String} {active : Finset Monitor × States}
    (hfresh : id ∉ active.2) {clock : ℕ} (hclock : NotBefore clock active.2) :
    ProcessorInv id (watched active clock) where
  passes := passInv_watched hclock
  tracks := by
    have hstate : stateOf (watched active clock) id = newState := by
      rw [stateOf, stateAt, watched, AList.lookup_eq_none.2 hfresh, Option.getD_none]
    rw [TracksLog, hstate]
    exact tracks_newState clock

/-- The clock does not go back, the monitors have their offset in their block, no monitor of the id
is removed, and none of its messages is lost. -/
structure Conforms (id : String) (st : ProcessorState) (e : ProcessorEvent) : Prop where
  regular : Regular st e
  monitors : KeepsMonitors id st e
  messages : KeepsMessages id st e

/-- What a step does to what is kept for an id: nothing, or the turn of a monitor of the id. -/
inductive LogStep (id : String) (st st' : ProcessorState) : Prop
  | quiet (hclock : st.clock ≤ st'.clock) (hstate : stateOf st' id = stateOf st id)
      (hreads : readsFor id st' = readsFor id st) (hmade : madeFor id st' = madeFor id st)
  | turn (plc : S7Read → Option (List UInt8)) (monitor : Monitor) (turn : Turn)
      (hturn : triggerMonitor plc st.clock monitor (stateOf st id) = .ok turn)
      (hclock : st'.clock = st.clock) (hstate : stateOf st' id = turn.state)
      (hreads : readsFor id st' = readsFor id st ++
        (turn.block.map fun block => ⟨monitor, st.clock, block⟩).toList)
      (hmade : madeFor id st' = madeFor id st ++
        (turn.message.map fun data => ⟨monitor, st.clock, data⟩).toList)

section LogSteps

variable {host : Host} {id : String} {st st' : ProcessorState}

/-- A turn that goes through. -/
theorem logStep_afterTurn {plc : S7Read → Option (List UInt8)} {cache : MetaCache}
    {monitor : Monitor} {rest : List Monitor} {turn : Turn} {post : Option LocalPost}
    (hturn : monitorTurn host cache plc st.clock monitor (stateOf st monitor.id) =
      .through turn post) : LogStep id st (afterTurn st monitor rest turn post) := by
  by_cases hid : monitor.id = id
  · obtain ⟨hstate, hreads, hmade⟩ := @afterTurn_self id st monitor rest turn post hid
    have hok := (monitorTurn_eq_through hturn).1
    rw [hid] at hok
    exact .turn plc monitor turn hok rfl hstate hreads hmade
  · obtain ⟨hstate, hreads, hmade⟩ := @afterTurn_ne id st monitor rest turn post hid
    exact .quiet le_rfl hstate hreads hmade

/-- A step that is no turn. -/
theorem logStep_of_ne_trigger {e : ProcessorEvent} (hforward : Forward st e)
    (hkept : KeepsMonitors id st e) (hquiet : ∀ plc cache, e ≠ .trigger plc cache)
    (h : processorStep host st e = some st') : LogStep id st st' := by
  cases e with
  | startPass monitors nowMillis =>
      obtain ⟨-, rfl⟩ := startPass_eq_some h
      exact .quiet hforward rfl rfl rfl
  | trigger plc cache => exact absurd rfl (hquiet plc cache)
  | endPass =>
      obtain ⟨-, rfl⟩ := endPass_eq_some h
      exact .quiet le_rfl rfl rfl (by simp [madeFor])
  | configure newMonitors toRemove =>
      obtain ⟨-, rfl⟩ := configure_eq_some h
      exact .quiet le_rfl rfl rfl rfl
  | remove =>
      obtain ⟨m, toRemove, newMonitors, hupdate, rfl⟩ := remove_eq_some h
      have hid : m.id ≠ id := hkept m (by simp [nextRemoved, hupdate])
      refine .quiet le_rfl ?_ rfl rfl
      rw [stateOf, stateAt, AList.lookup_erase_ne hid.symm]
      rfl
  | configured =>
      obtain ⟨newMonitors, -, rfl⟩ := configured_eq_some h
      exact .quiet le_rfl rfl rfl rfl

/-- **What a step does** to the log of an id. -/
theorem processorStep_log {e : ProcessorEvent} (hok : Conforms id st e) (hst : PassInv st)
    (h : processorStep host st e = some st') : LogStep id st st' := by
  cases e with
  | trigger plc cache =>
      obtain ⟨monitor, rest, hpass, ⟨turn, post, hturn, rfl⟩ | ⟨state, block, hturn, rfl⟩⟩ :=
        trigger_eq_some h
      · exact logStep_afterTurn hturn
      · -- the turn had data to decode, and no message of the id is lost
        have hmonitor := hst.offsets _ hpass monitor List.mem_cons_self
        obtain ⟨hread, hsend⟩ := hst.clock monitor.id
        have hneeds := (monitorTurn_eq_panic hmonitor hread hsend hturn).1
        obtain ⟨hid, hnone⟩ := hok.messages monitor rest hpass hneeds
        obtain ⟨hstate, hreads, hmade⟩ := @afterPanic_ne id st monitor state block hid hnone
        exact .quiet le_rfl hstate hreads hmade
  | startPass | endPass | configure | remove | configured =>
      exact logStep_of_ne_trigger hok.regular.forward hok.monitors (by simp) h

theorem LogStep.tracksLog (h : LogStep id st st') (htracks : TracksLog id st) :
    TracksLog id st' := by
  cases h with
  | quiet hclock hstate hreads hmade =>
      rw [TracksLog, hstate, hreads, hmade]
      exact htracks.forward hclock
  | turn plc monitor turn hturn hclock hstate hreads hmade =>
      rw [TracksLog, hclock, hstate, hreads, hmade]
      exact htracks.turn (triggerMonitor_cases htracks.idle hturn)

/-- **What one step keeps.** -/
theorem processorStep_inv {e : ProcessorEvent} (hok : Conforms id st e) (hst : ProcessorInv id st)
    (h : processorStep host st e = some st') : ProcessorInv id st' :=
  ⟨hst.passes.step hok.regular h, (processorStep_log hok hst.passes h).tracksLog hst.tracks⟩

end LogSteps

/-- What the log of an id says, in a state where the lock of the states is free. -/
structure Faithful (id : String) (st : ProcessorState) : Prop where
  /-- Between two passes, once a block was read that is not empty, the last message carries the last
  block. -/
  reflected : st.pass = none → (∃ r ∈ readsFor id st, r.block ≠ []) →
    ∃ message read, (messagesFor id st).getLast? = some message ∧
      (readsFor id st).getLast? = some read ∧
        message.toMessage.2.get "data" = some (.string (hexEncode read.block))
  paced : (messagesFor id st).IsChain Paced
  spaced : (readsFor id st).IsChain Spaced
  /-- No turn is skipped for a read that is still running. -/
  idle : ∀ state ∈ st.active.2.lookup id, state.running = false

theorem ProcessorInv.faithful {id : String} {st : ProcessorState} (h : ProcessorInv id st) :
    Faithful id st where
  reflected hpass hread := by
    have hmade : madeFor id st = messagesFor id st := by
      rw [madeFor, h.passes.between hpass, List.append_nil, messagesFor]
    have hne : readsFor id st ≠ [] := by
      obtain ⟨r, hr, -⟩ := hread
      exact List.ne_nil_of_mem hr
    have hsent := h.tracks.sentOnce hread
    rw [hmade] at hsent
    have hmessage := List.getLast?_eq_some_getLast hsent
    have hlast := List.getLast?_eq_some_getLast hne
    refine ⟨_, _, hmessage, hlast, ?_⟩
    rw [MonitorMessage.get_data, h.tracks.block _ hlast, h.tracks.data, hmade, hmessage,
      Option.map_some, Option.getD_some]
  paced := by
    have hpaced := h.tracks.paced
    rw [madeFor, List.filter_append] at hpaced
    exact (List.isChain_append.1 hpaced).1
  spaced := h.tracks.spaced
  idle state hstate := by
    have hidle := h.tracks.idle
    rwa [stateOf, stateAt, Option.mem_def.1 hstate, Option.getD_some] at hidle

/-- **Every run** in which no message of the id is lost: the messages of an id that has no state yet
carry every change and are paced, its reads keep their distance, and none of its turns is
skipped. -/
theorem monitor_messages_faithful {host : Host} {id : String} {active : Finset Monitor × States}
    (hfresh : id ∉ active.2) {clock : ℕ} (hclock : NotBefore clock active.2)
    {events : List ProcessorEvent} {st : ProcessorState}
    (hok : Lts.Along (processorStep host) (Conforms id) (watched active clock) events)
    (hrun : Lts.run (processorStep host) (watched active clock) events = some st) :
    Faithful id st :=
  (Lts.run_invariant (fun _ _ _ => processorStep_inv) (processorInv_watched hfresh hclock) hok
    hrun).faithful

/-- A monitor with a type and a local address, of another PLC. -/
def labelMonitor : Monitor :=
  { smallMonitor with
    id := "M2", ip := "10.0.0.2", monitorType := "Label"
    localAddress := "http://127.0.0.1/label" }

/-- Two passes with the same block, more than the resend interval apart; the PLC of the other
monitor does not answer. -/
def twoPasses : List ProcessorEvent :=
  [.startPass [smallMonitor, labelMonitor] 100, .trigger (fun _ => some [1, 2]) ∅,
    .trigger (fun _ => none) ∅, .endPass, .startPass [smallMonitor, labelMonitor] 1200,
    .trigger (fun _ => some [1, 2]) ∅, .trigger (fun _ => none) ∅, .endPass]

theorem monitor_messages_faithful_twoPasses :
    ∃ st, Lts.run (processorStep bareHost) (watched ({smallMonitor, labelMonitor}, ∅) 0)
        twoPasses = some st ∧ Faithful "M1" st := by
  have hpass {st : ProcessorState} {now : ℕ} (hclock : st.clock ≤ now) :
      Conforms "M1" st (.startPass [smallMonitor, labelMonitor] now) :=
    ⟨⟨hclock, by decide⟩, trivial, trivial⟩
  have hok : Lts.Along (processorStep bareHost) (Conforms "M1")
      (watched ({smallMonitor, labelMonitor}, ∅) 0) twoPasses := by
    refine .of_step (hpass (by decide)) rfl <| .of_step ⟨trivial, trivial, ?_⟩ rfl <|
      .of_step ⟨trivial, trivial, ?_⟩ rfl <| .of_step ⟨trivial, trivial, trivial⟩ rfl <|
        .of_step (hpass (by decide)) rfl <| .of_step ⟨trivial, trivial, ?_⟩ rfl <|
          .of_step ⟨trivial, trivial, ?_⟩ rfl <| .of_step ⟨trivial, trivial, trivial⟩ rfl trivial
    · rintro monitor rest ⟨⟩ hneeds
      exact absurd hneeds (by decide)
    · rintro monitor rest ⟨⟩ hneeds
      exact absurd hneeds (by decide)
    · rintro monitor rest ⟨⟩ hneeds
      exact absurd hneeds (by decide)
    · rintro monitor rest ⟨⟩ hneeds
      exact absurd hneeds (by decide)
  obtain ⟨st, hrun⟩ : ∃ st, Lts.run (processorStep bareHost)
      (watched ({smallMonitor, labelMonitor}, ∅) 0) twoPasses = some st := ⟨_, rfl⟩
  exact ⟨st, hrun, monitor_messages_faithful (AList.notMem_empty _) (notBefore_empty 0) hok hrun⟩

/-- **A change is lost**: the pass over the other monitor reads a block, keeps it, and returns no
message, while the clock, the offset and the configuration are as they should be. -/
theorem monitor_message_lost :
    ∃ st, Lts.Along (processorStep bareHost)
        (fun st e => Regular st e ∧ KeepsMonitors "M2" st e) (watched ({labelMonitor}, ∅) 0)
        [.startPass [labelMonitor] 100, .trigger (fun _ => some [1, 2]) ∅] ∧
      Lts.run (processorStep bareHost) (watched ({labelMonitor}, ∅) 0)
        [.startPass [labelMonitor] 100, .trigger (fun _ => some [1, 2]) ∅] = some st ∧
      ¬ Faithful "M2" st := by
  refine ⟨_, .of_step ⟨⟨by decide, by decide⟩, trivial⟩ rfl
    (.of_step ⟨trivial, trivial⟩ rfl trivial), rfl, fun h => ?_⟩
  obtain ⟨message, read, hmessage, -⟩ := h.reflected rfl ⟨_, List.mem_cons_self, by decide⟩
  cases hmessage

end MonitorProcessor

end FillingPilot
