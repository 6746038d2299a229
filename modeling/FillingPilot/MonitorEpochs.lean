/-
**The messages of a monitor across configurations.**

A configuration that takes monitors of an id away, or changes them, drops what is kept under the id
with each of them, and turns may come between.  The law of the messages then begins anew: the first
block that is read is sent, even when it is what the last message before had.  A pass that is under
way goes on with its own monitors, so that the first read may still be one of the monitor that was
taken away.

Main definitions:

* `FillingPilot.MonitorProcessor.FirstSent` — the first message is that of the first block;
* `FillingPilot.MonitorProcessor.EpochLaw` — the law of the reads and messages since a removal.

Main results:

* `FillingPilot.MonitorProcessor.FirstSent.turn` — what a turn keeps;
* `FillingPilot.MonitorProcessor.law_restarts` — **the law begins anew** with each removal.
-/

import FillingPilot.MonitorRuns

set_option relaxedAutoImplicit false
set_option autoImplicit false

namespace FillingPilot

open Json Rust

namespace MonitorProcessor

/-! ### The first message -/

/-- The first message is that of the first block that is not empty. -/
def FirstSent (reads : List ReadRecord) (messages : List MonitorMessage) : Prop :=
  messages.head? =
    (reads.find? fun r => r.block ≠ []).map fun r => ⟨r.monitor, r.time, hexEncode r.block⟩

theorem FirstSent.append {reads : List ReadRecord} {messages : List MonitorMessage}
    (h : FirstSent reads messages) (hne : messages ≠ []) (moreReads : List ReadRecord)
    (moreMessages : List MonitorMessage) :
    FirstSent (reads ++ moreReads) (messages ++ moreMessages) := by
  obtain ⟨m, rest, rfl⟩ := List.exists_cons_of_ne_nil hne
  have hfirst : some m = (reads.find? fun r => r.block ≠ []).map fun r =>
      ⟨r.monitor, r.time, hexEncode r.block⟩ := h
  obtain ⟨r, hr, hm⟩ := Option.map_eq_some_iff.1 hfirst.symm
  rw [FirstSent, List.find?_append, hr]
  simp [hm]

theorem FirstSent.append_nil {reads : List ReadRecord} (h : FirstSent reads [])
    {moreReads : List ReadRecord} {moreMessages : List MonitorMessage}
    (hmore : FirstSent moreReads moreMessages) : FirstSent (reads ++ moreReads) moreMessages := by
  have hnone : (reads.find? fun r => r.block ≠ []) = none := Option.map_eq_none_iff.1 h.symm
  rw [FirstSent, List.find?_append, hnone, Option.none_or]
  exact hmore

section Turn

variable {clock : ℕ} {monitor : Monitor} {state : MonitorState} {reads : List ReadRecord}
  {messages : List MonitorMessage}

/-- The end of a turn sends nothing as long as nothing was sent. -/
theorem Tracks.ending_nil {state' : MonitorState} {block : Option (List UInt8)} {turn : Turn}
    (h : Tracks clock state reads []) (hend : Ending clock monitor state' block turn)
    (hdata : state'.data = state.data) : turn.block = block ∧ turn.message = none := by
  cases hend with
  | quiet => exact ⟨rfl, rfl⟩
  | again t hlast hdue hkept => exact absurd (hdata.trans h.data) hkept

/-- **What a turn keeps.** -/
theorem FirstSent.turn {turn : Turn} (h : FirstSent reads messages)
    (htracks : Tracks clock state reads messages) (hturn : TurnOf clock monitor state turn) :
    FirstSent (reads ++ (turn.block.map fun block => ⟨monitor, clock, block⟩).toList)
      (messages ++ (turn.message.map fun data => ⟨monitor, clock, data⟩).toList) := by
  by_cases hne : messages = []
  · subst hne
    refine h.append_nil ?_
    -- nothing is kept yet
    have hempty : state.data = hexEncode [] := htracks.data
    cases hturn with
    | changed full hdue hdata =>
        have hfull : full ≠ [] := by
          rintro rfl
          exact hdata hempty.symm
        simp [FirstSent, hfull]
    | unchanged full _ hdue hdata hend =>
        have hfull : full = [] := hexEncode_injective (hdata.trans hempty)
        obtain ⟨hblock, hmessage⟩ := htracks.ending_nil hend rfl
        simp [FirstSent, hblock, hmessage, hfull]
    | unread _ hend =>
        obtain ⟨hblock, hmessage⟩ := htracks.ending_nil hend rfl
        simp [FirstSent, hblock, hmessage]
  · exact h.append hne _ _

end Turn

/-! ### The law -/

/-- The reads and messages of an id since a removal. -/
structure EpochLaw (reads : List ReadRecord) (messages : List MonitorMessage) : Prop where
  /-- The first block that is not empty is sent at once. -/
  first : FirstSent reads messages
  /-- The last message carries the last block. -/
  last : messages ≠ [] → messages.getLast?.map MonitorMessage.data =
    reads.getLast?.map fun r => hexEncode r.block
  paced : messages.IsChain Paced
  spaced : reads.IsChain Spaced

theorem Tracks.epochLaw {clock : ℕ} {state : MonitorState} {reads : List ReadRecord}
    {messages : List MonitorMessage} (h : Tracks clock state reads messages)
    (hfirst : FirstSent reads messages) : EpochLaw reads messages where
  first := hfirst
  last hne := by
    have hreads : reads ≠ [] := by
      rintro rfl
      exact hne (List.head?_eq_none_iff.1 hfirst)
    have hmessage := List.getLast?_eq_some_getLast hne
    have hread := List.getLast?_eq_some_getLast hreads
    have hdata := h.data
    rw [hmessage, Option.map_some, Option.getD_some] at hdata
    rw [hmessage, hread, Option.map_some, Option.map_some, h.block _ hread, hdata]
  paced := h.paced
  spaced := h.spaced

/-- What holds of the log of an id since a removal, after the log that there was. -/
structure EpochInv (id : String) (reads₀ : List ReadRecord) (messages₀ : List MonitorMessage)
    (st : ProcessorState) : Prop where
  passes : PassInv st
  log : ∃ reads messages, readsFor id st = reads₀ ++ reads ∧ madeFor id st = messages₀ ++ messages ∧
    Tracks st.clock (stateOf st id) reads messages ∧ FirstSent reads messages

section Epoch

variable {host : Host} {id : String} {st st' : ProcessorState}

/-- Right after a removal. -/
theorem epochInv_remove (hst : PassInv st) (hremoved : ∃ m ∈ nextRemoved st, m.id = id)
    (h : processorStep host st .remove = some st') :
    EpochInv id (readsFor id st) (madeFor id st) st' := by
  have hst' : PassInv st' := hst.step (e := .remove) trivial h
  obtain ⟨m, toRemove, newMonitors, hupdate, rfl⟩ := remove_eq_some h
  obtain ⟨m', hm', rfl⟩ := hremoved
  obtain rfl : m = m' := by simpa [nextRemoved, hupdate] using hm'
  refine ⟨hst', [], [], (List.append_nil _).symm, (List.append_nil _).symm, ?_, rfl⟩
  rw [stateOf, stateAt, AList.lookup_erase, Option.getD_none]
  exact tracks_newState _

/-- **What a step keeps.** -/
theorem EpochInv.step {reads₀ : List ReadRecord} {messages₀ : List MonitorMessage}
    {e : ProcessorEvent} (hok : Conforms id st e) (hst : EpochInv id reads₀ messages₀ st)
    (h : processorStep host st e = some st') : EpochInv id reads₀ messages₀ st' := by
  refine ⟨hst.passes.step hok.regular h, ?_⟩
  obtain ⟨reads, messages, hreads₀, hmade₀, htracks, hfirst⟩ := hst.log
  cases processorStep_log hok hst.passes h with
  | quiet hclock hstate hreads hmade =>
      refine ⟨reads, messages, hreads.trans hreads₀, hmade.trans hmade₀, ?_, hfirst⟩
      rw [hstate]
      exact htracks.forward hclock
  | turn plc monitor turn hturn hclock hstate hreads hmade =>
      have hturnOf := triggerMonitor_cases htracks.idle hturn
      refine ⟨_, _, ?_, ?_, ?_, hfirst.turn htracks hturnOf⟩
      · rw [hreads, hreads₀, List.append_assoc]
      · rw [hmade, hmade₀, List.append_assoc]
      · rw [hclock, hstate]
        exact htracks.turn hturnOf

/-- **The law begins anew** with every removal of a monitor of the id: until the next one, and as
long as no message of the id is lost, the reads and messages since then are those of an id that was
never watched before. -/
theorem law_restarts {active : Finset Monitor × States} {clock : ℕ}
    (hclock : NotBefore clock active.2) {before later : List ProcessorEvent}
    {s s' t : ProcessorState}
    (hbefore : Lts.Along (processorStep host) Regular (watched active clock) before)
    (hrun : Lts.run (processorStep host) (watched active clock) before = some s)
    (hremoved : ∃ m ∈ nextRemoved s, m.id = id) (hremove : processorStep host s .remove = some s')
    (hlater : Lts.Along (processorStep host) (Conforms id) s' later)
    (hrun' : Lts.run (processorStep host) s' later = some t) :
    ∃ reads messages, readsFor id t = readsFor id s ++ reads ∧
      madeFor id t = madeFor id s ++ messages ∧ EpochLaw reads messages := by
  have hpasses : PassInv s :=
    Lts.run_invariant (fun _ _ _ => PassInv.step) (passInv_watched hclock) hbefore hrun
  have hinv : EpochInv id (readsFor id s) (madeFor id s) t :=
    Lts.run_invariant (fun _ _ _ hok hst h => EpochInv.step hok hst h)
      (epochInv_remove hpasses hremoved hremove) hlater hrun'
  obtain ⟨reads, messages, hreads, hmade, htracks, hfirst⟩ := hinv.log
  exact ⟨reads, messages, hreads, hmade, htracks.epochLaw hfirst⟩

end Epoch

/-- The same block, watched at another frequency. -/
def slowerMonitor : Monitor := { smallMonitor with frequency := 60 }

/-- One pass, which reads the block of one monitor. -/
def singlePass (monitor : Monitor) (nowMillis : ℕ) : List ProcessorEvent :=
  [.startPass [monitor] nowMillis, .trigger (fun _ => some [1, 2]) ∅, .endPass]

/-- The same block is sent again, long before it would be resent. -/
theorem law_restarts_slower :
    ∃ s s' t, Lts.run (processorStep bareHost) (watched ({smallMonitor}, ∅) 0)
        (singlePass smallMonitor 100 ++ [.configure [slowerMonitor] [smallMonitor]]) = some s ∧
      processorStep bareHost s .remove = some s' ∧
      Lts.run (processorStep bareHost) s' (.configured :: singlePass slowerMonitor 200) = some t ∧
      (madeFor "M1" t).length = 2 ∧
      ∃ reads messages, readsFor "M1" t = readsFor "M1" s ++ reads ∧
        madeFor "M1" t = madeFor "M1" s ++ messages ∧ EpochLaw reads messages := by
  have hpass {st : ProcessorState} {monitor : Monitor} {now : ℕ} (hclock : st.clock ≤ now)
      (hmonitor : monitor.offset ≤ monitor.blockSize) : Regular st (.startPass [monitor] now) :=
    ⟨hclock, by simpa using hmonitor⟩
  have hbefore : Lts.Along (processorStep bareHost) Regular (watched ({smallMonitor}, ∅) 0)
      (singlePass smallMonitor 100 ++ [.configure [slowerMonitor] [smallMonitor]]) :=
    .of_step (hpass (by decide) (by decide)) rfl <| .of_step trivial rfl <| .of_step trivial rfl <|
      .of_step trivial rfl trivial
  refine ⟨_, _, _, rfl, rfl, rfl, rfl, law_restarts (notBefore_empty 0) hbefore rfl
    ⟨smallMonitor, rfl, rfl⟩ rfl
    (?_ : Lts.Along _ _ _ (.configured :: singlePass slowerMonitor 200)) rfl⟩
  refine .of_step ⟨trivial, trivial, trivial⟩ rfl <|
    .of_step ⟨hpass (by decide) (by decide), trivial, trivial⟩ rfl <|
      .of_step ⟨trivial, trivial, ?_⟩ rfl <| .of_step ⟨trivial, trivial, trivial⟩ rfl trivial
  rintro monitor rest ⟨⟩ hneeds
  exact absurd hneeds (by decide)

end MonitorProcessor

end FillingPilot
