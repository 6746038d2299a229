/-
**One pass over the monitors.**

A pass takes the active monitors out of a hash set, in whatever order the set yields them, and lets
each of them have its turn on the states that are kept under the ids.  A turn reads and writes no
state but the one of its own id, so that the order shows neither in the states nor, up to their
order, in the messages, as long as every turn goes through.  A turn that panics ends the pass: it
returns no messages, and the states are those that the turns before it have left.

Main definitions:

* `FillingPilot.MonitorProcessor.triggerMonitorsDirect` — a pass: the states, the requests, and the
  messages if it returns.

Main results:

* `FillingPilot.MonitorProcessor.triggerMonitorsDirect_eq` — **what a pass comes to**: the turn of
  every monitor on the state that was kept before the pass;
* `FillingPilot.MonitorProcessor.run_triggers`,
  `FillingPilot.MonitorProcessor.run_triggers_panic` — a pass is a run of the processor's steps;
* `FillingPilot.MonitorProcessor.triggerMonitorsDirect_perm_iff` — **when the order does not
  matter**.
-/

import FillingPilot.MonitorRuns
import Mathlib.Data.Finset.Dedup

set_option relaxedAutoImplicit false
set_option autoImplicit false

namespace FillingPilot

open Json Rust

namespace MonitorProcessor

/-! ### The pass -/

/-- The messages of a turn. -/
def messagesOf (monitor : Monitor) (turn : Turn) : List (String × Value) :=
  (turn.message.map fun data => ("monitorStatus", buildMonitorMessage monitor data)).toList

/-- What a pass leaves: the states, the requests that it has made, and its messages. -/
structure PassResult where
  states : States
  posts : List LocalPost
  messages : Outcome (List (String × Value))

section Pass

variable (host : Host) (cache : MetaCache) (answer : Monitor → Option (List UInt8)) (now : ℕ)

/-- The turns of the monitors, one after the other, up to one that panics: `answer` is the outcome
of the read of a monitor, with `none` for an error. -/
def triggerAll : List Monitor → States → List LocalPost → List (String × Value) → PassResult
  | [], states, posts, messages => ⟨states, posts, .ok messages⟩
  | monitor :: monitors, states, posts, messages =>
      match monitorTurn host cache (fun _ => answer monitor) now monitor
        (stateAt states monitor.id) with
      | .through turn post =>
          triggerAll monitors (states.insert monitor.id turn.state) (posts ++ post.toList)
            (messages ++ messagesOf monitor turn)
      | .panic state _ => ⟨states.insert monitor.id state, posts, .panic⟩

/-- `MonitorProcessor::trigger_monitors_direct`: the turns of the monitors, in the order of the
set's iteration. -/
def triggerMonitorsDirect (monitors : List Monitor) (states : States) : PassResult :=
  triggerAll host cache answer now monitors states [] []

/-- The turns of a list of monitors go through on some states, with the results `turnOf`. -/
def HasTurns (states : States) (turnOf : Monitor → Turn × Option LocalPost)
    (monitors : List Monitor) : Prop :=
  ∀ m ∈ monitors, monitorTurn host cache (fun _ => answer m) now m (stateAt states m.id) =
    .through (turnOf m).1 (turnOf m).2

end Pass

section Turns

variable {host : Host} {cache : MetaCache} {answer : Monitor → Option (List UInt8)} {now : ℕ}
  {turnOf : Monitor → Turn × Option LocalPost}

theorem HasTurns.insert {states : States} {monitors : List Monitor}
    (h : HasTurns host cache answer now states turnOf monitors) {id : String}
    (hid : id ∉ monitors.map Monitor.id) (state : MonitorState) :
    HasTurns host cache answer now (states.insert id state) turnOf monitors := by
  intro m hm
  have hne : m.id ≠ id := fun heq => hid (heq ▸ List.mem_map_of_mem hm)
  rw [stateAt, AList.lookup_insert_ne hne]
  exact h m hm

/-- The turns of a pass, from some messages on. -/
theorem triggerAll_eq {monitors : List Monitor} :
    ∀ {states : States} {posts : List LocalPost} {messages : List (String × Value)},
      (monitors.map Monitor.id).Nodup → HasTurns host cache answer now states turnOf monitors →
      triggerAll host cache answer now monitors states posts messages =
        ⟨states.insertPairs (monitors.map fun m => (m.id, (turnOf m).1.state)),
          posts ++ monitors.flatMap fun m => (turnOf m).2.toList,
          .ok (messages ++ monitors.flatMap fun m => messagesOf m (turnOf m).1)⟩ := by
  induction monitors with
  | nil =>
      intro states posts messages _ _
      simp [triggerAll, AList.insertPairs]
  | cons monitor monitors ih =>
      intro states posts messages hids hturns
      rw [List.map_cons, List.nodup_cons] at hids
      have hturn := hturns monitor List.mem_cons_self
      have hrest : HasTurns host cache answer now states turnOf monitors := fun m hm =>
        hturns m (List.mem_cons_of_mem _ hm)
      rw [triggerAll, hturn]
      dsimp only
      rw [ih hids.2 (hrest.insert hids.1 _), List.flatMap_cons, List.flatMap_cons,
        List.append_assoc, List.append_assoc]
      rfl

/-- **What a pass comes to**: the turn of every monitor on the state that was kept before the
pass. -/
theorem triggerMonitorsDirect_eq {monitors : List Monitor} {states : States}
    (hids : (monitors.map Monitor.id).Nodup)
    (hturns : HasTurns host cache answer now states turnOf monitors) :
    triggerMonitorsDirect host cache answer now monitors states =
      ⟨states.insertPairs (monitors.map fun m => (m.id, (turnOf m).1.state)),
        monitors.flatMap fun m => (turnOf m).2.toList,
        .ok (monitors.flatMap fun m => messagesOf m (turnOf m).1)⟩ :=
  triggerAll_eq hids hturns

theorem exists_through_of_ok {monitors : List Monitor} :
    ∀ {states : States} {posts : List LocalPost} {messages sent : List (String × Value)},
      (monitors.map Monitor.id).Nodup →
      (triggerAll host cache answer now monitors states posts messages).messages = .ok sent →
      ∀ m ∈ monitors, ∃ turn post, monitorTurn host cache (fun _ => answer m) now m
        (stateAt states m.id) = .through turn post := by
  induction monitors with
  | nil => intro _ _ _ _ _ _ m hm; cases hm
  | cons monitor monitors ih =>
      intro states posts messages sent hids h
      rw [List.map_cons, List.nodup_cons] at hids
      rw [triggerAll] at h
      split at h
      · rename_i turn post hturn
        intro m hm
        rcases List.mem_cons.1 hm with rfl | hm
        · exact ⟨turn, post, hturn⟩
        · have hne : m.id ≠ monitor.id := fun heq => hids.1 (heq ▸ List.mem_map_of_mem hm)
          have hrest := ih hids.2 h m hm
          rwa [stateAt, AList.lookup_insert_ne hne] at hrest
      · cases h

/-- The turns of monitors without data to decode go through. -/
theorem exists_hasTurns {states : States} (hclock : NotBefore now states) {monitors : List Monitor}
    (hoffset : ∀ m ∈ monitors, m.offset ≤ m.blockSize)
    (hneeds : ∀ m ∈ monitors,
      ¬ NeedsDecoding (fun _ => answer m) now m (stateAt states m.id)) :
    ∃ turnOf, HasTurns host cache answer now states turnOf monitors := by
  have hturn : ∀ m, ∃ turn : Turn × Option LocalPost, m ∈ monitors →
      monitorTurn host cache (fun _ => answer m) now m (stateAt states m.id) =
        .through turn.1 turn.2 := by
    intro m
    by_cases hm : m ∈ monitors
    · obtain ⟨turn, post, h⟩ := (monitorTurn_through_iff (hoffset m hm) (hclock m.id).1
        (hclock m.id).2).2 (hneeds m hm)
      exact ⟨(turn, post), fun _ => h⟩
    · exact ⟨(⟨newState, none, none⟩, none), fun h => absurd h hm⟩
  choose turnOf hturns using hturn
  exact ⟨turnOf, hturns⟩

end Turns

/-! ### The pass as a run -/

/-- A pass is the run of the turns of its monitors, as the processor's steps have them. -/
theorem run_triggers {host : Host} {cache : MetaCache} {answer : Monitor → Option (List UInt8)}
    {monitors : List Monitor} :
    ∀ {st : ProcessorState} {messages sent : List (String × Value)}, st.pass = some monitors →
      (triggerAll host cache answer st.clock monitors st.active.2 st.posts messages).messages =
        .ok sent →
      ∃ st', Lts.run (processorStep host) st
          (monitors.map fun m => .trigger (fun _ => answer m) cache) = some st' ∧
        st'.pass = some [] ∧
        (triggerAll host cache answer st.clock monitors st.active.2 st.posts messages).states =
          st'.active.2 ∧
        (triggerAll host cache answer st.clock monitors st.active.2 st.posts messages).posts =
          st'.posts ∧
        ∃ made, st'.collected = st.collected ++ made ∧
          sent = messages ++ made.map MonitorMessage.toMessage := by
  induction monitors with
  | nil =>
      intro st messages sent hpass h
      cases h
      exact ⟨st, rfl, hpass, rfl, rfl, [], by simp, by simp⟩
  | cons monitor monitors ih =>
      intro st messages sent hpass h
      rw [triggerAll] at h ⊢
      split at h
      · rename_i turn post hturn
        obtain ⟨st', hrun, hdone, hstates, hposts, made, hmade, hsent⟩ :=
          @ih (afterTurn st monitor monitors turn post) _ sent rfl h
        let first : List MonitorMessage :=
          (turn.message.map fun data => MonitorMessage.mk monitor st.clock data).toList
        refine ⟨st', Lts.run_cons.2 ⟨_, ?_, hrun⟩, hdone, hstates, hposts, first ++ made, ?_, ?_⟩
        · simp only [processorStep, hpass]
          rw [show stateOf st monitor.id = stateAt st.active.2 monitor.id from rfl, hturn]
        · rw [hmade, ← List.append_assoc]
          rfl
        · have hfirst : messagesOf monitor turn = first.map MonitorMessage.toMessage := by
            simp only [messagesOf, first]
            cases turn.message <;> rfl
          rw [hsent, hfirst, List.append_assoc, List.map_append]
      · cases h

/-- A pass that panics is the run of its turns up to the one that does. -/
theorem run_triggers_panic {host : Host} {cache : MetaCache}
    {answer : Monitor → Option (List UInt8)} {monitors : List Monitor} :
    ∀ {st : ProcessorState} {messages : List (String × Value)}, st.pass = some monitors →
      (triggerAll host cache answer st.clock monitors st.active.2 st.posts messages).messages =
        .panic →
      ∃ k st', Lts.run (processorStep host) st
          ((monitors.take k).map fun m => .trigger (fun _ => answer m) cache) = some st' ∧
        st'.pass = none ∧ st'.collected = [] ∧
        (triggerAll host cache answer st.clock monitors st.active.2 st.posts messages).states =
          st'.active.2 := by
  induction monitors with
  | nil => intro st messages _ h; cases h
  | cons monitor monitors ih =>
      intro st messages hpass h
      rw [triggerAll] at h ⊢
      split at h
      · rename_i turn post hturn
        obtain ⟨k, st', hrun, hpass', hnil, hstates⟩ :=
          @ih (afterTurn st monitor monitors turn post) _ rfl h
        refine ⟨k + 1, st', Lts.run_cons.2 ⟨_, ?_, hrun⟩, hpass', hnil, hstates⟩
        simp only [processorStep, hpass]
        rw [show stateOf st monitor.id = stateAt st.active.2 monitor.id from rfl, hturn]
      · rename_i state block hturn
        refine ⟨1, afterPanic st monitor state block, Lts.run_cons.2 ⟨_, ?_, rfl⟩, rfl, rfl, rfl⟩
        simp only [processorStep, hpass]
        rw [show stateOf st monitor.id = stateAt st.active.2 monitor.id from rfl, hturn]

/-! ### The order of a pass -/

/-- Two passes return the same messages, up to their order, and leave the same states. -/
def SamePass (r r' : PassResult) : Prop :=
  ∃ messages messages', r.messages = .ok messages ∧ r'.messages = .ok messages' ∧
    messages.Perm messages' ∧ ∀ id, r.states.lookup id = r'.states.lookup id

/-- **When the order does not matter**: the passes over the same monitors, with distinct ids and
their offsets in their blocks, and with the same answers, all return the same messages up to their
order and leave the same states exactly when no monitor has data to send that has to be decoded. -/
theorem triggerMonitorsDirect_perm_iff (host : Host) (cache : MetaCache)
    {monitors : Finset Monitor}
    (hids : ∀ m ∈ monitors, ∀ m' ∈ monitors, m.id = m'.id → m = m')
    (hoffset : ∀ m ∈ monitors, m.offset ≤ m.blockSize) {states : States} {now : ℕ}
    (hclock : NotBefore now states) (answer : Monitor → Option (List UInt8)) :
    (∀ order order', IterationOrder monitors order → IterationOrder monitors order' →
      SamePass (triggerMonitorsDirect host cache answer now order states)
        (triggerMonitorsDirect host cache answer now order' states)) ↔
      ∀ m ∈ monitors, ¬ NeedsDecoding (fun _ => answer m) now m (stateAt states m.id) := by
  have hmem {order : List Monitor} (horder : IterationOrder monitors order) (m : Monitor) :
      m ∈ order ↔ m ∈ monitors := by
    rw [← horder.2, List.mem_toFinset]
  have hnodup {order : List Monitor} (horder : IterationOrder monitors order) :
      (order.map Monitor.id).Nodup :=
    horder.1.map_on fun m hm m' hm' => hids m ((hmem horder m).1 hm) m' ((hmem horder m').1 hm')
  constructor
  · intro hsame m hm
    have horder : IterationOrder monitors monitors.toList :=
      ⟨monitors.nodup_toList, monitors.toList_toFinset⟩
    obtain ⟨messages, -, hok, -⟩ := hsame _ _ horder horder
    exact (monitorTurn_through_iff (hoffset m hm) (hclock m.id).1 (hclock m.id).2).1
      (exists_through_of_ok (hnodup horder) hok m (Finset.mem_toList.2 hm))
  · intro hneeds order order' horder horder'
    have hperm : order.Perm order' :=
      List.perm_of_nodup_nodup_toFinset_eq horder.1 horder'.1 (horder.2.trans horder'.2.symm)
    obtain ⟨turnOf, hturns⟩ : ∃ turnOf, HasTurns host cache answer now states turnOf order :=
      exists_hasTurns hclock (fun m hm => hoffset m ((hmem horder m).1 hm)) fun m hm =>
        hneeds m ((hmem horder m).1 hm)
    have hturns' : HasTurns host cache answer now states turnOf order' := fun m hm =>
      hturns m (hperm.mem_iff.2 hm)
    rw [triggerMonitorsDirect_eq (hnodup horder) hturns,
      triggerMonitorsDirect_eq (hnodup horder') hturns']
    refine ⟨_, _, rfl, rfl, hperm.flatMap_right _, fun id => ?_⟩
    refine AList.lookup_insertPairs_perm (hperm.map _) ?_ states id
    simpa only [List.map_map, Function.comp_def] using hnodup horder

/-- Two monitors of which only the first can be read. -/
theorem triggerMonitorsDirect_perm_iff_two :
    SamePass
      (triggerMonitorsDirect bareHost ∅ (fun m => if m.id = "M1" then some [7, 8] else none) 100
        [smallMonitor, labelMonitor] ∅)
      (triggerMonitorsDirect bareHost ∅ (fun m => if m.id = "M1" then some [7, 8] else none) 100
        [labelMonitor, smallMonitor] ∅) := by
  have horder : IterationOrder {smallMonitor, labelMonitor} [smallMonitor, labelMonitor] := by
    decide
  have horder' : IterationOrder {smallMonitor, labelMonitor} [labelMonitor, smallMonitor] := by
    decide
  exact (triggerMonitorsDirect_perm_iff bareHost ∅ (by decide) (by decide) (notBefore_empty 100)
    _).2 (by decide) _ _ horder horder'

/-- **The order matters**: when both can be read, the pass that begins with the first monitor keeps
its block, and the one that begins with the other monitor does not; neither returns. -/
theorem triggerMonitorsDirect_order_matters :
    IterationOrder {smallMonitor, labelMonitor} [smallMonitor, labelMonitor] ∧
      IterationOrder {smallMonitor, labelMonitor} [labelMonitor, smallMonitor] ∧
      ¬ SamePass
        (triggerMonitorsDirect bareHost ∅ (fun _ => some [7, 8]) 100 [smallMonitor, labelMonitor] ∅)
        (triggerMonitorsDirect bareHost ∅ (fun _ => some [7, 8]) 100
          [labelMonitor, smallMonitor] ∅) ∧
      ((triggerMonitorsDirect bareHost ∅ (fun _ => some [7, 8]) 100
        [smallMonitor, labelMonitor] ∅).states.lookup "M1").isSome = true ∧
      (triggerMonitorsDirect bareHost ∅ (fun _ => some [7, 8]) 100
        [labelMonitor, smallMonitor] ∅).states.lookup "M1" = none := by
  refine ⟨by decide, by decide, ?_, rfl, rfl⟩
  rintro ⟨messages, messages', h, -⟩
  cases h

end MonitorProcessor

end FillingPilot
