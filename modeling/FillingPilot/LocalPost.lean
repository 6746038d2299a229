/-
**The monitor loop and the local side.**

The loop goes through the monitors in a task.  Its requests are answered by local servers, and an
answer may ask for deployments.  Where a monitor has a type and a local address, the turn that first
has something to send panics, and with it the task ends: nothing is triggered any more.

Main definitions:

* `FillingPilot.MonitorProcessor.LocalState`, `FillingPilot.MonitorProcessor.localStep` — the loop,
  the requests under way, and the answers;
* `FillingPilot.MonitorProcessor.LocalSide` — what reaches the local side and the PLCs;
* `FillingPilot.MonitorProcessor.Plain` — a monitor whose turns go through.

Main results:

* `FillingPilot.MonitorProcessor.local_requests` — **what reaches the local side and the PLCs** in
  every run: requests without decoded fields, and no write;
* `FillingPilot.MonitorProcessor.typed_block_ends_loop` — **a block of such a monitor ends the
  loop**;
* `FillingPilot.MonitorProcessor.loop_lives` — without such monitors **the loop lives**.
-/

import FillingPilot.MetaRuns
import FillingPilot.MonitorRuns

set_option relaxedAutoImplicit false
set_option autoImplicit false

namespace FillingPilot

open Json Rust

namespace MonitorProcessor

/-! ### The loop -/

/-- The processor, whether the task of its loop is alive, what else it looks at, and the writes that
were made. -/
structure LocalState where
  processor : ProcessorState
  alive : Bool
  cache : MetaCache
  fillStations : AList fun _ : String => String × UInt16
  writes : List PlcWrite

inductive LocalEvent
  /-- The next monitor of the pass has its turn. -/
  | turn (plc : S7Read → Option (List UInt8))
  /-- Another step of the processor. -/
  | processor (e : ProcessorEvent)
  | saveMeta (plcInfo : List Value)
  | updateFillStations (stations : List (String × String × UInt16))
  /-- A request is answered; the answers are those of the PLCs to what the callback writes. -/
  | answer (i : ℕ) (result : String) (answers : ℕ → WriteAnswer)
  /-- A request fails. -/
  | noAnswer (i : ℕ)

section Steps

variable (host : Host) (fromStr : String → Option Value)

/-- One step: passes and turns need the task of the loop, which ends when a turn panics. -/
def localStep (st : LocalState) : LocalEvent → Option LocalState
  | .turn plc =>
      if st.alive then
        (processorStep host st.processor (.trigger plc st.cache)).map fun p =>
          { st with processor := p, alive := p.pass.isSome }
      else none
  | .processor e =>
      match e with
      | .trigger _ _ => none
      | .startPass _ _ | .endPass =>
          if st.alive then (processorStep host st.processor e).map fun p => { st with processor := p }
          else none
      | .configure _ _ | .remove | .configured =>
          (processorStep host st.processor e).map fun p => { st with processor := p }
  | .saveMeta plcInfo => some { st with cache := st.cache.saveMeta plcInfo }
  | .updateFillStations stations =>
      some { st with fillStations := st.fillStations.insertPairs stations }
  | .answer i result answers =>
      st.processor.posts[i]?.map fun post => { st with
        processor := { st.processor with posts := st.processor.posts.eraseIdx i }
        writes := st.writes ++ (tryCallBack .task host fromStr st.cache st.fillStations answers
          (some post.monitor.ip) (some post.monitor.port) result).1 }
  | .noAnswer i =>
      st.processor.posts[i]?.map fun _ => { st with
        processor := { st.processor with posts := st.processor.posts.eraseIdx i } }

end Steps

/-- A device on which no monitor was triggered yet. -/
def localStart (active : Finset Monitor) (clock : ℕ) (cache : MetaCache)
    (fillStations : AList fun _ : String => String × UInt16) : LocalState :=
  ⟨watched (active, ∅) clock, true, cache, fillStations, []⟩

/-! ### Texts -/

/-- The data kept under every id is a hexadecimal text. -/
def HexKept (st : ProcessorState) : Prop := ∀ id, ∃ bytes, (stateOf st id).data = hexEncode bytes

/-- A turn that panics before its request keeps the data. -/
theorem stateAtPanic_data (plc : S7Read → Option (List UInt8)) (now : ℕ) (monitor : Monitor)
    (state : MonitorState) : (stateAtPanic plc now monitor state).data = state.data := by
  rw [stateAtPanic]
  split
  · split
    · split
      · rfl
      · rfl
    · rfl
  · rfl

theorem monitorTurn_panic_hex {host : Host} {cache : MetaCache}
    {plc : S7Read → Option (List UInt8)} {now : ℕ} {monitor : Monitor}
    {state state' : MonitorState} {block : Option (List UInt8)}
    (hstate : ∃ bytes, state.data = hexEncode bytes)
    (h : monitorTurn host cache plc now monitor state = .panic state' block) :
    ∃ bytes, state'.data = hexEncode bytes := by
  rw [monitorTurn] at h
  split at h
  · rename_i turn hturn
    split at h
    · cases h
    · cases h
      exact (turn_hex hstate hturn).1
  · cases h
    rw [stateAtPanic_data]
    exact hstate

theorem HexKept.insert {st : ProcessorState} (hst : HexKept st) {id : String}
    {state : MonitorState} (hstate : ∃ bytes, state.data = hexEncode bytes) (id' : String) :
    ∃ bytes, (stateAt (st.active.2.insert id state) id').data = hexEncode bytes := by
  by_cases hid : id' = id
  · subst hid
    rw [stateAt, AList.lookup_insert]
    exact hstate
  · rw [stateAt, AList.lookup_insert_ne hid]
    exact hst id'

/-! ### Steps -/

section Invariant

variable {host : Host} {fromStr : String → Option Value}

/-- **What a step can do**: a turn of the loop, another step of the processor, or one that leaves
the processor as it is but for requests that are done, and makes no write. -/
theorem localStep_cases {st st' : LocalState} {e : LocalEvent}
    (h : localStep host fromStr st e = some st') :
    (∃ plc p, e = .turn plc ∧ st.alive = true ∧
      processorStep host st.processor (.trigger plc st.cache) = some p ∧
        st' = { st with processor := p, alive := p.pass.isSome }) ∨
    (∃ e' p, e = .processor e' ∧ (∀ plc cache, e' ≠ .trigger plc cache) ∧
      processorStep host st.processor e' = some p ∧ st' = { st with processor := p }) ∨
    ∃ posts, (∀ p ∈ posts, p ∈ st.processor.posts) ∧ (∀ e', e ≠ .processor e') ∧
      st'.processor = { st.processor with posts := posts } ∧ st'.alive = st.alive ∧
        st'.writes = st.writes := by
  have herase (i : ℕ) : ∀ p ∈ st.processor.posts.eraseIdx i, p ∈ st.processor.posts :=
    fun p hp => List.mem_of_mem_eraseIdx hp
  cases e with
  | turn plc =>
      simp only [localStep] at h
      split_ifs at h with halive
      obtain ⟨p, hp, rfl⟩ := Option.map_eq_some_iff.1 h
      exact Or.inl ⟨plc, p, rfl, halive, hp, rfl⟩
  | processor e =>
      refine Or.inr (Or.inl ?_)
      cases e with
      | trigger plc cache => cases h
      | startPass | endPass =>
          simp only [localStep] at h
          split_ifs at h
          obtain ⟨p, hp, rfl⟩ := Option.map_eq_some_iff.1 h
          exact ⟨_, p, rfl, by simp, hp, rfl⟩
      | configure | remove | configured =>
          obtain ⟨p, hp, rfl⟩ := Option.map_eq_some_iff.1 h
          exact ⟨_, p, rfl, by simp, hp, rfl⟩
  | saveMeta plcInfo =>
      cases h
      exact Or.inr (Or.inr ⟨_, fun _ hp => hp, by simp, rfl, rfl, rfl⟩)
  | updateFillStations stations =>
      cases h
      exact Or.inr (Or.inr ⟨_, fun _ hp => hp, by simp, rfl, rfl, rfl⟩)
  | answer i result answers =>
      obtain ⟨post, -, rfl⟩ := Option.map_eq_some_iff.1 h
      refine Or.inr (Or.inr ⟨_, herase i, by simp, rfl, rfl, ?_⟩)
      rw [tryCallBack_task, List.append_nil]
  | noAnswer i =>
      obtain ⟨post, -, rfl⟩ := Option.map_eq_some_iff.1 h
      exact Or.inr (Or.inr ⟨_, herase i, by simp, rfl, rfl, rfl⟩)

/-- What reaches the cloud, the local side and the PLCs: no message of a monitor that decodes, no
request with decoded fields, and no write. -/
structure LocalSide (st : LocalState) : Prop where
  sent : ∀ m ∈ st.processor.sent, ¬ m.monitor.Decodes
  posts : ∀ p ∈ st.processor.posts, Undecoded p
  writes : st.writes = []

/-- What the processor keeps: hexadecimal texts, no message of a monitor that decodes, and no
request with decoded fields. -/
structure PlainSide (st : ProcessorState) : Prop where
  hex : HexKept st
  made : ∀ m ∈ st.sent ++ st.collected, ¬ m.monitor.Decodes
  posts : ∀ p ∈ st.posts, Undecoded p

/-- **What a step of the processor keeps.** -/
theorem PlainSide.step {st st' : ProcessorState} {e : ProcessorEvent} (hst : PlainSide st)
    (h : processorStep host st e = some st') : PlainSide st' := by
  cases e with
  | startPass monitors nowMillis =>
      obtain ⟨-, rfl⟩ := startPass_eq_some h
      exact ⟨hst.hex, hst.made, hst.posts⟩
  | trigger plc cache =>
      obtain ⟨monitor, rest, -, ⟨turn, post, hturn, rfl⟩ | ⟨state, block, hturn, rfl⟩⟩ :=
        trigger_eq_some h
      · obtain ⟨hok, hpost⟩ := monitorTurn_eq_through hturn
        obtain ⟨hkept, hmessage⟩ := turn_hex (hst.hex monitor.id) hok
        obtain ⟨hsent, hposts⟩ := postOfTurn_task_ok hmessage hpost
        refine ⟨hst.hex.insert hkept, fun m hm => ?_, fun p hp => ?_⟩
        · rw [afterTurn, ← List.append_assoc] at hm
          rcases List.mem_append.1 hm with hm | hm
          · exact hst.made m hm
          · obtain ⟨data, hdata, rfl⟩ := Option.map_eq_some_iff.1 (Option.mem_toList.1 hm)
            exact hsent (by simp [hdata])
        · rcases List.mem_append.1 hp with hp | hp
          · exact hst.posts p hp
          · exact hposts p (Option.mem_toList.1 hp)
      · refine ⟨hst.hex.insert (monitorTurn_panic_hex (hst.hex monitor.id) hturn), fun m hm => ?_,
          hst.posts⟩
        rw [afterPanic, List.append_nil] at hm
        exact hst.made m (List.mem_append_left _ hm)
  | endPass =>
      obtain ⟨-, rfl⟩ := endPass_eq_some h
      exact ⟨hst.hex, by simpa using hst.made, hst.posts⟩
  | configure newMonitors toRemove =>
      obtain ⟨-, rfl⟩ := configure_eq_some h
      exact ⟨hst.hex, hst.made, hst.posts⟩
  | remove =>
      obtain ⟨m, toRemove, newMonitors, -, rfl⟩ := remove_eq_some h
      refine ⟨fun id => ?_, hst.made, hst.posts⟩
      by_cases hid : id = m.id
      · subst hid
        exact ⟨[], by simp [stateOf, stateAt, newState, hexEncode]⟩
      · rw [stateOf, stateAt, AList.lookup_erase_ne hid]
        exact hst.hex id
  | configured =>
      obtain ⟨newMonitors, -, rfl⟩ := configured_eq_some h
      exact ⟨hst.hex, hst.made, hst.posts⟩

/-- **What the loop keeps.** -/
structure LocalInv (st : LocalState) : Prop where
  plain : PlainSide st.processor
  writes : st.writes = []

theorem LocalInv.side {st : LocalState} (h : LocalInv st) : LocalSide st where
  sent m hm := h.plain.made m (List.mem_append_left _ hm)
  posts := h.plain.posts
  writes := h.writes

theorem localInv_start (active : Finset Monitor) (clock : ℕ) (cache : MetaCache)
    (fillStations : AList fun _ : String => String × UInt16) :
    LocalInv (localStart active clock cache fillStations) where
  plain := ⟨fun _ => ⟨[], rfl⟩, by simp [localStart, watched], by simp [localStart, watched]⟩
  writes := rfl

/-- **What a step keeps.** -/
theorem localStep_inv {st st' : LocalState} {e : LocalEvent} (hst : LocalInv st)
    (h : localStep host fromStr st e = some st') : LocalInv st' := by
  obtain ⟨plc, p, -, -, hp, rfl⟩ | ⟨e', p, -, -, hp, rfl⟩ |
    ⟨posts, hposts, -, hprocessor, -, hwrites⟩ := localStep_cases h
  · exact ⟨hst.plain.step hp, hst.writes⟩
  · exact ⟨hst.plain.step hp, hst.writes⟩
  · refine ⟨?_, hwrites.trans hst.writes⟩
    rw [hprocessor]
    exact ⟨hst.plain.hex, hst.plain.made, fun p hp => hst.plain.posts p (hposts p hp)⟩

/-- **What reaches the local side and the PLCs**: in every state of every run, each request under
way was made for a monitor without a type and has the members that every request has, no data of a
monitor that decodes was sent, and no callback has written to a PLC. -/
theorem local_requests (host : Host) (fromStr : String → Option Value) (active : Finset Monitor)
    (clock : ℕ) (cache : MetaCache) (fillStations : AList fun _ : String => String × UInt16)
    (events : List LocalEvent) :
    Lts.Always (localStep host fromStr) LocalSide (localStart active clock cache fillStations)
      events :=
  Lts.always_of_invariant (fun _ hst => hst.side) (fun _ _ _ hst h => localStep_inv hst h)
    (localInv_start active clock cache fillStations)

/-! ### Monitors that decode -/

/-- A monitor of the id has a type and a local address. -/
def DecodesFor (id : String) (m : Monitor) : Prop := m.id = id → m.Decodes

/-- The clock does not go back, and each configuration keeps the monitors of the id and has only
such as decode. -/
def DecodingConfig (id : String) (st : LocalState) : LocalEvent → Prop
  | .processor e =>
      Forward st.processor e ∧ KeepsMonitors id st.processor e ∧
        ∀ newMonitors toRemove, e = .configure newMonitors toRemove →
          ∀ m ∈ newMonitors, DecodesFor id m
  | _ => True

/-- What holds for an id whose monitors decode, as long as the task is alive. -/
structure DecodingInv (id : String) (st : LocalState) : Prop where
  inv : LocalInv st
  monitors : AllMonitors (DecodesFor id) st.processor
  tracks : st.alive = true → TracksLog id st.processor

theorem decodingInv_start {id : String} {active : Finset Monitor}
    (hactive : ∀ m ∈ active, DecodesFor id m) (clock : ℕ) (cache : MetaCache)
    (fillStations : AList fun _ : String => String × UInt16) :
    DecodingInv id (localStart active clock cache fillStations) where
  inv := localInv_start active clock cache fillStations
  monitors := allMonitors_watched hactive clock
  tracks _ := (processorInv_watched (AList.notMem_empty id) (notBefore_empty clock)).tracks

/-- A turn that leaves the task alive. -/
theorem logStep_of_isSome {id : String} {st p : ProcessorState}
    {plc : S7Read → Option (List UInt8)} {cache : MetaCache}
    (h : processorStep host st (.trigger plc cache) = some p) (hpass : p.pass.isSome = true) :
    LogStep id st p := by
  obtain ⟨monitor, rest, -, ⟨turn, post, hturn, rfl⟩ | ⟨state, block, -, rfl⟩⟩ :=
    trigger_eq_some h
  · exact logStep_afterTurn hturn
  · cases hpass

/-- **What a step keeps**, for an id whose monitors decode. -/
theorem localStep_decoding {id : String} {st st' : LocalState} {e : LocalEvent}
    (hok : DecodingConfig id st e) (hst : DecodingInv id st)
    (h : localStep host fromStr st e = some st') : DecodingInv id st' := by
  have hinv := localStep_inv hst.inv h
  obtain ⟨plc, p, rfl, halive, hp, rfl⟩ | ⟨e', p, rfl, hquiet, hp, rfl⟩ |
    ⟨posts, -, -, hprocessor, halive, -⟩ := localStep_cases h
  · exact ⟨hinv, hst.monitors.step (by simp) hp, fun hthrough =>
      (logStep_of_isSome hp hthrough).tracksLog (hst.tracks halive)⟩
  · exact ⟨hinv, hst.monitors.step hok.2.2 hp, fun halive =>
      (logStep_of_ne_trigger hok.1 hok.2.1 hquiet hp).tracksLog (hst.tracks halive)⟩
  · refine ⟨hinv, ?_, ?_⟩
    · rw [hprocessor]
      exact ⟨hst.monitors.active, hst.monitors.pass, hst.monitors.update, hst.monitors.made⟩
    · rw [hprocessor, halive]
      exact hst.tracks

/-- **A block ends the loop**: in every run in which all monitors of an id decode, while the task of
the loop is alive no block of the id was read that is not empty, and no data of the id was sent. -/
theorem typed_block_ends_loop {id : String} {active : Finset Monitor}
    (hactive : ∀ m ∈ active, DecodesFor id m) {clock : ℕ} {cache : MetaCache}
    {fillStations : AList fun _ : String => String × UInt16} {events : List LocalEvent}
    {st : LocalState}
    (hok : Lts.Along (localStep host fromStr) (DecodingConfig id)
      (localStart active clock cache fillStations) events)
    (hrun : Lts.run (localStep host fromStr) (localStart active clock cache fillStations) events =
      some st) (halive : st.alive = true) :
    (∀ r ∈ readsFor id st.processor, r.block = []) ∧ messagesFor id st.processor = [] := by
  have hst := Lts.run_invariant (fun _ _ _ => localStep_decoding)
    (decodingInv_start hactive clock cache fillStations) hok hrun
  -- a message of the id would be one of a monitor that decodes
  have hmade : madeFor id st.processor = [] := by
    rw [List.eq_nil_iff_forall_not_mem]
    intro m hm
    obtain ⟨hmem, hid⟩ := List.mem_filter.1 hm
    exact hst.inv.plain.made m hmem (hst.monitors.made m hmem (of_decide_eq_true hid))
  refine ⟨fun r hr => ?_, ?_⟩
  · by_contra hblock
    exact (hst.tracks halive).sentOnce ⟨r, hr, hblock⟩ hmade
  · rw [madeFor, List.filter_append, List.append_eq_nil_iff] at hmade
    exact hmade.1

/-- A pass in which the PLC gives an answer to the read, or none. -/
def onePass (monitor : Monitor) (answer : Option (List UInt8)) : List LocalEvent :=
  [.processor (.startPass [monitor] 100), .turn fun _ => answer, .processor .endPass]

theorem typed_block_ends_loop_noAnswer :
    ∃ st, Lts.run (localStep bareHost fun _ => none) (localStart {labelMonitor} 0 ∅ ∅)
        (onePass labelMonitor none) = some st ∧
      (∀ r ∈ readsFor "M2" st.processor, r.block = []) ∧ messagesFor "M2" st.processor = [] := by
  have hactive : ∀ m ∈ ({labelMonitor} : Finset Monitor), DecodesFor "M2" m := by
    simp only [DecodesFor]
    decide
  have hok : Lts.Along (localStep bareHost fun _ => none) (DecodingConfig "M2")
      (localStart {labelMonitor} 0 ∅ ∅) (onePass labelMonitor none) :=
    .of_step ⟨Nat.zero_le _, trivial, by simp⟩ rfl <| .of_step trivial rfl <|
      .of_step ⟨trivial, trivial, by simp⟩ rfl trivial
  obtain ⟨st, hrun, halive⟩ : ∃ st, Lts.run (localStep bareHost fun _ => none)
      (localStart {labelMonitor} 0 ∅ ∅) (onePass labelMonitor none) = some st ∧ st.alive = true :=
    ⟨_, rfl, rfl⟩
  exact ⟨st, hrun, typed_block_ends_loop hactive hok hrun halive⟩

/-- With an answer the task ends in the turn. -/
example : (Lts.run (localStep bareHost fun _ => none) (localStart {labelMonitor} 0 ∅ ∅)
    ((onePass labelMonitor (some [1, 2])).take 2)).map LocalState.alive = some false := rfl

/-! ### Monitors that do not decode -/

/-- A monitor that has no request to decode for, and its offset in its block. -/
def Plain (m : Monitor) : Prop := ¬ m.Decodes ∧ m.offset ≤ m.blockSize

/-- The clock does not go back, and each configuration has plain monitors only. -/
def PlainConfig (st : LocalState) : LocalEvent → Prop
  | .processor (.startPass _ nowMillis) => st.processor.clock ≤ nowMillis
  | .processor (.configure newMonitors _) => ∀ m ∈ newMonitors, Plain m
  | _ => True

/-- What holds for plain monitors. -/
structure PlainInv (st : LocalState) : Prop where
  alive : st.alive = true
  monitors : AllMonitors Plain st.processor
  passes : PassInv st.processor

/-- **A turn of a plain monitor goes through.** -/
theorem isSome_pass_of_plain {st p : ProcessorState} (hmonitors : AllMonitors Plain st)
    (hpasses : PassInv st) {plc : S7Read → Option (List UInt8)} {cache : MetaCache}
    (h : processorStep host st (.trigger plc cache) = some p) : p.pass.isSome = true := by
  obtain ⟨monitor, rest, hpass, ⟨turn, post, -, rfl⟩ | ⟨state, block, hturn, -⟩⟩ :=
    trigger_eq_some h
  · rfl
  · have hplain := hmonitors.pass _ hpass monitor List.mem_cons_self
    obtain ⟨hread, hsend⟩ := hpasses.clock monitor.id
    exact absurd (monitorTurn_eq_panic hplain.2 hread hsend hturn).1.1 hplain.1

theorem localStep_plain {st st' : LocalState} {e : LocalEvent} (hok : PlainConfig st e)
    (hst : PlainInv st) (h : localStep host fromStr st e = some st') : PlainInv st' := by
  obtain ⟨plc, p, rfl, -, hp, rfl⟩ | ⟨e', p, rfl, -, hp, rfl⟩ |
    ⟨posts, -, -, hprocessor, halive, -⟩ := localStep_cases h
  · have hregular : Regular st.processor (.trigger plc st.cache) := trivial
    exact ⟨isSome_pass_of_plain hst.monitors hst.passes hp, hst.monitors.step (by simp) hp,
      hst.passes.step hregular hp⟩
  · have hregular : Regular st.processor e' := by
      cases e' with
      | startPass monitors nowMillis =>
          obtain ⟨⟨-, -, -, hactive⟩, -⟩ := startPass_eq_some hp
          exact ⟨hok, fun m hm => (hst.monitors.active m (hactive ▸ List.mem_toFinset.2 hm)).2⟩
      | trigger | endPass | configure | remove | configured => exact trivial
    refine ⟨hst.alive, hst.monitors.step ?_ hp, hst.passes.step hregular hp⟩
    rintro newMonitors toRemove rfl
    exact hok
  · refine ⟨halive.trans hst.alive, ?_, ?_⟩
    · rw [hprocessor]
      exact ⟨hst.monitors.active, hst.monitors.pass, hst.monitors.update, hst.monitors.made⟩
    · rw [hprocessor]
      exact ⟨hst.passes.clock, hst.passes.offsets, hst.passes.between⟩

/-- **The loop lives** in every run in which no configuration has a monitor that decodes or whose
offset is behind its block, and in which the clock does not go back. -/
theorem loop_lives {active : Finset Monitor} (hactive : ∀ m ∈ active, Plain m) {clock : ℕ}
    {cache : MetaCache} {fillStations : AList fun _ : String => String × UInt16}
    {events : List LocalEvent} {st : LocalState}
    (hok : Lts.Along (localStep host fromStr) PlainConfig
      (localStart active clock cache fillStations) events)
    (hrun : Lts.run (localStep host fromStr) (localStart active clock cache fillStations) events =
      some st) : st.alive = true := by
  have hstart : PlainInv (localStart active clock cache fillStations) :=
    ⟨rfl, allMonitors_watched hactive clock, passInv_watched (notBefore_empty clock)⟩
  exact (Lts.run_invariant (fun _ _ _ => localStep_plain) hstart hok hrun).alive

theorem loop_lives_smallMonitor :
    ∃ st, Lts.run (localStep bareHost fun _ => none) (localStart {smallMonitor} 0 ∅ ∅)
        (onePass smallMonitor (some [1, 2])) = some st ∧ st.alive = true := by
  have hactive : ∀ m ∈ ({smallMonitor} : Finset Monitor), Plain m := by
    intro m hm
    rw [Finset.mem_singleton] at hm
    subst hm
    exact ⟨by decide, by decide⟩
  have hok : Lts.Along (localStep bareHost fun _ => none) PlainConfig
      (localStart {smallMonitor} 0 ∅ ∅) (onePass smallMonitor (some [1, 2])) :=
    .of_step (Nat.zero_le _) rfl (.of_step trivial rfl (.of_step trivial rfl trivial))
  obtain ⟨st, hrun⟩ : ∃ st, Lts.run (localStep bareHost fun _ => none)
      (localStart {smallMonitor} 0 ∅ ∅) (onePass smallMonitor (some [1, 2])) = some st := ⟨_, rfl⟩
  exact ⟨st, hrun, loop_lives hactive hok hrun⟩

end Invariant

end MonitorProcessor

end FillingPilot
