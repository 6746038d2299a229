/-
**The intervals of the loops.**

Each of three loops makes a ticker of the interval that the session has when the loop starts, looks
at the session's interval after every tick, and makes a new ticker when it has changed.  A ticker
cannot be made of the interval 0.  A `config` command takes no 0, but `server.conf` may have one.

The commands on a stream are handled by the task that reads the stream, those in the answers to
heartbeats by the task of the heartbeat loop, which a command that panics ends.

Main definitions:

* `FillingPilot.IntervalLoop` — the loops;
* `FillingPilot.TickerState`, `FillingPilot.LoopSession`, `FillingPilot.loopSessionStep` — the loops
  and the intervals of a session, and their steps;
* `FillingPilot.configured` — the interval of a loop after some events;
* `FillingPilot.CommandPanics` — the command panics.

Main results:

* `FillingPilot.intervalMs_eq_configured` — a session has the interval configured last;
* `FillingPilot.tick_follows` — **every tick of a loop that is alive follows the interval configured
  last**;
* `FillingPilot.loop_lost_iff` — **the exact condition** under which a loop is lost.
-/

import FillingPilot.Context
import FillingPilot.Registration
import FillingPilot.Simulation

set_option relaxedAutoImplicit false
set_option autoImplicit false

namespace FillingPilot

open Json Rust Registration

/-! ### The loops -/

/-- The loops whose interval can be configured. -/
inductive IntervalLoop
  | heartbeat
  | report
  | status
  deriving DecidableEq

/-- The interval of a loop. -/
def Intervals.ms (intervals : Intervals) : IntervalLoop → ℕ
  | .heartbeat => intervals.heartBeatMs
  | .report => intervals.reportIntervalMs
  | .status => intervals.statusIntervalMs

/-- The interval that a configuration has for a loop. -/
def ServerConf.ms (conf : ServerConf) : IntervalLoop → ℕ
  | .heartbeat => conf.heartBeat
  | .report => conf.reportInterval
  | .status => conf.statusInterval

/-- A loop before it starts, with a ticker, or after its task has panicked. -/
inductive TickerState
  | ready
  | ticking (periodMs : ℕ)
  | lost
  deriving DecidableEq

/-- `tokio::time::interval` panics when the period is 0. -/
def TickerState.interval (ms : ℕ) : TickerState := if ms = 0 then .lost else .ticking ms

/-- The random number and the intervals of a session, and its loops. -/
structure LoopSession where
  randomNumber : ℤ
  intervals : Intervals
  loops : IntervalLoop → TickerState

/-- A loop goes on. -/
def LoopSession.put (st : LoopSession) (l : IntervalLoop) (loop : TickerState) : LoopSession :=
  { st with loops := Function.update st.loops l loop }

/-- The session, as a command finds it. -/
def LoopSession.found (st : LoopSession) : Registration.Session :=
  Registration.start st.randomNumber true st.intervals

/-- What a command leaves. -/
def LoopSession.after (st : LoopSession) (e : Effect) : LoopSession :=
  { st with randomNumber := e.randomNumber, intervals := e.intervals }

/-- What happens in a session. -/
inductive TickerEvent
  /-- A command comes on a stream; the clock is read for a `reConnect`. -/
  | command (now : Option ℤ) (cmd : ServerCommand)
  /-- A command comes in the answer to a heartbeat. -/
  | answer (now : Option ℤ) (cmd : ServerCommand)
  | start (l : IntervalLoop)
  | tick (l : IntervalLoop)

/-- The session of a context, before its loops start. -/
def LoopSession.new (randomNumber : ℤ) (intervals : Intervals) : LoopSession :=
  ⟨randomNumber, intervals, fun _ => .ready⟩

section Runs

variable (fromStr : String → Option Value) (fromStrConf : String → Option ServerConf)

/-- One step. -/
def loopSessionStep (st : LoopSession) : TickerEvent → Option LoopSession
  | .command now cmd =>
      match st.found.effect (registerCommand fromStr fromStrConf cmd st.intervals) now cmd with
      | .ok e => some (st.after e)
      -- the task that reads the stream panics, and has changed nothing
      | _ => some st
  | .answer now cmd =>
      match st.loops .heartbeat with
      | .ticking _ =>
          match st.found.effect (heartbeatResponse fromStr fromStrConf cmd st.intervals) now cmd with
          | .ok e => some (st.after e)
          | _ => some (st.put .heartbeat .lost)
      | _ => none
  | .start l =>
      match st.loops l with
      | .ready => some (st.put l (.interval (st.intervals.ms l)))
      | _ => none
  | .tick l =>
      match st.loops l with
      | .ticking periodMs =>
          let currentMs := st.intervals.ms l
          some (st.put l (if currentMs ≠ periodMs then .interval currentMs else .ticking periodMs))
      | _ => none

/-- The interval that the detail of a `config` command sets for a loop. -/
def setBy (l : IntervalLoop) (detail : String) : Option ℕ :=
  if detail = "" then none
  else (fromStrConf detail).bind fun conf => if 0 < conf.ms l then some (conf.ms l) else none

/-- The interval that a command sets for a loop, if it can be logged. -/
def setByCommand (l : IntervalLoop) (cmd : ServerCommand) : Option ℕ :=
  match extractPlcSummary fromStr cmd.detail with
  | .ok _ => if cmd.type = "config" then setBy fromStrConf l cmd.detail else none
  | _ => none

/-- The command of an event. -/
def TickerEvent.command? : TickerEvent → Option ServerCommand
  | .command _ cmd | .answer _ cmd => some cmd
  | .start _ | .tick _ => none

/-- The interval of a loop after some events: that of the last command that sets one. -/
def configured (l : IntervalLoop) (ms : ℕ) (events : List TickerEvent) : ℕ :=
  events.foldl (fun ms e => (e.command?.bind (setByCommand fromStr fromStrConf l)).getD ms) ms

/-- The command panics in a session with the number: a text for the log is cut inside a character,
or the number has no next one. -/
def CommandPanics (randomNumber : ℤ) (cmd : ServerCommand) : Prop :=
  SummarySplits fromStr cmd.detail ∨ ConfigSplits fromStrConf cmd ∨
    (IsReconnect cmd ∧ parseSigned 64 cmd.detail = none ∧ 2 ^ 63 - 1 ≤ randomNumber)

variable {fromStr fromStrConf} {st t : LoopSession} {l : IntervalLoop} {e : TickerEvent}
  {events : List TickerEvent} {cmd : ServerCommand} {now : Option ℤ}

/-! ### Commands -/

theorem taken_eq (new old : ℕ) :
    (if 0 < new then new else old) = (if 0 < new then some new else none).getD old := by
  split_ifs <;> rfl

/-- **What a `config` command leaves** of the intervals. -/
theorem handleConfig_ms {detail : String} {intervals intervals' : Intervals} {log : List LogLine}
    (h : handleConfig fromStrConf detail intervals = .ok (intervals', log)) (l : IntervalLoop) :
    intervals'.ms l = (setBy fromStrConf l detail).getD (intervals.ms l) := by
  unfold handleConfig at h
  unfold setBy
  split_ifs at h ⊢ with hempty
  · cases h
    rfl
  · cases hconf : fromStrConf detail with
    | none =>
        rw [hconf] at h
        obtain ⟨head, -, h⟩ := Outcome.bind_eq_ok.1 h
        cases h
        rfl
    | some conf =>
        rw [hconf] at h
        cases h
        rw [Option.bind_some]
        cases l with
        | heartbeat => exact taken_eq _ _
        | report => exact taken_eq _ _
        | status => exact taken_eq _ _

theorem setBy_of_panic {detail : String} {intervals : Intervals}
    (h : ∀ out, handleConfig fromStrConf detail intervals ≠ .ok out) (l : IntervalLoop) :
    setBy fromStrConf l detail = none := by
  unfold handleConfig at h
  unfold setBy
  split_ifs at h ⊢ with hempty
  · rfl
  · cases hconf : fromStrConf detail with
    | none => rfl
    | some conf =>
        rw [hconf] at h
        exact absurd rfl (h _)

theorem setBy_pos {detail : String} {ms : ℕ} (h : setBy fromStrConf l detail = some ms) :
    0 < ms := by
  unfold setBy at h
  split_ifs at h
  obtain ⟨conf, -, h⟩ := Option.bind_eq_some_iff.1 h
  split_ifs at h with hpos
  cases h
  exact hpos

theorem setByCommand_pos {ms : ℕ} (h : setByCommand fromStr fromStrConf l cmd = some ms) :
    0 < ms := by
  unfold setByCommand at h
  split at h
  · split_ifs at h
    exact setBy_pos h
  · cases h

/-- What the handler leaves of the intervals, when the command can be logged. -/
theorem handleCommand_ms {intervals intervals' : Intervals} {log : List LogLine} {text : String}
    (hsummary : extractPlcSummary fromStr cmd.detail = .ok text)
    (h : handleCommand fromStrConf cmd intervals = .ok (intervals', log)) (l : IntervalLoop) :
    intervals'.ms l = (setByCommand fromStr fromStrConf l cmd).getD (intervals.ms l) := by
  unfold handleCommand at h
  simp only [setByCommand, hsummary]
  split_ifs at h ⊢ with htype
  · exact handleConfig_ms h l
  · cases h
    rfl

/-- What can be logged has a text. -/
theorem extractPlcSummary_of_summaryAfter {label detail text : String}
    (h : summaryAfter fromStr label detail = .ok text) :
    ∃ summary, extractPlcSummary fromStr detail = .ok summary := by
  rcases extractPlcSummary_panicsIff fromStr detail with ⟨hsplits, -⟩ | ⟨-, hok⟩
  · have hne := (summaryAfter_panicsIff fromStr label detail).ne_panic_iff.1
      (by rw [h]; exact nofun)
    exact absurd hsplits hne
  · exact hok

/-- **What a command leaves** of the intervals, on either way. -/
theorem registerCommand_ms {intervals intervals' : Intervals} {log : List LogLine}
    (h : registerCommand fromStr fromStrConf cmd intervals = .ok (intervals', log))
    (l : IntervalLoop) :
    intervals'.ms l = (setByCommand fromStr fromStrConf l cmd).getD (intervals.ms l) := by
  obtain ⟨text, hlogged, h⟩ := Outcome.bind_eq_ok.1 h
  obtain ⟨summary, hsummary⟩ := extractPlcSummary_of_summaryAfter hlogged
  obtain ⟨⟨intervals'', lines⟩, hhandle, h⟩ := Outcome.bind_eq_ok.1 h
  cases h
  exact handleCommand_ms hsummary hhandle l

theorem heartbeatResponse_ms {intervals intervals' : Intervals} {log : List LogLine}
    (h : heartbeatResponse fromStr fromStrConf cmd intervals = .ok (intervals', log))
    (l : IntervalLoop) :
    intervals'.ms l = (setByCommand fromStr fromStrConf l cmd).getD (intervals.ms l) := by
  obtain ⟨text, hlogged, h⟩ := Outcome.bind_eq_ok.1 h
  obtain ⟨summary, hsummary⟩ := extractPlcSummary_of_summaryAfter hlogged
  by_cases htype : cmd.type = ""
  · -- an answer without a type is no `config`
    simp only [htype, ne_eq, not_true_eq_false, if_false] at h
    cases h
    simp [setByCommand, hsummary, htype]
  · simp only [ne_eq, htype, not_false_eq_true, if_true] at h
    obtain ⟨⟨intervals'', lines⟩, hhandle, h⟩ := Outcome.bind_eq_ok.1 h
    cases h
    exact handleCommand_ms hsummary hhandle l

/-- The number after a command that is a `reConnect`. -/
theorem newRandom_panicsIff (detail : String) (randomNumber : ℤ) :
    (newRandom now detail randomNumber).PanicsIff
      (parseSigned 64 detail = none ∧ 2 ^ 63 - 1 ≤ randomNumber) := by
  unfold newRandom
  cases parseSigned 64 detail with
  | some n => exact (Outcome.panicsIff_ok n).congr (by simp)
  | none =>
      dsimp only
      by_cases hlast : randomNumber < 2 ^ 63 - 1
      · rw [incrementI64, if_pos hlast, Outcome.ok_bind]
        exact (Outcome.panicsIff_ok _).congr (by simpa using hlast)
      · rw [incrementI64, if_neg hlast, Outcome.panic_bind]
        exact Or.inl ⟨⟨rfl, not_lt.1 hlast⟩, rfl⟩

/-- **When a command panics**, once it is known when its texts do. -/
theorem effect_panicsIff {logged : Outcome (Intervals × List LogLine)}
    (hlogged : logged.PanicsIff (SummarySplits fromStr cmd.detail ∨ ConfigSplits fromStrConf cmd))
    (st : LoopSession) :
    (st.found.effect logged now cmd).PanicsIff
      (CommandPanics fromStr fromStrConf st.randomNumber cmd) := by
  unfold Session.effect CommandPanics
  refine (hlogged.bind (Q := IsReconnect cmd ∧ parseSigned 64 cmd.detail = none ∧
    2 ^ 63 - 1 ≤ st.randomNumber) fun out => ?_).congr or_assoc
  split_ifs with hreconnect
  · refine ((newRandom_panicsIff cmd.detail st.randomNumber).bind fun n =>
      Outcome.panicsIff_ok _).congr ?_
    simp [hreconnect]
  · exact (Outcome.panicsIff_ok _).congr (by simp [hreconnect])

theorem effect_ms {logged : Outcome (Intervals × List LogLine)} {effect : Effect}
    (hlogged : ∀ intervals log, logged = .ok (intervals, log) → ∀ l, intervals.ms l =
      (setByCommand fromStr fromStrConf l cmd).getD (st.intervals.ms l))
    (h : st.found.effect logged now cmd = .ok effect) (l : IntervalLoop) :
    effect.intervals.ms l = (setByCommand fromStr fromStrConf l cmd).getD (st.intervals.ms l) := by
  unfold Session.effect at h
  obtain ⟨⟨intervals, log⟩, hok, h⟩ := Outcome.bind_eq_ok.1 h
  have hms := hlogged intervals log hok l
  dsimp only at h
  split_ifs at h
  · obtain ⟨n, -, h⟩ := Outcome.bind_eq_ok.1 h
    cases h
    exact hms
  · cases h
    exact hms

theorem setByCommand_of_panics {randomNumber : ℤ}
    (h : CommandPanics fromStr fromStrConf randomNumber cmd) :
    setByCommand fromStr fromStrConf l cmd = none := by
  unfold setByCommand
  rcases h with hsummary | ⟨htype, hconf, hsplits⟩ | ⟨hreconnect, -⟩
  · rcases extractPlcSummary_panicsIff fromStr cmd.detail with ⟨-, hpanic⟩ | ⟨hnot, -⟩
    · rw [hpanic]
    · exact absurd hsummary hnot
  · have hnone : setBy fromStrConf l cmd.detail = none := by simp [setBy, hconf]
    split
    · rw [hnone, ite_self]
    · rfl
  · have htype : cmd.type ≠ "config" := by
      rcases hreconnect with htype | htype <;> rw [htype] <;> decide
    split
    · exact if_neg htype
    · rfl

/-! ### Steps -/

/-- **What a step does** to the number, the intervals and the loops. -/
inductive TickerSteps (fromStr : String → Option Value) (fromStrConf : String → Option ServerConf)
    (st : LoopSession) : TickerEvent → LoopSession → Prop
  | handled (e : TickerEvent) (cmd : ServerCommand) (hcmd : e.command? = some cmd)
      (effect : Effect) (hms : ∀ l, effect.intervals.ms l =
        (setByCommand fromStr fromStrConf l cmd).getD (st.intervals.ms l))
      (hanswer : ∀ now, e = .answer now cmd → (∃ periodMs, st.loops .heartbeat = .ticking periodMs) ∧
        ¬ CommandPanics fromStr fromStrConf st.randomNumber cmd) :
      TickerSteps fromStr fromStrConf st e (st.after effect)
  | streamLost (now : Option ℤ) (cmd : ServerCommand)
      (hpanics : CommandPanics fromStr fromStrConf st.randomNumber cmd) :
      TickerSteps fromStr fromStrConf st (.command now cmd) st
  | heartbeatLost (now : Option ℤ) (cmd : ServerCommand)
      (hpanics : CommandPanics fromStr fromStrConf st.randomNumber cmd) :
      TickerSteps fromStr fromStrConf st (.answer now cmd) (st.put .heartbeat .lost)
  | start (l : IntervalLoop) (hready : st.loops l = .ready) :
      TickerSteps fromStr fromStrConf st (.start l) (st.put l (.interval (st.intervals.ms l)))
  | tick (l : IntervalLoop) (periodMs : ℕ) (hticking : st.loops l = .ticking periodMs)
      (loop : TickerState)
      (hloop : loop = .interval (st.intervals.ms l) ∨
        loop = .ticking periodMs ∧ st.intervals.ms l = periodMs) :
      TickerSteps fromStr fromStrConf st (.tick l) (st.put l loop)

theorem tickerSteps_of_step (h : loopSessionStep fromStr fromStrConf st e = some t) :
    TickerSteps fromStr fromStrConf st e t := by
  cases e with
  | command now cmd =>
      have hpanics := @effect_panicsIff fromStr fromStrConf cmd now _
        (registerCommand_panicsIff fromStr fromStrConf cmd st.intervals) st
      simp only [loopSessionStep] at h
      rcases hpanics with ⟨hbad, hpanic⟩ | ⟨-, effect, hok⟩
      · rw [hpanic] at h
        cases h
        exact .streamLost now cmd hbad
      · rw [hok] at h
        cases h
        exact .handled _ cmd rfl effect
          (effect_ms (fun intervals log hlogged l => registerCommand_ms hlogged l) hok) nofun
  | answer now cmd =>
      have hpanics := @effect_panicsIff fromStr fromStrConf cmd now _
        (heartbeatResponse_panicsIff fromStr fromStrConf cmd st.intervals) st
      simp only [loopSessionStep] at h
      split at h
      next periodMs hticking =>
        rcases hpanics with ⟨hbad, hpanic⟩ | ⟨hgood, effect, hok⟩
        · rw [hpanic] at h
          cases h
          exact .heartbeatLost now cmd hbad
        · rw [hok] at h
          cases h
          exact .handled _ cmd rfl effect
            (effect_ms (fun intervals log hlogged l => heartbeatResponse_ms hlogged l) hok)
            fun _ _ => ⟨⟨periodMs, hticking⟩, hgood⟩
      next => cases h
  | start l =>
      simp only [loopSessionStep] at h
      split at h
      next hready =>
        cases h
        exact .start l hready
      next => cases h
  | tick l =>
      simp only [loopSessionStep] at h
      split at h
      next periodMs hticking =>
        cases h
        refine .tick l periodMs hticking _ ?_
        split_ifs with hsame
        · exact Or.inl rfl
        · exact Or.inr ⟨rfl, not_not.1 hsame⟩
      next => cases h

/-! ### The intervals of a run -/

theorem ms_of_step (h : TickerSteps fromStr fromStrConf st e t) :
    t.intervals.ms l =
      (e.command?.bind (setByCommand fromStr fromStrConf l)).getD (st.intervals.ms l) := by
  cases h with
  | handled _ cmd hcmd effect hms _ =>
      rw [hcmd]
      exact hms l
  | streamLost now cmd hpanics | heartbeatLost now cmd hpanics =>
      rw [TickerEvent.command?, Option.bind_some, setByCommand_of_panics hpanics]
      rfl
  | start l' hready => rfl
  | tick l' periodMs hticking loop hloop => rfl

/-- **A session has the interval configured last.** -/
theorem intervalMs_eq_configured
    (h : Lts.run (loopSessionStep fromStr fromStrConf) st events = some t) :
    t.intervals.ms l = configured fromStr fromStrConf l (st.intervals.ms l) events := by
  induction events generalizing st with
  | nil =>
      cases h
      rfl
  | cons e events ih =>
      obtain ⟨u, hu, hrun⟩ := Lts.run_cons.1 h
      rw [ih hrun, ms_of_step (tickerSteps_of_step hu)]
      rfl

/-- The interval configured is 0 when it was at first and no command sets one. -/
theorem configured_eq_zero_iff {ms : ℕ} :
    configured fromStr fromStrConf l ms events = 0 ↔
      ms = 0 ∧ ∀ cmd ∈ events.filterMap TickerEvent.command?,
        setByCommand fromStr fromStrConf l cmd = none := by
  induction events generalizing ms with
  | nil => simp [configured]
  | cons e events ih =>
      have hstep : configured fromStr fromStrConf l ms (e :: events) = configured fromStr fromStrConf
        l ((e.command?.bind (setByCommand fromStr fromStrConf l)).getD ms) events := rfl
      rw [hstep, ih, List.filterMap_cons]
      cases hcmd : e.command? with
      | none => simp
      | some cmd =>
          rw [Option.bind_some, List.forall_mem_cons]
          cases hset : setByCommand fromStr fromStrConf l cmd with
          | none => simp
          | some new =>
              have hpos := setByCommand_pos hset
              simp only [Option.getD_some, reduceCtorEq, false_and, and_false, iff_false, not_and]
              omega

/-! ### The loops of a run -/

/-- A step is to blame for a loop: it starts with the interval 0, or it is that of the heartbeats
and the command in an answer panics. -/
def Loses (fromStr : String → Option Value) (fromStrConf : String → Option ServerConf)
    (l : IntervalLoop) (st : LoopSession) (e : TickerEvent) : Prop :=
  (e = .start l ∧ st.intervals.ms l = 0) ∨
    (l = .heartbeat ∧ ∃ now cmd, e = .answer now cmd ∧
      CommandPanics fromStr fromStrConf st.randomNumber cmd)

/-- A loop with a ticker has an interval that is not 0. -/
def Ticks (l : IntervalLoop) (st : LoopSession) : Prop :=
  (∃ periodMs, st.loops l = .ticking periodMs) → 0 < st.intervals.ms l

theorem ms_pos_of_step (h : TickerSteps fromStr fromStrConf st e t) (hpos : 0 < st.intervals.ms l) :
    0 < t.intervals.ms l := by
  rw [ms_of_step h]
  cases hset : e.command?.bind (setByCommand fromStr fromStrConf l) with
  | none => exact hpos
  | some new =>
      obtain ⟨cmd, -, hcmd⟩ := Option.bind_eq_some_iff.1 hset
      exact setByCommand_pos hcmd

theorem put_loops_self (st : LoopSession) (l : IntervalLoop) (loop : TickerState) :
    (st.put l loop).loops l = loop := Function.update_self ..

theorem put_loops_ne (st : LoopSession) {l l' : IntervalLoop} (loop : TickerState) (h : l' ≠ l) :
    (st.put l loop).loops l' = st.loops l' := Function.update_of_ne h ..

/-- Only the start of the loop and, for the heartbeats, an answer may be to blame. -/
theorem not_loses (hstart : e ≠ .start l)
    (hanswer : l = .heartbeat → ∀ now cmd, e ≠ .answer now cmd) :
    ¬ Loses fromStr fromStrConf l st e := by
  rintro (⟨heq, -⟩ | ⟨hl, now, cmd, heq, -⟩)
  · exact hstart heq
  · exact hanswer hl now cmd heq

/-- **What a step does to a loop**: it is lost exactly when it was or the step is to blame. -/
theorem lost_of_step (h : TickerSteps fromStr fromStrConf st e t) (hst : Ticks l st) :
    Ticks l t ∧ (t.loops l = .lost ↔ st.loops l = .lost ∨ Loses fromStr fromStrConf l st e) := by
  have hms := @ms_pos_of_step fromStr fromStrConf st t l e h
  cases h with
  | handled _ cmd hcmd effect _ hanswer =>
      refine ⟨fun hticking => hms (hst hticking), ?_⟩
      refine (or_iff_left fun hblame => ?_).symm
      rcases hblame with ⟨rfl, -⟩ | ⟨-, now, cmd', rfl, hpanics⟩
      · cases hcmd
      · cases hcmd
        exact (hanswer now rfl).2 hpanics
  | streamLost now cmd hpanics =>
      refine ⟨hst, (or_iff_left ?_).symm⟩
      exact not_loses nofun fun _ => nofun
  | heartbeatLost now cmd hpanics =>
      by_cases hl : l = .heartbeat
      · subst hl
        refine ⟨fun ⟨periodMs, hticking⟩ => ?_, ?_⟩
        · rw [put_loops_self] at hticking
          cases hticking
        · rw [put_loops_self]
          exact iff_of_true rfl (Or.inr (Or.inr ⟨rfl, now, cmd, rfl, hpanics⟩))
      · rw [Ticks, put_loops_ne _ _ hl]
        refine ⟨hst, (or_iff_left ?_).symm⟩
        exact not_loses nofun fun heartbeat => absurd heartbeat hl
  | start l' hready =>
      by_cases hl : l = l'
      · subst hl
        rw [Ticks, put_loops_self, hready]
        by_cases hzero : st.intervals.ms l = 0
        · rw [hzero, TickerState.interval, if_pos rfl]
          exact ⟨fun hticking => by simp at hticking, iff_of_true rfl (Or.inr (Or.inl ⟨rfl, hzero⟩))⟩
        · rw [TickerState.interval, if_neg hzero]
          refine ⟨fun _ => Nat.pos_of_ne_zero hzero, iff_of_false (by simp) ?_⟩
          rintro (heq | ⟨-, heq⟩ | ⟨-, now, cmd, heq, -⟩)
          · cases heq
          · exact hzero heq
          · cases heq
      · rw [Ticks, put_loops_ne _ _ hl]
        have hne : TickerEvent.start l' ≠ .start l := fun heq => hl (TickerEvent.start.inj heq).symm
        refine ⟨hst, (or_iff_left ?_).symm⟩
        exact not_loses hne fun _ => nofun
  | tick l' periodMs hticking loop hloop =>
      by_cases hl : l = l'
      · subst hl
        have hpos : 0 < st.intervals.ms l := hst ⟨periodMs, hticking⟩
        have hne : loop ≠ .lost := by
          rcases hloop with rfl | ⟨rfl, -⟩
          · rw [TickerState.interval, if_neg hpos.ne']
            simp
          · simp
        rw [Ticks, put_loops_self, hticking]
        exact ⟨fun _ => hpos, iff_of_false hne (not_or.2 ⟨nofun, not_loses nofun fun _ => nofun⟩)⟩
      · rw [Ticks, put_loops_ne _ _ hl]
        refine ⟨hst, (or_iff_left ?_).symm⟩
        exact not_loses nofun fun _ => nofun

/-- **A loop that has not started** is lost at the end of a run exactly when some step is to blame. -/
theorem lost_iff_of_ready (hready : st.loops l = .ready)
    (h : Lts.run (loopSessionStep fromStr fromStrConf) st events = some t) :
    t.loops l = .lost ↔ ∃ before e after u, events = before ++ e :: after ∧
      Lts.run (loopSessionStep fromStr fromStrConf) st before = some u ∧
        Loses fromStr fromStrConf l u e := by
  have hst : Ticks l st := by
    rintro ⟨periodMs, hticking⟩
    rw [hready] at hticking
    cases hticking
  rw [Lts.run_blame_iff (fun _ _ _ hst h => lost_of_step (tickerSteps_of_step h) hst) hst h, hready]
  simp

/-- **Every tick follows the interval configured last**: after a tick of a loop that is alive, the
loop has a ticker of it. -/
theorem tick_follows
    (h : Lts.run (loopSessionStep fromStr fromStrConf) st (events ++ [.tick l]) = some t)
    (halive : t.loops l ≠ .lost) :
    t.loops l = .ticking (configured fromStr fromStrConf l (st.intervals.ms l) events) := by
  obtain ⟨u, hevents, hlast⟩ := Lts.run_append.1 h
  obtain ⟨v, hv, hnil⟩ := Lts.run_cons.1 hlast
  cases hnil
  rw [← intervalMs_eq_configured hevents]
  cases tickerSteps_of_step hv with
  | handled _ cmd hcmd => cases hcmd
  | tick _ periodMs hticking loop hloop =>
      rw [put_loops_self] at halive ⊢
      rcases hloop with rfl | ⟨rfl, hsame⟩
      · unfold TickerState.interval at halive ⊢
        split_ifs at halive ⊢ with hzero
        · exact absurd rfl halive
        · rfl
      · rw [hsame]

end Runs

/-- A configuration with a slower status loop. -/
def slowerConf (detail : String) : Option ServerConf :=
  if detail = "slower" then some ⟨0, 0, 3000⟩ else none

/-- The status loop starts, and the configuration comes. -/
def slowerEvents : List TickerEvent := [.start .status, .command none ⟨"config", "slower"⟩]

theorem tick_follows_slower :
    ∃ t, Lts.run (loopSessionStep (fun _ => none) slowerConf) (.new 1 ⟨5000, 5000, 1000⟩)
        (slowerEvents ++ [.tick .status]) = some t ∧
      t.loops .status =
        .ticking (configured (fun _ => none) slowerConf .status 1000 slowerEvents) := by
  refine ⟨_, rfl, ?_⟩
  have hrun : Lts.run (loopSessionStep (fun _ => none) slowerConf) (.new 1 ⟨5000, 5000, 1000⟩)
      (slowerEvents ++ [.tick .status]) = some _ := rfl
  exact tick_follows hrun (by intro hlost; cases hlost)

/-! ### From the files to the loops -/

/-- What a `config` command takes from a configuration. -/
def Context.ServerConf.taken (conf : Context.ServerConf) : FillingPilot.ServerConf where
  heartBeat := conf.heartBeat
  reportInterval := conf.reportInterval
  statusInterval := conf.statusInterval

/-- `serde_json::from_str` for a configuration, given the parser of documents. -/
def readConf (fromStr : String → Option Value) (detail : String) : Option ServerConf :=
  ((fromStr detail).bind Context.ServerConf.fromJson).map Context.ServerConf.taken

/-- **The exact condition** under which a loop of a device is lost: `server.conf` has 0 for its
interval, and it starts before any command that sets the interval, or it is the loop of the heartbeats
and the command in an answer panics.  A command sets every interval that it does not give as 0, also
one that it does not give at all. -/
theorem loop_lost_iff {fromStr : String → Option Value} {cwd : String}
    {idKey serverConf : Option String} {ctx : Context} {conf : Context.ServerConf}
    (hload : Context.loadWithPaths fromStr cwd idKey serverConf = .ok ctx)
    (hconf : Context.readServerConf fromStr cwd serverConf = .ok conf) {randomNumber : ℤ}
    {events : List TickerEvent} {t : LoopSession}
    (h : Lts.run (loopSessionStep fromStr (readConf fromStr)) (.new randomNumber ctx.intervals)
      events = some t) (l : IntervalLoop) :
    t.loops l = .lost ↔
      (conf.intervals.ms l = 0 ∧ ∃ before after, events = before ++ .start l :: after ∧
        ∀ cmd ∈ before.filterMap TickerEvent.command?,
          setByCommand fromStr (readConf fromStr) l cmd = none) ∨
      (l = .heartbeat ∧ ∃ before now cmd after u, events = before ++ .answer now cmd :: after ∧
        Lts.run (loopSessionStep fromStr (readConf fromStr)) (.new randomNumber ctx.intervals)
          before = some u ∧ CommandPanics fromStr (readConf fromStr) u.randomNumber cmd) := by
  obtain ⟨own, conf', -, hconf', rfl⟩ := Context.loadWithPaths_eq_ok.1 hload
  obtain rfl : conf = conf' := Except.ok.inj (hconf.symm.trans hconf')
  have hms : (LoopSession.new randomNumber (own.mergeServerConf conf).intervals).intervals.ms l =
      conf.intervals.ms l := rfl
  rw [lost_iff_of_ready rfl h]
  constructor
  · rintro ⟨before, e, after, u, rfl, hbefore, ⟨rfl, hzero⟩ | ⟨rfl, now, cmd, rfl, hpanics⟩⟩
    · rw [intervalMs_eq_configured hbefore, configured_eq_zero_iff, hms] at hzero
      exact Or.inl ⟨hzero.1, before, after, rfl, hzero.2⟩
    · exact Or.inr ⟨rfl, before, now, cmd, after, u, rfl, hbefore, hpanics⟩
  · rintro (⟨hzero, before, after, rfl, hnone⟩ | ⟨rfl, before, now, cmd, after, u, rfl, hbefore,
      hpanics⟩)
    · obtain ⟨u, hbefore, -⟩ := Lts.run_append.1 h
      refine ⟨before, _, after, u, rfl, hbefore, Or.inl ⟨rfl, ?_⟩⟩
      rw [intervalMs_eq_configured hbefore, configured_eq_zero_iff, hms]
      exact ⟨hzero, hnone⟩
    · exact ⟨before, _, after, u, rfl, hbefore, Or.inr ⟨rfl, now, cmd, rfl, hpanics⟩⟩

/-- A device whose heartbeat has the interval 0, and a detail of a command. -/
def silentFiles (content : String) : Option Value :=
  if content = "id" then some (.object [("id", .string "E1")])
  else if content = "conf" then some (.object [("serverAddress", .string "cloud"),
    ("port", .ofInt 9999), ("heartBeat", .ofInt 0)])
  else if content = "faster" then some (.object [("serverAddress", .string "cloud"),
    ("port", .ofInt 9999), ("heartBeat", .ofInt 100)])
  else none

/-- A command gives the heartbeats an interval, and an answer is cut inside a character. -/
def cutAnswer : List TickerEvent :=
  [.command none ⟨"config", "faster"⟩, .start .heartbeat, .answer none accentCommand]

theorem loop_lost_iff_silent :
    ∃ ctx conf t, Context.loadWithPaths silentFiles "/device" (some "id") (some "conf") = .ok ctx ∧
      Context.readServerConf silentFiles "/device" (some "conf") = .ok conf ∧
      Lts.run (loopSessionStep silentFiles (readConf silentFiles)) (.new 1 ctx.intervals)
        cutAnswer = some t ∧
      ∀ l, t.loops l = .lost ↔
        (conf.intervals.ms l = 0 ∧ ∃ before after, cutAnswer = before ++ .start l :: after ∧
          ∀ cmd ∈ before.filterMap TickerEvent.command?,
            setByCommand silentFiles (readConf silentFiles) l cmd = none) ∨
        (l = .heartbeat ∧ ∃ before now cmd after u, cutAnswer = before ++ .answer now cmd :: after ∧
          Lts.run (loopSessionStep silentFiles (readConf silentFiles)) (.new 1 ctx.intervals)
            before = some u ∧
              CommandPanics silentFiles (readConf silentFiles) u.randomNumber cmd) := by
  refine ⟨_, _, _, rfl, rfl, rfl, ?_⟩
  exact loop_lost_iff
    (rfl : Context.loadWithPaths silentFiles "/device" (some "id") (some "conf") = .ok _)
    (rfl : Context.readServerConf silentFiles "/device" (some "conf") = .ok _) rfl

/-- The loop is lost, with an interval that was not 0. -/
example : ((Context.loadWithPaths silentFiles "/device" (some "id") (some "conf")).toOption.bind
    fun ctx => Lts.run (loopSessionStep silentFiles (readConf silentFiles)) (.new 1 ctx.intervals)
      cutAnswer).map (fun t => t.loops .heartbeat) = some .lost := rfl

end FillingPilot
