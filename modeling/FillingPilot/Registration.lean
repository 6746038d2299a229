/-
**The number that the server knows.**

A session identifies itself with a random number, which a register call carries to the server.  The
command `reConnect` sets another number.  It comes on the stream of a registration or as the answer
to a heartbeat: a task whose stream has brought it registers again, while the heartbeat loop does
not ask anyone to.

The register task of the start and the task that watches the connection both register.  A request
is built before its task has the client, so that the number may be replaced in the meantime; the
task that has the client keeps every other one from it until its call is answered.  A command of a
stream is received when the task is ready for it, and is handled in one step; an answer to a
heartbeat is received while the heartbeat loop has the client, and handled after it has given it
back.

Main definitions:

* `FillingPilot.Registration.Session` — the session, with the places where its tasks stand;
* `FillingPilot.Registration.Session.effect` — what a command does to the session;
* `FillingPilot.Registration.step` — the steps of the tasks;
* `FillingPilot.Registration.Current` — at rest, the last register call carried the number of the
  session;
* `FillingPilot.Registration.KeepsCurrent` — the condition on a step.

Main results:

* `FillingPilot.Registration.current_iff` — **the exact condition** on a run;
* `FillingPilot.Registration.current_of_streams` — **the streams alone**: what arrives on them never
  leaves the server with an old number.
-/

import FillingPilot.CommandText
import FillingPilot.RustStd
import FillingPilot.Runs
import Mathlib.Logic.Function.Basic

set_option relaxedAutoImplicit false
set_option autoImplicit false

namespace FillingPilot

namespace Registration

open Rust

/-! ### Sessions -/

/-- The tasks that call `register`. -/
inductive Task
  /-- The task of the start. -/
  | main
  /-- The task that connects a session without a connection. -/
  | watcher
  deriving DecidableEq

/-- Where a task stands in `register`. -/
inductive Phase
  /-- Outside of it, or ended by a panic. -/
  | idle
  /-- At the start of `register_once`. -/
  | due
  /-- With a request that carries the number, waiting for the client. -/
  | built (number : ℤ)
  /-- With a call that is not answered. -/
  | calling (number : ℤ)
  /-- Reading the commands of the stream. -/
  | streaming
  deriving DecidableEq

namespace Phase

/-- A register call is pending. -/
def Pending : Phase → Prop
  | due | built _ | calling _ => True
  | idle | streaming => False

/-- The task has the client. -/
def HasClient : Phase → Prop
  | calling _ => True
  | idle | due | built _ | streaming => False

@[simp] theorem not_pending_streaming : ¬ streaming.Pending := id

instance : DecidablePred HasClient := fun p => by
  cases p <;> unfold HasClient <;> infer_instance

end Phase

/-- Where the heartbeat loop stands. -/
inductive Heartbeat
  | waiting
  /-- An answer is received and not handled. -/
  | answered (cmd : ServerCommand)
  /-- A command has panicked. -/
  | stopped

/-- The session, as far as it registers. -/
structure Session where
  randomNumber : ℤ
  connected : Bool
  intervals : Intervals
  phase : Task → Phase
  heartbeat : Heartbeat
  /-- The number of the last register call. -/
  registered : Option ℤ

/-- The session when its tasks are spawned. -/
def start (randomNumber : ℤ) (connected : Bool) (intervals : Intervals) : Session where
  randomNumber := randomNumber
  connected := connected
  intervals := intervals
  phase := fun
    | .main => .due
    | .watcher => .idle
  heartbeat := .waiting
  registered := none

namespace Session

/-- The session with a task at another place. -/
def setPhase (s : Session) (l : Task) (p : Phase) : Session :=
  { s with phase := Function.update s.phase l p }

@[simp] theorem setPhase_phase_self (s : Session) (l : Task) (p : Phase) :
    (s.setPhase l p).phase l = p := by
  simp only [setPhase, Function.update_self]

theorem setPhase_phase_of_ne (s : Session) {l l' : Task} (p : Phase) (h : l' ≠ l) :
    (s.setPhase l p).phase l' = s.phase l' := by
  simp only [setPhase, Function.update_of_ne h]

end Session

/-! ### Commands -/

/-- `"reConnect" | "reconnect"`. -/
def IsReconnect (cmd : ServerCommand) : Prop := cmd.type = "reConnect" ∨ cmd.type = "reconnect"

instance (cmd : ServerCommand) : Decidable (IsReconnect cmd) :=
  inferInstanceAs (Decidable (_ ∨ _))

/-- An `i64` plus one, with the overflow check. -/
def incrementI64 (n : ℤ) : Outcome ℤ := if n < 2 ^ 63 - 1 then .ok (n + 1) else .panic

/-- The number that `reConnect` sets: its detail, or else the clock.  `now` is the clock as an
`i64`, if it is not before 1970. -/
def newRandom (now : Option ℤ) (detail : String) (randomNumber : ℤ) : Outcome ℤ :=
  match parseSigned 64 detail with
  | some n => .ok n
  | none => do
      -- the argument of `unwrap_or` is evaluated in either case
      let next ← incrementI64 randomNumber
      return now.getD next

/-- What a command leaves behind: the number, the intervals, and whether a stream is left for
another registration. -/
structure Effect where
  randomNumber : ℤ
  intervals : Intervals
  reconnect : Bool

section Steps

variable (fromStr : String → Option Json.Value) (fromStrConf : String → Option ServerConf)

/-- A command whose texts have been logged has its effect, unless that has panicked. -/
def Session.effect (s : Session) (logged : Outcome (Intervals × List LogLine)) (now : Option ℤ)
    (cmd : ServerCommand) : Outcome Effect := do
  let (intervals, _) ← logged
  if IsReconnect cmd then
    let n ← newRandom now cmd.detail s.randomNumber
    return { randomNumber := n, intervals := intervals, reconnect := true }
  else return { randomNumber := s.randomNumber, intervals := intervals, reconnect := false }

/-- A command of the stream. -/
def Session.streamCommand (s : Session) (l : Task) (now : Option ℤ) (cmd : ServerCommand) :
    Session :=
  match s.effect (registerCommand fromStr fromStrConf cmd s.intervals) now cmd with
  | .ok e =>
      { s with randomNumber := e.randomNumber, intervals := e.intervals }.setPhase l
        (if e.reconnect then .due else .streaming)
  | .err _ | .panic => s.setPhase l .idle

/-- An answer to a heartbeat.  Whether to register again is not looked at. -/
def Session.heartbeatAnswer (s : Session) (now : Option ℤ) (cmd : ServerCommand) : Session :=
  match s.effect (heartbeatResponse fromStr fromStrConf cmd s.intervals) now cmd with
  | .ok e =>
      { s with randomNumber := e.randomNumber, intervals := e.intervals, heartbeat := .waiting }
  | .err _ | .panic => { s with heartbeat := .stopped }

/-! ### Steps -/

/-- The steps of the tasks. -/
inductive Event
  /-- The watcher finds the session without a connection and connects it. -/
  | connect
  /-- A task builds its request. -/
  | build (l : Task)
  /-- A task with a request gets the client. -/
  | call (l : Task)
  /-- A register call succeeds or fails. -/
  | result (l : Task) (success : Bool)
  /-- A command comes on the stream. -/
  | command (l : Task) (cmd : ServerCommand) (now : Option ℤ)
  /-- The stream ends, or fails. -/
  | streamEnd (l : Task)
  /-- A heartbeat is answered. -/
  | heartbeat (cmd : ServerCommand)
  /-- The answer is handled. -/
  | heartbeatHandled (now : Option ℤ)

/-- No register call is under way. -/
def Session.ClientFree (s : Session) : Prop :=
  ¬ (s.phase .main).HasClient ∧ ¬ (s.phase .watcher).HasClient

instance (s : Session) : Decidable s.ClientFree := inferInstanceAs (Decidable (_ ∧ _))

/-- One step of a task. -/
def step (s : Session) : Event → Option Session
  | .connect =>
      if s.connected = false ∧ s.phase .watcher = .idle then
        some ({ s with connected := true }.setPhase .watcher .due)
      else none
  | .build l =>
      if s.phase l = .due then some (s.setPhase l (.built s.randomNumber)) else none
  | .call l =>
      match s.phase l with
      | .built n =>
          if s.ClientFree then
            if s.connected then some ({ s with registered := some n }.setPhase l (.calling n))
            else some (s.setPhase l .idle)
          else none
      | _ => none
  | .result l success =>
      match s.phase l with
      | .calling _ => some (s.setPhase l (if success then .streaming else .idle))
      | _ => none
  | .command l cmd now =>
      if s.phase l = .streaming then some (s.streamCommand fromStr fromStrConf l now cmd) else none
  | .streamEnd l => if s.phase l = .streaming then some (s.setPhase l .idle) else none
  | .heartbeat cmd =>
      match s.heartbeat with
      | .waiting =>
          if s.connected ∧ s.ClientFree then some { s with heartbeat := .answered cmd } else none
      | _ => none
  | .heartbeatHandled now =>
      match s.heartbeat with
      | .answered cmd => some (s.heartbeatAnswer fromStr fromStrConf now cmd)
      | _ => none

end Steps

/-! ### The number of the last register call -/

namespace Session

/-- A register call is pending. -/
def Registering (s : Session) : Prop := ∃ l, (s.phase l).Pending

/-- All received commands have been handled, and no register call is pending. -/
structure AtRest (s : Session) : Prop where
  handled : ∀ cmd, s.heartbeat ≠ .answered cmd
  registered : ¬ s.Registering

/-- Besides the task, a command is not handled or a register call is pending. -/
def BusyBesides (s : Session) (l : Task) : Prop :=
  (∃ cmd, s.heartbeat = .answered cmd) ∨ ∃ l', l' ≠ l ∧ (s.phase l').Pending

/-- The last register call, if there was one, carried the number. -/
def Known (s : Session) (n : ℤ) : Prop := ∀ m, s.registered = some m → m = n

/-- What a task leaves when it moves. -/
theorem atRest_setPhase (s : Session) (l : Task) (p : Phase) :
    (s.setPhase l p).AtRest ↔ ¬ p.Pending ∧ ¬ s.BusyBesides l := by
  have hregistering : (s.setPhase l p).Registering ↔
      p.Pending ∨ ∃ l', l' ≠ l ∧ (s.phase l').Pending := by
    constructor
    · rintro ⟨l', hl'⟩
      by_cases heq : l' = l
      · subst heq
        exact Or.inl (by simpa using hl')
      · exact Or.inr ⟨l', heq, by rwa [setPhase_phase_of_ne s p heq] at hl'⟩
    · rintro (hp | ⟨l', hne, hl'⟩)
      · exact ⟨l, by simpa using hp⟩
      · exact ⟨l', by rwa [setPhase_phase_of_ne s p hne]⟩
  constructor
  · rintro ⟨hhandled, hreg⟩
    rw [hregistering, not_or] at hreg
    exact ⟨hreg.1, not_or.2 ⟨fun ⟨cmd, hcmd⟩ => hhandled cmd hcmd, hreg.2⟩⟩
  · rintro ⟨hp, hbusy⟩
    obtain ⟨hheart, hothers⟩ := not_or.1 hbusy
    exact ⟨fun cmd hcmd => hheart ⟨cmd, hcmd⟩, fun hreg => (hregistering.1 hreg).elim hp hothers⟩

/-- A task that moves between places without a pending call does not change whether the session is
at rest. -/
theorem atRest_of_setPhase {s : Session} {l : Task} {p : Phase} (hl : ¬ (s.phase l).Pending)
    (h : (s.setPhase l p).AtRest) : s.AtRest := by
  obtain ⟨-, hbusy⟩ := (atRest_setPhase s l p).1 h
  obtain ⟨hheart, hothers⟩ := not_or.1 hbusy
  refine ⟨fun cmd hcmd => hheart ⟨cmd, hcmd⟩, ?_⟩
  rintro ⟨l', hl'⟩
  by_cases heq : l' = l
  · exact hl (heq ▸ hl')
  · exact hothers ⟨l', heq, hl'⟩

end Session

/-- **At rest, the server knows the number**: the last register call carried it. -/
def Current (s : Session) : Prop := s.AtRest → s.Known s.randomNumber

theorem current_setPhase_pending (s : Session) (l : Task) {p : Phase} (hp : p.Pending) :
    Current (s.setPhase l p) :=
  fun hrest => absurd hp ((s.atRest_setPhase l p).1 hrest).1

/-- What holds of the phases and the last register call. -/
structure Sound (s : Session) : Prop where
  /-- A call under way is the last one. -/
  calling : ∀ l n, s.phase l = .calling n → s.registered = some n
  /-- Without a connection there was no call. -/
  offline : s.connected = false → s.registered = none

section Runs

variable {fromStr : String → Option Json.Value} {fromStrConf : String → Option ServerConf}

variable (fromStr) in
/-- The answer is a `reConnect` that sets the number: its texts are not cut inside a character. -/
def Sets (s : Session) (now : Option ℤ) (cmd : ServerCommand) (n : ℤ) : Prop :=
  IsReconnect cmd ∧ ¬ SummarySplits fromStr cmd.detail ∧
    newRandom now cmd.detail s.randomNumber = .ok n

variable (fromStr) in
/-- **The condition on a step.**  An answer to a heartbeat that is handled while no register call is
pending leaves the number that the last call carried.  A call whose result is the last thing to wait
for carried the number that the session has by then. -/
def KeepsCurrent (s : Session) : Event → Prop
  | .heartbeatHandled now => ∀ cmd, s.heartbeat = .answered cmd → s.Registering ∨
      (∀ n, Sets fromStr s now cmd n → s.Known n) ∧
        ((∀ n, ¬ Sets fromStr s now cmd n) → s.Known s.randomNumber)
  | .result l _ => ∀ n, s.phase l = .calling n → s.BusyBesides l ∨ n = s.randomNumber
  | _ => True

/-! ### What the steps do -/

theorem not_configSplits_of_isReconnect {cmd : ServerCommand} (h : IsReconnect cmd) :
    ¬ ConfigSplits fromStrConf cmd := by
  rintro ⟨htype, -⟩
  rcases h with h | h
  · exact absurd (h.symm.trans htype) (by decide)
  · exact absurd (h.symm.trans htype) (by decide)

theorem effect_randomNumber {s : Session} {logged : Outcome (Intervals × List LogLine)}
    {now : Option ℤ} {cmd : ServerCommand} {e : Effect} (h : s.effect logged now cmd = .ok e) :
    (IsReconnect cmd ∧ e.reconnect ∧
        newRandom now cmd.detail s.randomNumber = .ok e.randomNumber) ∨
      (¬ IsReconnect cmd ∧ ¬ e.reconnect ∧ e.randomNumber = s.randomNumber) := by
  obtain ⟨⟨intervals, lines⟩, -, h⟩ := Outcome.bind_eq_ok.1 h
  simp only at h
  split_ifs at h with hcmd
  · obtain ⟨n, hn, h⟩ := Outcome.bind_eq_ok.1 h
    cases h
    exact Or.inl ⟨hcmd, rfl, hn⟩
  · cases h
    exact Or.inr ⟨hcmd, Bool.false_ne_true, rfl⟩

variable (fromStr fromStrConf) in
/-- **A command of the stream** leads to another registration, or leaves the number alone. -/
theorem streamCommand_eq (s : Session) (l : Task) (now : Option ℤ) (cmd : ServerCommand) :
    ∃ n intervals p, s.streamCommand fromStr fromStrConf l now cmd =
        { s with randomNumber := n, intervals := intervals }.setPhase l p ∧
      (p = .due ∨ ¬ p.Pending ∧ n = s.randomNumber ∧ (p = .streaming ∨ p = .idle)) := by
  unfold Session.streamCommand
  cases heffect : s.effect (registerCommand fromStr fromStrConf cmd s.intervals) now cmd with
  | ok e =>
      refine ⟨_, _, _, rfl, ?_⟩
      rcases effect_randomNumber heffect with ⟨-, hre, -⟩ | ⟨-, hre, hn⟩
      · simp [hre]
      · simp [hre, hn]
  | err message => exact ⟨_, s.intervals, .idle, rfl, Or.inr ⟨id, rfl, Or.inr rfl⟩⟩
  | panic => exact ⟨_, s.intervals, .idle, rfl, Or.inr ⟨id, rfl, Or.inr rfl⟩⟩

variable (fromStrConf) in
/-- A `reConnect` whose texts can be cut is handled. -/
theorem effect_of_sets {s : Session} {now : Option ℤ} {cmd : ServerCommand} {n : ℤ}
    (h : Sets fromStr s now cmd n) :
    ∃ intervals, s.effect (heartbeatResponse fromStr fromStrConf cmd s.intervals) now cmd =
      .ok { randomNumber := n, intervals := intervals, reconnect := true } := by
  obtain ⟨hcmd, hsplits, hn⟩ := h
  have hconfig : ¬ ConfigSplits fromStrConf cmd := not_configSplits_of_isReconnect hcmd
  rcases heartbeatResponse_panicsIff fromStr fromStrConf cmd s.intervals with
    ⟨hpanic, -⟩ | ⟨-, ⟨intervals, lines⟩, hlogged⟩
  · exact absurd hpanic (not_or.2 ⟨hsplits, hconfig⟩)
  · refine ⟨intervals, ?_⟩
    simp only [hlogged, Session.effect, Outcome.ok_bind, if_pos hcmd, hn, Outcome.pure_eq]

theorem sets_of_effect {s : Session} {now : Option ℤ} {cmd : ServerCommand} {e : Effect}
    (h : s.effect (heartbeatResponse fromStr fromStrConf cmd s.intervals) now cmd = .ok e)
    (hcmd : IsReconnect cmd) : Sets fromStr s now cmd e.randomNumber := by
  rcases heartbeatResponse_panicsIff fromStr fromStrConf cmd s.intervals with
    ⟨-, hpanic⟩ | ⟨hsplits, -⟩
  · rw [hpanic] at h
    cases h
  · rcases effect_randomNumber h with ⟨-, -, hn⟩ | ⟨hnot, -⟩
    · exact ⟨hcmd, fun hs => hsplits (Or.inl hs), hn⟩
    · exact absurd hcmd hnot

variable (fromStr fromStrConf) in
/-- **An answer to a heartbeat** sets the number, or leaves it alone. -/
theorem heartbeatAnswer_eq (s : Session) (now : Option ℤ) (cmd : ServerCommand) :
    ∃ n intervals heartbeat, s.heartbeatAnswer fromStr fromStrConf now cmd =
        { s with randomNumber := n, intervals := intervals, heartbeat := heartbeat } ∧
      (∀ cmd', heartbeat ≠ .answered cmd') ∧
      (Sets fromStr s now cmd n ∨ (∀ m, ¬ Sets fromStr s now cmd m) ∧ n = s.randomNumber) := by
  unfold Session.heartbeatAnswer
  cases heffect : s.effect (heartbeatResponse fromStr fromStrConf cmd s.intervals) now cmd with
  | ok e =>
      refine ⟨_, _, _, rfl, fun _ => Heartbeat.noConfusion, ?_⟩
      by_cases hcmd : IsReconnect cmd
      · exact Or.inl (sets_of_effect heffect hcmd)
      · rcases effect_randomNumber heffect with ⟨hre, -⟩ | ⟨-, -, hn⟩
        · exact absurd hre hcmd
        · exact Or.inr ⟨fun m hm => hcmd hm.1, hn⟩
  | err message =>
      refine ⟨_, s.intervals, _, rfl, fun _ => Heartbeat.noConfusion, Or.inr ⟨?_, rfl⟩⟩
      intro m hm
      obtain ⟨intervals, hok⟩ := effect_of_sets fromStrConf hm
      exact absurd (hok.symm.trans heffect) (nomatch ·)
  | panic =>
      refine ⟨_, s.intervals, _, rfl, fun _ => Heartbeat.noConfusion, Or.inr ⟨?_, rfl⟩⟩
      intro m hm
      obtain ⟨intervals, hok⟩ := effect_of_sets fromStrConf hm
      exact absurd (hok.symm.trans heffect) (nomatch ·)

variable (fromStr) in
/-- What a step can do, with the number that a command leaves. -/
inductive Steps (s : Session) : Event → Session → Prop
  | connect (hconnected : s.connected = false) (hwatcher : s.phase .watcher = .idle) :
      Steps s .connect ({ s with connected := true }.setPhase .watcher .due)
  | build (l : Task) (hl : s.phase l = .due) :
      Steps s (.build l) (s.setPhase l (.built s.randomNumber))
  | call (l : Task) (n : ℤ) (hl : s.phase l = .built n) (hfree : s.ClientFree)
      (hconnected : s.connected = true) :
      Steps s (.call l) ({ s with registered := some n }.setPhase l (.calling n))
  | skip (l : Task) (n : ℤ) (hl : s.phase l = .built n) (hconnected : s.connected = false) :
      Steps s (.call l) (s.setPhase l .idle)
  | result (l : Task) (success : Bool) (n : ℤ) (p : Phase) (hl : s.phase l = .calling n)
      (hp : p = .streaming ∨ p = .idle) :
      Steps s (.result l success) (s.setPhase l p)
  | again (l : Task) (cmd : ServerCommand) (now : Option ℤ) (n : ℤ) (intervals : Intervals)
      (hl : s.phase l = .streaming) :
      Steps s (.command l cmd now)
        ({ s with randomNumber := n, intervals := intervals }.setPhase l .due)
  | command (l : Task) (cmd : ServerCommand) (now : Option ℤ) (intervals : Intervals) (p : Phase)
      (hl : s.phase l = .streaming) (hp : p = .streaming ∨ p = .idle) :
      Steps s (.command l cmd now) ({ s with intervals := intervals }.setPhase l p)
  | streamEnd (l : Task) (hl : s.phase l = .streaming) :
      Steps s (.streamEnd l) (s.setPhase l .idle)
  | heartbeat (cmd : ServerCommand) (hwaiting : s.heartbeat = .waiting) :
      Steps s (.heartbeat cmd) { s with heartbeat := .answered cmd }
  | heartbeatHandled (cmd : ServerCommand) (now : Option ℤ) (n : ℤ) (intervals : Intervals)
      (heartbeat : Heartbeat) (hanswered : s.heartbeat = .answered cmd)
      (hheartbeat : ∀ cmd', heartbeat ≠ .answered cmd')
      (hn : Sets fromStr s now cmd n ∨ (∀ m, ¬ Sets fromStr s now cmd m) ∧ n = s.randomNumber) :
      Steps s (.heartbeatHandled now)
        { s with randomNumber := n, intervals := intervals, heartbeat := heartbeat }

theorem steps_of_step {s t : Session} {e : Event} (h : step fromStr fromStrConf s e = some t) :
    Steps fromStr s e t := by
  cases e with
  | connect =>
      simp only [step] at h
      split_ifs at h with hguard
      cases h
      exact .connect hguard.1 hguard.2
  | build l =>
      simp only [step] at h
      split_ifs at h with hl
      cases h
      exact .build l hl
  | call l =>
      simp only [step] at h
      split at h
      · rename_i n hl
        split_ifs at h with hfree hconnected
        · cases h
          exact .call l n hl hfree hconnected
        · cases h
          exact .skip l n hl (by simpa using hconnected)
      · cases h
  | result l success =>
      simp only [step] at h
      split at h
      · rename_i n hl
        cases h
        refine .result l success n _ hl ?_
        cases success with
        | true => exact Or.inl rfl
        | false => exact Or.inr rfl
      · cases h
  | command l cmd now =>
      simp only [step] at h
      split_ifs at h with hl
      cases h
      obtain ⟨n, intervals, p, heq, hp⟩ := streamCommand_eq fromStr fromStrConf s l now cmd
      rw [heq]
      rcases hp with rfl | ⟨-, rfl, hp⟩
      · exact .again l cmd now n intervals hl
      · exact .command l cmd now intervals p hl hp
  | streamEnd l =>
      simp only [step] at h
      split_ifs at h with hl
      cases h
      exact .streamEnd l hl
  | heartbeat cmd =>
      simp only [step] at h
      split at h
      · rename_i hwaiting
        split_ifs at h
        cases h
        exact .heartbeat cmd hwaiting
      · cases h
  | heartbeatHandled now =>
      simp only [step] at h
      split at h
      · rename_i cmd hanswered
        cases h
        obtain ⟨n, intervals, heartbeat, heq, hheartbeat, hn⟩ :=
          heartbeatAnswer_eq fromStr fromStrConf s now cmd
        rw [heq]
        exact .heartbeatHandled cmd now n intervals heartbeat hanswered hheartbeat hn
      · cases h

/-! ### Runs -/

theorem not_pending_of_streaming_or_idle {p : Phase} (hp : p = .streaming ∨ p = .idle) :
    ¬ p.Pending := by
  rcases hp with rfl | rfl
  · exact id
  · exact id

/-- A call under way is that of a task that has not moved. -/
theorem Sound.setPhase {s s' : Session} {l : Task} {p : Phase} (h : Sound s)
    (hphase : s'.phase = s.phase) (hregistered : s'.registered = s.registered)
    (hconnected : s'.connected = false → s.connected = false) (hp : ∀ n, p ≠ .calling n) :
    Sound (s'.setPhase l p) where
  calling l' n hl' := by
    by_cases heq : l' = l
    · subst heq
      rw [Session.setPhase_phase_self] at hl'
      exact absurd hl' (hp n)
    · rw [Session.setPhase_phase_of_ne s' p heq, hphase] at hl'
      exact hregistered.trans (h.calling l' n hl')
  offline hconn := hregistered.trans (h.offline (hconnected hconn))

theorem ClientFree.not_hasClient {s : Session} (h : s.ClientFree) :
    ∀ l, ¬ (s.phase l).HasClient
  | .main => h.1
  | .watcher => h.2

/-- **What holds of the phases is kept.** -/
theorem sound_step {s t : Session} {e : Event} (h : Sound s)
    (hstep : step fromStr fromStrConf s e = some t) : Sound t := by
  cases steps_of_step hstep with
  | connect hconnected hwatcher => exact h.setPhase rfl rfl (nomatch ·) (fun _ => nofun)
  | build l hl => exact h.setPhase rfl rfl id (fun _ => nofun)
  | call l n hl hfree hconnected =>
      refine ⟨fun l' n' hl' => ?_, fun hconn => ?_⟩
      · by_cases heq : l' = l
        · subst heq
          rw [Session.setPhase_phase_self] at hl'
          cases hl'
          rfl
        · -- no other task has the client
          rw [Session.setPhase_phase_of_ne _ _ heq] at hl'
          exact absurd (hl' ▸ trivial) (ClientFree.not_hasClient hfree l')
      · exact absurd (hconnected.symm.trans hconn) (nomatch ·)
  | skip l n hl hconnected => exact h.setPhase rfl rfl id (fun _ => nofun)
  | result l success n p hl hp =>
      exact h.setPhase rfl rfl id (fun n => by rcases hp with rfl | rfl <;> nofun)
  | again l cmd now n intervals hl => exact h.setPhase rfl rfl id (fun _ => nofun)
  | command l cmd now intervals p hl hp =>
      exact h.setPhase rfl rfl id (fun n => by rcases hp with rfl | rfl <;> nofun)
  | streamEnd l hl => exact h.setPhase rfl rfl id (fun _ => nofun)
  | heartbeat cmd hwaiting => exact ⟨h.calling, h.offline⟩
  | heartbeatHandled cmd now n intervals heartbeat => exact ⟨h.calling, h.offline⟩

/-- **One step**: the server knows the number afterwards exactly if the step meets the condition. -/
theorem current_step {s t : Session} {e : Event} (h : Sound s) (hs : Current s)
    (hstep : step fromStr fromStrConf s e = some t) : Current t ↔ KeepsCurrent fromStr s e := by
  cases steps_of_step hstep with
  | connect hconnected hwatcher => exact iff_of_true (current_setPhase_pending _ _ trivial) trivial
  | build l hl => exact iff_of_true (current_setPhase_pending _ _ trivial) trivial
  | call l n hl hfree hconnected =>
      exact iff_of_true (current_setPhase_pending _ _ trivial) trivial
  | skip l n hl hconnected =>
      refine iff_of_true (fun _ m hm => ?_) trivial
      exact absurd ((h.offline hconnected).symm.trans hm) (nomatch ·)
  | result l success n p hl hp =>
      have hregistered : s.registered = some n := h.calling l n hl
      have hrest : (s.setPhase l p).AtRest ↔ ¬ s.BusyBesides l := by
        rw [Session.atRest_setPhase, and_iff_right (not_pending_of_streaming_or_idle hp)]
      have hknown : s.Known s.randomNumber ↔ n = s.randomNumber := by
        simp [Session.Known, hregistered]
      have hcurrent : Current (s.setPhase l p) ↔ (¬ s.BusyBesides l → n = s.randomNumber) := by
        rw [Current, hrest, ← hknown]
        rfl
      rw [hcurrent, KeepsCurrent]
      simp only [hl, Phase.calling.injEq, forall_eq', or_iff_not_imp_left]
  | again l cmd now n intervals hl =>
      exact iff_of_true (current_setPhase_pending _ _ trivial) trivial
  | command l cmd now intervals p hl hp =>
      refine iff_of_true (fun hrest => ?_) trivial
      have hidle : ¬ (s.phase l).Pending := hl ▸ id
      obtain ⟨hhandled, hreg⟩ := Session.atRest_of_setPhase (s := { s with intervals := intervals })
        hidle hrest
      exact hs ⟨hhandled, hreg⟩
  | streamEnd l hl =>
      refine iff_of_true (fun hrest => ?_) trivial
      have hidle : ¬ (s.phase l).Pending := hl ▸ id
      exact hs (Session.atRest_of_setPhase hidle hrest)
  | heartbeat cmd hwaiting =>
      exact iff_of_true (fun hrest => absurd rfl (hrest.handled cmd)) trivial
  | heartbeatHandled cmd now n intervals heartbeat hanswered hheartbeat hn =>
      -- afterwards the session is at rest unless a register call is pending
      have hcurrent : Current
          { s with randomNumber := n, intervals := intervals, heartbeat := heartbeat } ↔
            s.Registering ∨ s.Known n := by
        constructor
        · intro ht
          by_cases hreg : s.Registering
          · exact Or.inl hreg
          · exact Or.inr (ht ⟨hheartbeat, hreg⟩)
        · rintro (hreg | hknown)
          · exact fun hrest => absurd hreg hrest.registered
          · exact fun _ => hknown
      rw [hcurrent, KeepsCurrent]
      simp only [hanswered, Heartbeat.answered.injEq, forall_eq']
      refine or_congr_right ?_
      rcases hn with hsets | ⟨hnone, rfl⟩
      · constructor
        · intro hknown
          refine ⟨fun m hm => ?_, fun hnone => absurd hsets (hnone n)⟩
          cases hsets.2.2.symm.trans hm.2.2
          exact hknown
        · exact fun hall => hall.1 n hsets
      · exact ⟨fun hknown => ⟨fun m hm => absurd hm (hnone m), fun _ => hknown⟩,
          fun hall => hall.2 hnone⟩

theorem sound_start (randomNumber : ℤ) (connected : Bool) (intervals : Intervals) :
    Sound (start randomNumber connected intervals) where
  calling l n hl := by cases l <;> cases hl
  offline _ := rfl

theorem current_start (randomNumber : ℤ) (connected : Bool) (intervals : Intervals) :
    Current (start randomNumber connected intervals) :=
  fun _ _ hm => (nomatch hm)

theorem keepsCurrent_of_disabled {s : Session} {e : Event}
    (h : step fromStr fromStrConf s e = none) : KeepsCurrent fromStr s e := by
  cases e with
  | heartbeatHandled now =>
      intro cmd hcmd
      simp only [step, hcmd, reduceCtorEq] at h
  | result l success =>
      intro n hl
      simp only [step, hl, reduceCtorEq] at h
  | connect | build | call | command | streamEnd | heartbeat => trivial

variable (fromStr fromStrConf) in
/-- **The server knows the number** in every state of a run that is at rest exactly when every step
meets the condition. -/
theorem current_iff (randomNumber : ℤ) (connected : Bool) (intervals : Intervals)
    (events : List Event) :
    Lts.Always (step fromStr fromStrConf) Current (start randomNumber connected intervals) events ↔
      Lts.Along (step fromStr fromStrConf) (KeepsCurrent fromStr)
        (start randomNumber connected intervals) events := by
  rw [Lts.always_iff_along (fun _ _ _ hs => sound_step hs) (fun _ _ _ hs => current_step hs)
    (sound_start randomNumber connected intervals) (current_start randomNumber connected intervals)]
  exact Lts.along_congr fun s e => ⟨fun h => h.elim keepsCurrent_of_disabled id, Or.inr⟩

/-- A registered session whose heartbeat is answered with `reConnect` keeps the number that it set,
and the server does not. -/
theorem heartbeat_reconnect_not_current :
    ¬ Lts.Always (step (fun _ => none) (fun _ => none)) Current (start 1 true defaultIntervals)
      [.build .main, .call .main, .result .main true,
        .heartbeat { type := "reConnect", detail := "42" }, .heartbeatHandled none] := by
  intro h
  have hcurrent := h.last rfl
  have hwaiting (cmd : ServerCommand) : Heartbeat.waiting ≠ .answered cmd := nofun
  have hknown := hcurrent ⟨hwaiting, fun ⟨l, hl⟩ => by cases l <;> exact hl⟩
  have heq : (1 : ℤ) = 42 := hknown 1 rfl
  exact absurd heq (by decide)

/-! ### Streams alone -/

/-- An answer to a heartbeat is no `reConnect`, and the watcher connects when the task of the start
does not register any more. -/
def StreamsOnly (s : Session) : Event → Prop
  | .connect => s.phase .main = .idle
  | .heartbeat cmd => ¬ IsReconnect cmd
  | _ => True

/-- One task registers, and a request that is built carries the number of the session. -/
structure Renewed (s : Session) : Prop where
  alone : ∀ l l', s.phase l ≠ .idle → s.phase l' ≠ .idle → l = l'
  heartbeat : ∀ cmd, s.heartbeat = .answered cmd → ¬ IsReconnect cmd
  carried : ∀ l n, s.phase l = .built n → n = s.randomNumber
  known : (∀ l, s.phase l ≠ .due ∧ ∀ n, s.phase l ≠ .built n) → s.Known s.randomNumber

theorem Renewed.others_idle {s : Session} (h : Renewed s) {l : Task} (hl : s.phase l ≠ .idle) :
    ∀ l', l' ≠ l → s.phase l' = .idle := by
  intro l' hne
  by_contra hl'
  exact hne (h.alone l' l hl' hl)

/-- The task that registers has made its call. -/
theorem Renewed.known_of_called {s : Session} (h : Renewed s) {l : Task} (hidle : s.phase l ≠ .idle)
    (hdue : s.phase l ≠ .due) (hbuilt : ∀ n, s.phase l ≠ .built n) : s.Known s.randomNumber := by
  refine h.known fun l' => ?_
  by_cases heq : l' = l
  · exact heq ▸ ⟨hdue, hbuilt⟩
  · rw [h.others_idle hidle l' heq]
    exact ⟨nofun, fun _ => nofun⟩

theorem renewed_setPhase {s : Session} {l : Task} {p : Phase}
    (hothers : ∀ l', l' ≠ l → s.phase l' = .idle)
    (hheartbeat : ∀ cmd, s.heartbeat = .answered cmd → ¬ IsReconnect cmd)
    (hcarried : ∀ n, p = .built n → n = s.randomNumber)
    (hknown : p ≠ .due → (∀ n, p ≠ .built n) → s.Known s.randomNumber) :
    Renewed (s.setPhase l p) := by
  have hphase (l' : Task) (hne : l' ≠ l) : (s.setPhase l p).phase l' = .idle :=
    (s.setPhase_phase_of_ne p hne).trans (hothers l' hne)
  have honly (l' : Task) (hl' : (s.setPhase l p).phase l' ≠ .idle) : l' = l := by
    by_contra hne
    exact hl' (hphase l' hne)
  refine ⟨?_, hheartbeat, ?_, ?_⟩
  · intro l₁ l₂ h₁ h₂
    exact (honly l₁ h₁).trans (honly l₂ h₂).symm
  · intro l' n hl'
    have heq : l' = l := honly l' fun hidle => nomatch hidle.symm.trans hl'
    rw [heq, Session.setPhase_phase_self] at hl'
    exact hcarried n hl'
  · intro hcalled
    obtain ⟨hdue, hbuilt⟩ := hcalled l
    rw [Session.setPhase_phase_self] at hdue hbuilt
    exact hknown hdue hbuilt

/-- **One step** of a run of streams alone. -/
theorem renewed_step {s t : Session} {e : Event} (hsound : Sound s) (h : Renewed s)
    (he : StreamsOnly s e) (hstep : step fromStr fromStrConf s e = some t) : Renewed t := by
  cases steps_of_step hstep with
  | connect hconnected hwatcher =>
      have hothers : ∀ l', l' ≠ .watcher → s.phase l' = .idle
        | .main, _ => he
        | .watcher, hne => absurd rfl hne
      exact renewed_setPhase hothers h.heartbeat (fun _ => nofun) (fun hdue => absurd rfl hdue)
  | build l hl =>
      have hactive : s.phase l ≠ .idle := hl ▸ nofun
      exact renewed_setPhase (h.others_idle hactive) h.heartbeat
        (fun n hn => (Phase.built.inj hn).symm) (fun _ hbuilt => absurd rfl (hbuilt _))
  | call l n hl hfree hconnected =>
      have hactive : s.phase l ≠ .idle := hl ▸ nofun
      -- the request carries the number that the server knows from now on
      exact renewed_setPhase (h.others_idle hactive) h.heartbeat (fun _ => nofun)
        (fun _ _ m hm => (Option.some.inj hm).symm.trans (h.carried l n hl))
  | skip l n hl hconnected =>
      have hactive : s.phase l ≠ .idle := hl ▸ nofun
      exact renewed_setPhase (h.others_idle hactive) h.heartbeat (fun _ => nofun)
        (fun _ _ m hm => nomatch (hsound.offline hconnected).symm.trans hm)
  | result l success n p hl hp =>
      have hactive : s.phase l ≠ .idle := hl ▸ nofun
      exact renewed_setPhase (h.others_idle hactive) h.heartbeat
        (fun _ hn => by rcases hp with rfl | rfl <;> cases hn)
        (fun _ _ => h.known_of_called hactive (hl ▸ nofun) (fun _ => hl ▸ nofun))
  | again l cmd now n intervals hl =>
      have hactive : s.phase l ≠ .idle := hl ▸ nofun
      exact renewed_setPhase (h.others_idle hactive) h.heartbeat (fun _ => nofun)
        (fun hdue => absurd rfl hdue)
  | command l cmd now intervals p hl hp =>
      have hactive : s.phase l ≠ .idle := hl ▸ nofun
      exact renewed_setPhase (h.others_idle hactive) h.heartbeat
        (fun _ hn => by rcases hp with rfl | rfl <;> cases hn)
        (fun _ _ => h.known_of_called hactive (hl ▸ nofun) (fun _ => hl ▸ nofun))
  | streamEnd l hl =>
      have hactive : s.phase l ≠ .idle := hl ▸ nofun
      exact renewed_setPhase (h.others_idle hactive) h.heartbeat (fun _ => nofun)
        (fun _ _ => h.known_of_called hactive (hl ▸ nofun) (fun _ => hl ▸ nofun))
  | heartbeat cmd hwaiting =>
      exact ⟨h.alone, fun cmd' hcmd' => Heartbeat.answered.inj hcmd' ▸ he, h.carried, h.known⟩
  | heartbeatHandled cmd now n intervals heartbeat hanswered hheartbeat hn =>
      rcases hn with hsets | ⟨-, rfl⟩
      · exact absurd hsets.1 (h.heartbeat cmd hanswered)
      · exact ⟨h.alone, fun cmd' hcmd' => absurd hcmd' (hheartbeat cmd'), h.carried, h.known⟩

theorem renewed_start (randomNumber : ℤ) (connected : Bool) (intervals : Intervals) :
    Renewed (start randomNumber connected intervals) where
  alone
    | .main, .main, _, _ => rfl
    | .watcher, .watcher, _, _ => rfl
    | .watcher, .main, hwatcher, _ => absurd rfl hwatcher
    | .main, .watcher, _, hwatcher => absurd rfl hwatcher
  heartbeat _ := nofun
  carried l n hl := by cases l <;> cases hl
  known hcalled := absurd rfl (hcalled .main).1

/-- **The streams alone** never leave the server with an old number: a run in which one task
registers at a time, and no heartbeat is answered with `reConnect`, leads to states in which, at
rest, the last register call carried the number. -/
theorem current_of_streams {randomNumber : ℤ} {connected : Bool} {intervals : Intervals}
    {events : List Event} {t : Session}
    (hevents : Lts.Along (step fromStr fromStrConf) StreamsOnly
      (start randomNumber connected intervals) events)
    (hrun : Lts.run (step fromStr fromStrConf) (start randomNumber connected intervals) events =
      some t) : Current t := by
  have hinvariant : Sound t ∧ Renewed t :=
    Lts.run_invariant (I := fun s => Sound s ∧ Renewed s)
      (fun _ _ _ he hs hstep => ⟨sound_step hs.1 hstep, renewed_step hs.1 hs.2 he hstep⟩)
      ⟨sound_start randomNumber connected intervals, renewed_start randomNumber connected intervals⟩
      hevents hrun
  intro hrest
  refine hinvariant.2.known fun l => ⟨fun hdue => ?_, fun n hbuilt => ?_⟩
  · exact hrest.registered ⟨l, hdue ▸ trivial⟩
  · exact hrest.registered ⟨l, hbuilt ▸ trivial⟩

end Runs

end Registration

end FillingPilot
