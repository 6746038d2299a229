/-
The numbers that messages carry.

A register call, a heartbeat and a response are signed with the random number that the session has
when the message is built.  The client is awaited after that, and `reConnect` may have set another
number by then.  Each task builds one message at a time: a task that registers also sends the
responses to the commands of its stream, and takes no other step before such a response is sent.

Main definitions:

* `FillingPilot.Registration.Wire` — the session with what its tasks have built and sent;
* `FillingPilot.Registration.Wire.step` — a step of the session or of a task that sends;
* `FillingPilot.Registration.Wire.stamp` — the numbers alone;
* `FillingPilot.Registration.Wire.Answering` — only a task that reads its stream has a response.

Main results:

* `FillingPilot.Registration.Wire.step_follows` — what a step does to the numbers;
* `FillingPilot.Registration.Wire.run_follows` — and a run;
* `FillingPilot.Registration.outdated_le_reconnects` — **a `reConnect` makes at most one message of
  each task outdated**.
-/

import FillingPilot.Registration
import FillingPilot.Simulation
import FillingPilot.Stamp

set_option relaxedAutoImplicit false
set_option autoImplicit false

namespace FillingPilot

namespace Registration

open Rust

universe u

/-! ### Messages -/

/-- The number of a request that waits for the client. -/
def Phase.number : Phase → Option ℤ
  | .built n => some n
  | _ => none

/-- The session, the numbers of the heartbeats and responses that wait for the client, and what was
sent: by the tasks that register, and by the other senders. -/
structure Wire (S : Type u) where
  session : Session
  loaded : Task ⊕ S → Option ℤ
  sent : List (Stamp.Use (Task ⊕ S) ℤ)

/-- What can happen. -/
inductive WireEvent (S : Type u)
  /-- A step of the session. -/
  | session (e : Event)
  /-- `build_ecn_info` of a heartbeat, or the start of `send_plc_response`. -/
  | load (t : Task ⊕ S)
  /-- The sender gets the client. -/
  | send (t : Task ⊕ S)

/-- The registering task that takes a step of the session. -/
def Event.task : Event → Option Task
  | .connect => some .watcher
  | .build l | .call l | .result l _ | .command l _ _ | .streamEnd l => some l
  | .heartbeat _ | .heartbeatHandled _ => none

/-- The command of an event is a `reConnect`. -/
def Event.isReconnect : Event → Bool
  | .command _ cmd _ => IsReconnect cmd
  | .heartbeat cmd => IsReconnect cmd
  | _ => false

/-- A `reConnect` is received. -/
def WireEvent.isReconnect {S : Type u} : WireEvent S → Bool
  | .session e => e.isReconnect
  | _ => false

variable {S : Type u}

/-- The register call of a step. -/
def Session.calls (s : Session) : Event → List (Stamp.Use (Task ⊕ S) ℤ)
  | .call l =>
      match s.phase l with
      | .built n => if s.connected then [⟨.inl l, n, s.randomNumber⟩] else []
      | _ => []
  | _ => []

namespace Wire

/-- A session whose senders have built nothing. -/
def start (s : Session) : Wire S where
  session := s
  loaded _ := none
  sent := []

section Steps

variable [DecidableEq S]
variable (fromStr : String → Option Json.Value) (fromStrConf : String → Option ServerConf)

/-- A task that registers sends responses while it reads its stream. -/
def CanLoad (w : Wire S) : Task ⊕ S → Prop
  | .inl l => w.session.phase l = .streaming
  | .inr _ => True

instance (w : Wire S) : DecidablePred w.CanLoad
  | .inl l => inferInstanceAs (Decidable (w.session.phase l = .streaming))
  | .inr _ => inferInstanceAs (Decidable True)

/-- One step.  Without a connection the message is dropped. -/
def step (w : Wire S) : WireEvent S → Option (Wire S)
  | .session e =>
      if ∀ l ∈ e.task, w.loaded (.inl l) = none then
        (Registration.step fromStr fromStrConf w.session e).map fun s =>
          { w with session := s, sent := w.sent ++ w.session.calls e }
      else none
  | .load t =>
      if w.loaded t = none ∧ w.CanLoad t then
        some { w with loaded := Function.update w.loaded t (some w.session.randomNumber) }
      else none
  | .send t =>
      match w.loaded t with
      | some n =>
          if w.session.ClientFree then
            some { w with
              loaded := Function.update w.loaded t none
              sent := w.sent ++
                if w.session.connected then [⟨t, n, w.session.randomNumber⟩] else [] }
          else none
      | none => none

end Steps

/-! ### The numbers alone -/

/-- The number of the register call that waits for the client. -/
def number (s : Session) : Task ⊕ S → Option ℤ :=
  Sum.elim (fun l => (s.phase l).number) fun _ => none

/-- The number of the session, those of the messages that wait, and the messages sent. -/
def stamp (w : Wire S) : Stamp.State (Task ⊕ S) ℤ where
  value := w.session.randomNumber
  taken t := (number w.session t).or (w.loaded t)
  uses := w.sent

/-- A response of a task that registers waits only while the task reads its stream. -/
def Answering (w : Wire S) : Prop :=
  ∀ l, w.loaded (.inl l) ≠ none → w.session.phase l = .streaming

/-- A task that reads its stream has no register call, nor has another sender. -/
theorem number_of_canLoad {w : Wire S} {t : Task ⊕ S} (h : w.CanLoad t) :
    number w.session t = none := by
  cases t with
  | inl l =>
      have hphase : w.session.phase l = .streaming := h
      rw [number, Sum.elim_inl, hphase]
      rfl
  | inr s => rfl

theorem stamp_taken_of_canLoad {w : Wire S} {t : Task ⊕ S} (ht : w.CanLoad t) :
    w.stamp.taken t = w.loaded t := by
  show (number w.session t).or (w.loaded t) = w.loaded t
  rw [number_of_canLoad ht, Option.none_or]

theorem Answering.canLoad {w : Wire S} (hw : w.Answering) {t : Task ⊕ S} (ht : w.loaded t ≠ none) :
    w.CanLoad t := by
  cases t with
  | inl l => exact hw l ht
  | inr s => trivial

theorem stamp_taken_inl {s : Session} {loaded : Task ⊕ S → Option ℤ}
    (sent : List (Stamp.Use (Task ⊕ S) ℤ)) {l : Task} (h : loaded (.inl l) = none) :
    (Wire.mk s loaded sent).stamp.taken (.inl l) = (s.phase l).number := by
  show ((s.phase l).number).or (loaded (.inl l)) = _
  rw [h, Option.or_none]

section Numbers

variable [DecidableEq S]

theorem stamp_setPhase (s : Session) {loaded : Task ⊕ S → Option ℤ}
    (sent : List (Stamp.Use (Task ⊕ S) ℤ)) {l : Task} (h : loaded (.inl l) = none) (p : Phase) :
    (Wire.mk (s.setPhase l p) loaded sent).stamp =
      (Wire.mk s loaded sent).stamp.put (.inl l) p.number := by
  have htaken : (fun t => (number (s.setPhase l p) t).or (loaded t)) =
      Function.update (fun t => (number s t).or (loaded t)) (.inl l) p.number := by
    funext t
    by_cases ht : t = .inl l
    · subst ht
      rw [Function.update_self, h, Option.or_none, number, Sum.elim_inl,
        Session.setPhase_phase_self]
    · rw [Function.update_of_ne ht]
      cases t with
      | inl l' =>
          have hne : l' ≠ l := fun heq => ht (congrArg Sum.inl heq)
          rw [number, number, Sum.elim_inl, Sum.elim_inl, Session.setPhase_phase_of_ne s p hne]
      | inr t => rfl
  rw [stamp, Stamp.State.put]
  exact congrArg (fun taken => (⟨s.randomNumber, taken, sent⟩ : Stamp.State (Task ⊕ S) ℤ)) htaken

/-- A task that moves between places without a request leaves the numbers alone, up to that of the
session. -/
theorem stamp_moved {s s' : Session} {loaded : Task ⊕ S → Option ℤ}
    (sent : List (Stamp.Use (Task ⊕ S) ℤ)) {l : Task} {p : Phase} (h : loaded (.inl l) = none)
    (hphase : s'.phase = s.phase) (hl : (s.phase l).number = none) (hp : p.number = none) :
    (Wire.mk (s'.setPhase l p) loaded sent).stamp =
      { (Wire.mk s loaded sent).stamp with value := s'.randomNumber } := by
  have htaken : (Wire.mk s' loaded sent).stamp.taken (.inl l) = none := by
    rw [stamp_taken_inl sent h, hphase, hl]
  rw [stamp_setPhase s' sent h, hp, Stamp.put_eq_self htaken]
  simp only [stamp, number, hphase]

theorem stamp_loaded {s : Session} (loaded : Task ⊕ S → Option ℤ)
    (sent : List (Stamp.Use (Task ⊕ S) ℤ)) {t : Task ⊕ S} (h : number s t = none)
    (held : Option ℤ) :
    (Wire.mk s (Function.update loaded t held) sent).stamp =
      (Wire.mk s loaded sent).stamp.put t held := by
  have htaken : (fun t' => (number s t').or (Function.update loaded t held t')) =
      Function.update (fun t' => (number s t').or (loaded t')) t held := by
    funext t'
    by_cases ht : t' = t
    · subst ht
      rw [Function.update_self, Function.update_self, h, Option.none_or]
    · rw [Function.update_of_ne ht, Function.update_of_ne ht]
  rw [stamp, Stamp.State.put]
  exact congrArg (fun taken => (⟨s.randomNumber, taken, sent⟩ : Stamp.State (Task ⊕ S) ℤ)) htaken

end Numbers

end Wire

/-! ### Steps of the session -/

/-- An answer to a heartbeat that is a `reConnect` and is not handled, which counts as one. -/
def Session.pendingReconnect (s : Session) : ℕ :=
  match s.heartbeat with
  | .answered cmd => if IsReconnect cmd then 1 else 0
  | _ => 0

section Follows

variable {fromStr : String → Option Json.Value} {fromStrConf : String → Option ServerConf}

variable (fromStr fromStrConf) in
/-- **A command of the stream** other than `reConnect` leaves the number alone, and no request is
built with it. -/
theorem streamCommand_number (s : Session) (l : Task) (now : Option ℤ) (cmd : ServerCommand) :
    ∃ n intervals p, s.streamCommand fromStr fromStrConf l now cmd =
        { s with randomNumber := n, intervals := intervals }.setPhase l p ∧
      p.number = none ∧ (IsReconnect cmd ∨ n = s.randomNumber) := by
  unfold Session.streamCommand
  cases heffect : s.effect (registerCommand fromStr fromStrConf cmd s.intervals) now cmd with
  | ok e =>
      refine ⟨_, _, _, rfl, ?_, ?_⟩
      · split_ifs <;> rfl
      · exact (effect_randomNumber heffect).imp And.left fun h => h.2.2
  | err message => exact ⟨_, s.intervals, .idle, rfl, rfl, Or.inr rfl⟩
  | panic => exact ⟨_, s.intervals, .idle, rfl, rfl, Or.inr rfl⟩

namespace Wire

variable [DecidableEq S]

/-- A setting of the number, unless it stays as it is. -/
theorem run_set (st : Stamp.State (Task ⊕ S) ℤ) (n : ℤ) {c : ℕ} (h : 1 ≤ c ∨ n = st.value) :
    ∃ labels, Lts.run Stamp.step st labels = some { st with value := n } ∧
      labels.countP Stamp.Event.isSet ≤ c := by
  rcases h with hc | rfl
  · exact ⟨[.set n], rfl, by simpa [Stamp.Event.isSet] using hc⟩
  · exact ⟨[], rfl, by simp⟩

theorem moved_follows {s s' : Session} {loaded : Task ⊕ S → Option ℤ}
    (sent : List (Stamp.Use (Task ⊕ S) ℤ)) {l : Task} {p : Phase} {c : ℕ}
    (hloaded : loaded (.inl l) = none) (hphase : s'.phase = s.phase)
    (hheartbeat : s'.heartbeat = s.heartbeat) (hl : (s.phase l).number = none)
    (hp : p.number = none) (hn : 1 ≤ c ∨ s'.randomNumber = s.randomNumber) :
    ∃ labels,
      Lts.run Stamp.step (Wire.mk s loaded sent).stamp labels =
        some (Wire.mk (s'.setPhase l p) loaded sent).stamp ∧
      labels.countP Stamp.Event.isSet + (s'.setPhase l p).pendingReconnect ≤
        s.pendingReconnect + c := by
  obtain ⟨labels, hrun, hcount⟩ := run_set (Wire.mk s loaded sent).stamp s'.randomNumber hn
  have hpending : (s'.setPhase l p).pendingReconnect = s.pendingReconnect := by
    rw [Session.pendingReconnect, Session.pendingReconnect, Session.setPhase, hheartbeat]
  refine ⟨labels, ?_, ?_⟩
  · rw [stamp_moved sent hloaded hphase hl hp, hrun]
  · rw [hpending, Nat.add_comm]
    exact Nat.add_le_add_left hcount _

/-- A step that is a single label, which sets no number. -/
theorem label_follows {w w' : Wire S} {c : ℕ} (label : Stamp.Event (Task ⊕ S) ℤ)
    (hstep : Stamp.step w.stamp label = some w'.stamp) (hset : label.isSet = false)
    (hheartbeat : w'.session.heartbeat = w.session.heartbeat) :
    ∃ labels, Lts.run Stamp.step w.stamp labels = some w'.stamp ∧
      labels.countP Stamp.Event.isSet + w'.session.pendingReconnect ≤
        w.session.pendingReconnect + c := by
  refine ⟨[label], Lts.run_cons.2 ⟨_, hstep, rfl⟩, ?_⟩
  have hcount : [label].countP Stamp.Event.isSet = 0 := by simp [hset]
  have hpending : w'.session.pendingReconnect = w.session.pendingReconnect := by
    rw [Session.pendingReconnect, Session.pendingReconnect, hheartbeat]
  rw [hcount, hpending, Nat.zero_add]
  exact Nat.le_add_right _ _

/-- An answer that is handled pays for the setting, if it is a `reConnect`. -/
theorem handled_follows (s : Session) (loaded : Task ⊕ S → Option ℤ)
    (sent : List (Stamp.Use (Task ⊕ S) ℤ)) {cmd : ServerCommand} {n : ℤ} (intervals : Intervals)
    {heartbeat : Heartbeat} {c : ℕ} (hanswered : s.heartbeat = .answered cmd)
    (hheartbeat : ∀ cmd', heartbeat ≠ .answered cmd')
    (hn : IsReconnect cmd ∨ n = s.randomNumber) :
    ∃ labels,
      Lts.run Stamp.step (Wire.mk s loaded sent).stamp labels =
        some (Wire.mk { s with
          randomNumber := n, intervals := intervals, heartbeat := heartbeat } loaded sent).stamp ∧
      labels.countP Stamp.Event.isSet + Session.pendingReconnect { s with
          randomNumber := n, intervals := intervals, heartbeat := heartbeat } ≤
        s.pendingReconnect + c := by
  have hpay : 1 ≤ s.pendingReconnect ∨ n = s.randomNumber := by
    refine hn.imp_left fun hcmd => ?_
    rw [Session.pendingReconnect, hanswered]
    simp [hcmd]
  obtain ⟨labels, hrun, hcount⟩ := run_set (Wire.mk s loaded sent).stamp n hpay
  -- no answer is left
  have hdone : Session.pendingReconnect { s with
      randomNumber := n, intervals := intervals, heartbeat := heartbeat } = 0 := by
    cases heartbeat with
    | answered cmd' => exact absurd rfl (hheartbeat cmd')
    | waiting => rfl
    | stopped => rfl
  refine ⟨labels, ?_, ?_⟩
  · rw [hrun]
    rfl
  · rw [hdone]
    exact hcount.trans (Nat.le_add_right _ _)

/-- What the session does to the numbers: a `reConnect` pays for the setting, when it is received
on a stream or when the answer of a heartbeat is handled. -/
theorem session_follows (s : Session) {loaded : Task ⊕ S → Option ℤ}
    (sent : List (Stamp.Use (Task ⊕ S) ℤ)) {t : Session} {e : Event}
    (hloaded : ∀ l ∈ e.task, loaded (.inl l) = none)
    (h : Registration.step fromStr fromStrConf s e = some t) :
    ∃ labels,
      Lts.run Stamp.step (Wire.mk s loaded sent).stamp labels =
        some (Wire.mk t loaded (sent ++ s.calls e)).stamp ∧
      labels.countP Stamp.Event.isSet + t.pendingReconnect ≤
        s.pendingReconnect + if e.isReconnect then 1 else 0 := by
  cases e with
  | connect =>
      cases steps_of_step h with
      | connect hconnected hwatcher =>
          simp only [Session.calls, List.append_nil]
          exact moved_follows sent (hloaded _ rfl) rfl rfl (hwatcher ▸ rfl) rfl (Or.inr rfl)
  | build l =>
      cases steps_of_step h with
      | build l hl =>
          have hnone : (Wire.mk s loaded sent).stamp.taken (.inl l) = none := by
            rw [stamp_taken_inl sent (hloaded l rfl), hl]
            rfl
          refine label_follows (.take (.inl l)) ?_ rfl rfl
          simp only [Session.calls, List.append_nil, stamp_setPhase s sent (hloaded l rfl),
            Stamp.step, hnone]
          rfl
  | call l =>
      have hbuilt {n : ℤ} (hl : s.phase l = .built n) :
          (Wire.mk s loaded sent).stamp.taken (.inl l) = some n := by
        rw [stamp_taken_inl sent (hloaded l rfl), hl]
        rfl
      cases steps_of_step h with
      | call l n hl hfree hconnected =>
          refine label_follows (.use (.inl l)) ?_ rfl rfl
          simp only [Session.calls, hl, hconnected, stamp_setPhase _ _ (hloaded l rfl),
            Stamp.step, hbuilt hl]
          rfl
      | skip l n hl hconnected =>
          refine label_follows (.drop (.inl l)) ?_ rfl rfl
          simp only [Session.calls, hl, hconnected, stamp_setPhase _ _ (hloaded l rfl),
            Stamp.step, hbuilt hl]
          simp only [Option.map_some, Bool.false_eq_true, if_false, List.append_nil]
          rfl
  | result l success =>
      cases steps_of_step h with
      | result l success n p hl hp =>
          simp only [Session.calls, List.append_nil]
          refine moved_follows sent (hloaded l rfl) rfl rfl (hl ▸ rfl) ?_ (Or.inr rfl)
          rcases hp with rfl | rfl
          · rfl
          · rfl
  | command l cmd now =>
      simp only [Registration.step] at h
      split_ifs at h with hl
      cases h
      obtain ⟨n, intervals, p, heq, hp, hn⟩ :=
        streamCommand_number fromStr fromStrConf s l now cmd
      simp only [heq, Session.calls, List.append_nil]
      refine moved_follows sent (hloaded l rfl) rfl rfl (hl ▸ rfl) hp (hn.imp_left fun hcmd => ?_)
      simp [Event.isReconnect, hcmd]
  | streamEnd l =>
      cases steps_of_step h with
      | streamEnd l hl =>
          simp only [Session.calls, List.append_nil]
          exact moved_follows sent (hloaded l rfl) rfl rfl (hl ▸ rfl) rfl (Or.inr rfl)
  | heartbeat cmd =>
      cases steps_of_step h with
      | heartbeat cmd hwaiting =>
          refine ⟨[], ?_, ?_⟩
          · simp only [Session.calls, List.append_nil]
            rfl
          · simp [Session.pendingReconnect, Event.isReconnect]
  | heartbeatHandled now =>
      cases steps_of_step h with
      | heartbeatHandled cmd now n intervals heartbeat hanswered hheartbeat hn =>
          simp only [Session.calls, List.append_nil]
          exact handled_follows s loaded sent intervals hanswered hheartbeat
            (hn.imp And.left And.right)

theorem phase_of_step {s t : Session} {e : Event}
    (h : Registration.step fromStr fromStrConf s e = some t) {l : Task} (hl : l ∉ e.task) :
    t.phase l = s.phase l := by
  have hne {l' : Task} (htask : e.task = some l') : l ≠ l' := fun heq => hl (heq ▸ htask)
  cases steps_of_step h with
  | connect => exact Session.setPhase_phase_of_ne _ _ (hne rfl)
  | build => exact Session.setPhase_phase_of_ne _ _ (hne rfl)
  | call => exact Session.setPhase_phase_of_ne _ _ (hne rfl)
  | skip => exact Session.setPhase_phase_of_ne _ _ (hne rfl)
  | result => exact Session.setPhase_phase_of_ne _ _ (hne rfl)
  | again => exact Session.setPhase_phase_of_ne _ _ (hne rfl)
  | command => exact Session.setPhase_phase_of_ne _ _ (hne rfl)
  | streamEnd => exact Session.setPhase_phase_of_ne _ _ (hne rfl)
  | heartbeat => rfl
  | heartbeatHandled => rfl

/-- A task that may load has its response only while it reads its stream. -/
theorem Answering.update {s : Session} {loaded : Task ⊕ S → Option ℤ}
    {sent sent' : List (Stamp.Use (Task ⊕ S) ℤ)} (hw : (Wire.mk s loaded sent).Answering)
    {t : Task ⊕ S} (ht : (Wire.mk s loaded sent).CanLoad t) (held : Option ℤ) :
    (Wire.mk s (Function.update loaded t held) sent').Answering := by
  intro l hl
  by_cases hself : .inl l = t
  · subst hself
    exact ht
  · exact hw l (by simpa only [Function.update_of_ne hself] using hl)

/-- **What a step does to the numbers.** -/
theorem step_follows {w w' : Wire S} {e : WireEvent S} (hw : w.Answering)
    (h : step fromStr fromStrConf w e = some w') :
    w'.Answering ∧ ∃ labels, Lts.run Stamp.step w.stamp labels = some w'.stamp ∧
      labels.countP Stamp.Event.isSet + w'.session.pendingReconnect ≤
        w.session.pendingReconnect + if e.isReconnect then 1 else 0 := by
  obtain ⟨s, loaded, sent⟩ := w
  cases e with
  | session e =>
      simp only [step] at h
      split_ifs at h with hloaded
      obtain ⟨t, ht, rfl⟩ := Option.map_eq_some_iff.1 h
      refine ⟨fun l hl => ?_, session_follows s sent hloaded ht⟩
      -- the task has a response, and takes no step
      have hother : l ∉ e.task := fun htask => hl (hloaded l htask)
      exact (phase_of_step ht hother).trans (hw l hl)
  | load t =>
      simp only [step] at h
      split_ifs at h with hguard
      obtain ⟨hnone, hload⟩ := hguard
      cases h
      refine ⟨hw.update hload _, label_follows (.take t) ?_ rfl rfl⟩
      simp only [stamp_loaded loaded sent (number_of_canLoad hload), Stamp.step,
        stamp_taken_of_canLoad hload, hnone]
      rfl
  | send t =>
      simp only [step] at h
      split at h
      · rename_i n hloaded
        have hload : (Wire.mk s loaded sent).CanLoad t :=
          hw.canLoad (hloaded.trans_ne (Option.some_ne_none n))
        have htaken : (Wire.mk s loaded sent).stamp.taken t = some n :=
          (stamp_taken_of_canLoad hload).trans hloaded
        split_ifs at h with hfree hconnected
        · cases h
          refine ⟨hw.update hload _, label_follows (.use t) ?_ rfl rfl⟩
          simp only [stamp_loaded _ _ (number_of_canLoad hload), Stamp.step, htaken]
          rfl
        · cases h
          refine ⟨hw.update hload _, label_follows (.drop t) ?_ rfl rfl⟩
          simp only [stamp_loaded _ _ (number_of_canLoad hload), Stamp.step, htaken,
            List.append_nil]
          rfl
      · cases h

/-- **What a run does to the numbers.** -/
theorem run_follows {w w' : Wire S} {events : List (WireEvent S)} (hw : w.Answering)
    (h : Lts.run (step fromStr fromStrConf) w events = some w') :
    ∃ labels, Lts.run Stamp.step w.stamp labels = some w'.stamp ∧
      labels.countP Stamp.Event.isSet + w'.session.pendingReconnect ≤
        w.session.pendingReconnect + events.countP WireEvent.isReconnect := by
  induction events generalizing w with
  | nil =>
      cases h
      exact ⟨[], rfl, by simp⟩
  | cons e events ih =>
      obtain ⟨u, hu, hrun⟩ := Lts.run_cons.1 h
      obtain ⟨hanswering, first, hfirst, hpaid⟩ := step_follows hw hu
      obtain ⟨rest, hrest, hpaid'⟩ := ih hanswering hrun
      refine ⟨first ++ rest, Lts.run_append.2 ⟨u.stamp, hfirst, hrest⟩, ?_⟩
      rw [List.countP_append, List.countP_cons]
      omega

/-- From any state on, a task sends at most one outdated message for each `reConnect`, for the
answer that is not handled, and for what it has built. -/
theorem outdated_le {w w' : Wire S} {events : List (WireEvent S)} (hw : w.Answering)
    (h : Lts.run (step fromStr fromStrConf) w events = some w') (t : Task ⊕ S) :
    Stamp.outdated t w'.sent ≤ Stamp.outdated t w.sent + Stamp.owes t w.stamp +
      w.session.pendingReconnect + events.countP WireEvent.isReconnect := by
  obtain ⟨labels, hrun, hpaid⟩ := run_follows hw h
  have hbound := Stamp.outdated_le hrun t
  have hsent : w'.stamp.uses = w'.sent := rfl
  have hsent' : w.stamp.uses = w.sent := rfl
  rw [hsent, hsent'] at hbound
  omega

end Wire

/-- **A `reConnect` makes at most one message of each task outdated**: however the steps of the
session and of any senders interleave, a task has sent at most as many messages with a number that
the session did not have any more as commands `reConnect` were received, the register calls of a
task and its responses to the commands of the stream taken together. -/
theorem outdated_le_reconnects [DecidableEq S] {randomNumber : ℤ} {connected : Bool}
    {intervals : Intervals} {events : List (WireEvent S)} {w : Wire S}
    (hrun : Lts.run (Wire.step fromStr fromStrConf)
      (Wire.start (start randomNumber connected intervals)) events = some w) (t : Task ⊕ S) :
    Stamp.outdated t w.sent ≤ events.countP WireEvent.isReconnect := by
  have hanswering : (Wire.start (S := S) (start randomNumber connected intervals)).Answering :=
    fun _ hloaded => absurd rfl hloaded
  have hbound := Wire.outdated_le hanswering hrun t
  -- nothing is built, sent or answered when the tasks are spawned
  have howes : Stamp.owes t (Wire.start (start randomNumber connected intervals)).stamp = 0 := by
    rcases t with (_ | _) | t
    · rfl
    · rfl
    · rfl
  have hsent : (Wire.start (S := S) (start randomNumber connected intervals)).sent = [] := rfl
  have hpending : (start randomNumber connected intervals).pendingReconnect = 0 := rfl
  rw [howes, hsent, Wire.start, hpending] at hbound
  simpa [Stamp.outdated] using hbound

/-- A task sends a response to a command; another builds one before a `reConnect` comes on the
stream, and sends it after that. -/
def lateResponse : List (WireEvent Unit) :=
  [.session (.build .main), .session (.call .main), .session (.result .main true),
    .load (.inl .main), .send (.inl .main), .load (.inr ()),
    .session (.command .main { type := "reConnect", detail := "42" } none), .send (.inr ())]

/-- The bound is reached. -/
theorem outdated_le_reconnects_lateResponse :
    ∃ w, Lts.run (Wire.step (fun _ => none) (fun _ => none))
        (Wire.start (start 1 true defaultIntervals)) lateResponse = some w ∧
      Stamp.outdated (.inr ()) w.sent = 1 ∧
      Stamp.outdated (.inr ()) w.sent ≤ lateResponse.countP WireEvent.isReconnect := by
  obtain ⟨w, hrun⟩ : ∃ w, Lts.run (Wire.step (fun _ => none) (fun _ => none))
      (Wire.start (start 1 true defaultIntervals)) lateResponse = some w := ⟨_, rfl⟩
  refine ⟨w, hrun, ?_, outdated_le_reconnects hrun _⟩
  cases hrun
  rfl

end Follows

end Registration

end FillingPilot
