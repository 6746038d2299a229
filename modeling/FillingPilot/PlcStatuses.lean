/-
**The statuses of the connections.**

From time to time the PLCs of the list are tested one after the other.  When all are tested, each
status is given to a task of its own, which sends it when it gets the client: as a `plcInfo` or a
`plcInfoFail` for the address of the PLC.  A send that fails is logged, and not tried again.  The
list may be configured anew while a round goes on, and the tasks of a round may still wait when the
next round ends.

Main definitions:

* `FillingPilot.PlcConnectionStatus`, `FillingPilot.Terminal.sendPlcStatus` — a status and its
  message;
* `FillingPilot.Checker`, `FillingPilot.Checker.step` — the rounds and the tasks;
* `FillingPilot.Checker.posts` — the statuses as items that are handed out.

Main results:

* `FillingPilot.Checker.statuses_once` — **every test of a round is reported once**;
* `FillingPilot.Checker.last_report` — **what the server heard last of an address** is of the latest
  round that tested it, when the rounds do not overlap and the last send does not fail.
-/

import FillingPilot.Batches
import FillingPilot.CommandHandler
import FillingPilot.PlcTransfers
import FillingPilot.Simulation

set_option relaxedAutoImplicit false
set_option autoImplicit false

namespace FillingPilot

open Json Rust

/-! ### Statuses -/

/-- The status of a connection. -/
structure PlcConnectionStatus where
  host : String
  port : UInt16
  connected : Bool
  latencyMs : Option ℕ
  deriving DecidableEq

namespace PlcConnectionStatus

/-- What is sent. -/
def toJson (s : PlcConnectionStatus) : Value :=
  .object [("host", .string s.host), ("port", .ofInt s.port.toNat),
    ("connected", .bool s.connected),
    ("latencyMs", (s.latencyMs.map fun latency : ℕ => Value.ofInt latency).getD .null)]

/-- The host and the port. -/
def endpoint (s : PlcConnectionStatus) : Endpoint := ⟨s.host, s.port⟩

/-- The id that the status is sent under. -/
def plcId (s : PlcConnectionStatus) : String := s.endpoint.key

end PlcConnectionStatus

/-- The host and the port of a PLC of the list. -/
def PlcConfig.endpoint (plc : PlcConfig) : Endpoint := ⟨plc.ip, plc.port⟩

/-- The status after `test_connection`: a latency stands for a PLC that was read. -/
def PlcConfig.tested (plc : PlcConfig) (latency : Option ℕ) : PlcConnectionStatus where
  host := plc.ip
  port := plc.port
  connected := latency.isSome
  latencyMs := latency

/-- `send_plc_status`, with the number that its task has loaded. -/
def Terminal.sendPlcStatus (term : Terminal) (s : PlcConnectionStatus) (randomNumber : ℤ) :
    Response where
  id := term.id
  plcId := s.plcId
  type := if s.connected then "plcInfo" else "plcInfoFail"
  randomNumber := randomNumber
  sign := term.sign randomNumber
  message := .json s.toJson

/-! ### Rounds -/

/-- A round: the PLCs that it began with, those that are still to be tested, and the statuses. -/
structure CheckRound where
  plcs : List PlcConfig
  todo : List PlcConfig
  statuses : List PlcConnectionStatus

/-- A status that was handed to the client, with the number of its message, and what has come of the
send. -/
structure StatusReport where
  status : PlcConnectionStatus
  randomNumber : ℤ
  sent : Bool

/-- The list of PLCs, the round under way and those that have ended, and the tasks with a status
each: those that wait, those that have handed it to the client, and those that found no client. -/
structure Checker where
  plcs : List PlcConfig
  client : Bool
  round : Option CheckRound
  rounds : List CheckRound
  waiting : List PlcConnectionStatus
  reported : List StatusReport
  dropped : List PlcConnectionStatus

/-- What can happen. -/
inductive CheckEvent
  /-- The list is replaced. -/
  | configure (plcs : List PlcConfig)
  /-- The session gets a client. -/
  | connect
  | tick
  /-- The next PLC has been tested. -/
  | test (latency : Option ℕ)
  /-- A task has its turn, with the number that it has loaded, and `client.send` succeeds or fails.
  -/
  | report (i : ℕ) (randomNumber : ℤ) (sent : Bool)

namespace Checker

/-- Nothing was tested. -/
def start (client : Bool) : Checker := ⟨[], client, none, [], [], [], []⟩

/-- The round goes on with its next PLC, or ends: then each status gets a task. -/
def proceed (st : Checker) (r : CheckRound) : Checker :=
  if r.todo.isEmpty then
    { st with
      round := none
      rounds := st.rounds ++ [r]
      waiting := st.waiting ++ r.statuses }
  else { st with round := some r }

/-- A task has its turn. -/
def report (st : Checker) (r : StatusReport) : Checker :=
  if st.client then { st with reported := st.reported ++ [r] }
  else { st with dropped := st.dropped ++ [r.status] }

/-- One step. -/
def step (st : Checker) : CheckEvent → Option Checker
  | .configure plcs => some { st with plcs := plcs }
  | .connect => some { st with client := true }
  | .tick =>
      match st.round with
      | none =>
          some (if st.plcs.isEmpty then st
            else { st with round := some ⟨st.plcs, st.plcs, []⟩ })
      | some _ => none
  | .test latency =>
      match st.round with
      | some ⟨plcs, plc :: todo, statuses⟩ =>
          some (st.proceed ⟨plcs, todo, statuses ++ [plc.tested latency]⟩)
      | _ => none
  | .report i randomNumber sent => st.waiting[i]?.map fun s =>
      { st with waiting := st.waiting.eraseIdx i }.report ⟨s, randomNumber, sent⟩

/-- The messages that were handed to the client. -/
def responses (term : Terminal) (st : Checker) : List Response :=
  st.reported.map fun r => term.sendPlcStatus r.status r.randomNumber

/-- The messages that the server heard: the sends that did not fail. -/
def heard (term : Terminal) (st : Checker) : List Response :=
  (st.reported.filter StatusReport.sent).map fun r => term.sendPlcStatus r.status r.randomNumber

/-- A tick starts a round with the list, between two rounds. -/
theorem tick_eq_some {st st' : Checker} (h : st.step .tick = some st') :
    st.round = none ∧ (st.plcs = [] ∧ st' = st ∨
      st.plcs ≠ [] ∧ st' = { st with round := some ⟨st.plcs, st.plcs, []⟩ }) := by
  simp only [step] at h
  split at h
  · rename_i hround
    cases h
    refine ⟨hround, ?_⟩
    split_ifs with hempty
    · exact Or.inl ⟨List.isEmpty_iff.1 hempty, rfl⟩
    · exact Or.inr ⟨fun hnil => hempty (List.isEmpty_iff.2 hnil), rfl⟩
  · cases h

/-- The PLC that is tested is the next one of the round. -/
theorem test_eq_some {st st' : Checker} {latency : Option ℕ}
    (h : st.step (.test latency) = some st') :
    ∃ plcs plc todo statuses, st.round = some ⟨plcs, plc :: todo, statuses⟩ ∧
      st' = st.proceed ⟨plcs, todo, statuses ++ [plc.tested latency]⟩ := by
  simp only [step] at h
  split at h
  · rename_i plcs plc todo statuses hround
    exact ⟨plcs, plc, todo, statuses, hround, (Option.some.inj h).symm⟩
  · cases h

/-! ### The statuses as items -/

/-- The statuses of the rounds, handed out to the tasks. -/
def posts (st : Checker) : Batches.State PlcConnectionStatus where
  waiting := st.waiting
  sent := st.reported.map StatusReport.status
  lost := st.dropped
  batches := st.rounds.map CheckRound.statuses

/-- What a step hands out: the statuses of a round that ends. -/
def handedOut (st : Checker) : CheckEvent → Option (List PlcConnectionStatus)
  | .test latency =>
      match st.round with
      | some ⟨_, [plc], statuses⟩ => some (statuses ++ [plc.tested latency])
      | _ => none
  | _ => none

/-- The steps of the items. -/
def labels (st : Checker) : CheckEvent → List (Batches.Event PlcConnectionStatus)
  | .report i _ _ => [.turn i st.client]
  | e => (st.handedOut e).toList.map .hand

/-- **What a step does to the items.** -/
theorem step_posts {st st' : Checker} {e : CheckEvent} (h : st.step e = some st') :
    Lts.run Batches.step st.posts (st.labels e) = some st'.posts := by
  cases e with
  | configure plcs =>
      cases h
      rfl
  | connect =>
      cases h
      rfl
  | tick =>
      obtain ⟨-, ⟨-, rfl⟩ | ⟨-, rfl⟩⟩ := tick_eq_some h
      · rfl
      · rfl
  | test latency =>
      obtain ⟨plcs, plc, todo, statuses, hround, rfl⟩ := test_eq_some h
      cases todo with
      | nil => simp [labels, handedOut, hround, proceed, posts, Lts.run_cons, Batches.step]
      | cons plc' todo => simp [labels, handedOut, hround, proceed, posts]
  | report i randomNumber sent =>
      obtain ⟨s, hs, rfl⟩ := Option.map_eq_some_iff.1 h
      refine Lts.run_cons.2 ⟨_, ?_, rfl⟩
      cases hclient : st.client with
      | true => simp [Batches.step, posts, hs, report, Batches.State.deliver]
      | false => simp [Batches.step, posts, hs, report, Batches.State.deliver]

/-- **What a run does to the items.** -/
theorem run_posts {client : Bool} {events : List CheckEvent} {st : Checker}
    (h : Lts.run step (start client) events = some st) :
    Lts.run Batches.step Batches.start (Lts.trace step labels (start client) events) =
      some st.posts := by
  have halong : Lts.Along step (fun _ _ => True) (start client) events :=
    Lts.along_of_forall (fun _ _ => trivial) events (start client)
  exact (Lts.run_trace (f := posts) (I := fun _ => True)
    (fun _ _ _ _ _ hstep => ⟨trivial, step_posts hstep⟩) trivial halong h).2

/-- A client stays. -/
theorem client_step {st st' : Checker} {e : CheckEvent} (hst : st.client = true)
    (h : st.step e = some st') : st'.client = true := by
  cases e with
  | configure plcs =>
      cases h
      exact hst
  | connect =>
      cases h
      rfl
  | tick =>
      obtain ⟨-, ⟨-, rfl⟩ | ⟨-, rfl⟩⟩ := tick_eq_some h
      · exact hst
      · exact hst
  | test latency =>
      obtain ⟨plcs, plc, todo, statuses, -, rfl⟩ := test_eq_some h
      rw [proceed]
      split_ifs
      · exact hst
      · exact hst
  | report i randomNumber sent =>
      obtain ⟨s, -, rfl⟩ := Option.map_eq_some_iff.1 h
      rw [report]
      split_ifs
      · exact hst
      · exact hst

/-- A condition on the items that holds of what is handed out and of what is delivered, with a
client from the start. -/
theorem along_posts {ok : Checker → CheckEvent → Prop}
    {ok' : Batches.State PlcConnectionStatus → Batches.Event PlcConnectionStatus → Prop}
    (hturn : ∀ st i, ok' st (.turn i true))
    (hhand : ∀ st e statuses, ok st e → st.handedOut e = some statuses →
      ok' st.posts (.hand statuses))
    {events : List CheckEvent} {st : Checker}
    (hevents : Lts.Along step ok (start true) events)
    (h : Lts.run step (start true) events = some st) :
    Lts.Along Batches.step ok' Batches.start (Lts.trace step labels (start true) events) := by
  refine Lts.along_trace (f := posts) (I := fun st => st.client = true)
    (fun st e st' he hst hstep => ⟨client_step hst hstep, step_posts hstep, ?_⟩) rfl hevents h
  have hhanded : Lts.Along Batches.step ok' st.posts ((st.handedOut e).toList.map .hand) := by
    cases hout : st.handedOut e with
    | none => trivial
    | some statuses => exact ⟨hhand st e statuses he hout, fun _ _ => trivial⟩
  cases e with
  | report i randomNumber sent =>
      rw [labels, hst]
      exact ⟨hturn st.posts i, fun _ _ => trivial⟩
  | configure plcs => exact hhanded
  | connect => exact hhanded
  | tick => exact hhanded
  | test latency => exact hhanded

/-! ### What the rounds test -/

/-- The statuses of a round are those of the PLCs that it has tested, in their order. -/
def RoundSound (r : CheckRound) : Prop :=
  ∃ done latencies, r.plcs = done ++ r.todo ∧ done.length = latencies.length ∧
    r.statuses = List.zipWith PlcConfig.tested done latencies

/-- Every list is a configured one, and the rounds that have ended are complete. -/
structure Sound (configured : List PlcConfig → Prop) (st : Checker) : Prop where
  plcs : st.plcs = [] ∨ configured st.plcs
  round : ∀ r, st.round = some r → configured r.plcs ∧ RoundSound r
  rounds : ∀ r ∈ st.rounds, configured r.plcs ∧ RoundSound r ∧ r.todo = []

theorem sound_start (configured : List PlcConfig → Prop) (client : Bool) :
    Sound configured (start client) where
  plcs := Or.inl rfl
  round _ h := nomatch h
  rounds _ h := nomatch h

/-- **What a step keeps.** -/
theorem Sound.step {configured : List PlcConfig → Prop} {st st' : Checker} {e : CheckEvent}
    (he : ∀ plcs, e = .configure plcs → configured plcs) (hst : Sound configured st)
    (h : st.step e = some st') : Sound configured st' := by
  cases e with
  | configure plcs =>
      cases h
      exact ⟨Or.inr (he plcs rfl), hst.round, hst.rounds⟩
  | connect =>
      cases h
      exact ⟨hst.plcs, hst.round, hst.rounds⟩
  | tick =>
      obtain ⟨-, ⟨-, rfl⟩ | ⟨hplcs, rfl⟩⟩ := tick_eq_some h
      · exact hst
      · refine ⟨hst.plcs, fun r hr => ?_, hst.rounds⟩
        cases hr
        exact ⟨hst.plcs.resolve_left hplcs, [], [], rfl, rfl, rfl⟩
  | test latency =>
      obtain ⟨plcs, plc, todo, statuses, hround, rfl⟩ := test_eq_some h
      obtain ⟨hplcs, done, latencies, hdone, hlength, hstatuses⟩ := hst.round _ hround
      have hnext : RoundSound ⟨plcs, todo, statuses ++ [plc.tested latency]⟩ := by
        refine ⟨done ++ [plc], latencies ++ [latency], ?_, ?_, ?_⟩
        · simpa using hdone
        · simp [hlength]
        · rw [List.zipWith_append hlength]
          exact congrArg (· ++ [plc.tested latency]) hstatuses
      rw [proceed]
      split_ifs with hend
      · refine ⟨hst.plcs, nofun, fun r hr => ?_⟩
        rcases List.mem_append.1 hr with hr | hr
        · exact hst.rounds r hr
        · obtain rfl := List.mem_singleton.1 hr
          exact ⟨hplcs, hnext, List.isEmpty_iff.1 hend⟩
      · refine ⟨hst.plcs, fun r hr => ?_, hst.rounds⟩
        cases hr
        exact ⟨hplcs, hnext⟩
  | report i randomNumber sent =>
      obtain ⟨s, -, rfl⟩ := Option.map_eq_some_iff.1 h
      rw [report]
      split_ifs
      · exact ⟨hst.plcs, hst.round, hst.rounds⟩
      · exact ⟨hst.plcs, hst.round, hst.rounds⟩

theorem rounds_of_run {client : Bool} {events : List CheckEvent} {st : Checker}
    (h : Lts.run Checker.step (start client) events = some st) :
    ∀ r ∈ st.rounds, .configure r.plcs ∈ events ∧ ∃ latencies, r.plcs.length = latencies.length ∧
      r.statuses = List.zipWith PlcConfig.tested r.plcs latencies := by
  have halong : Lts.Along Checker.step (fun _ e => True ∧ e ∈ events) (start client) events :=
    (Lts.along_of_forall (fun _ _ => trivial) events (start client)).and_mem fun _ he => he
  have hsound : Sound (fun plcs => .configure plcs ∈ events) st :=
    Lts.run_invariant (fun _ _ _ he hst hstep => hst.step (fun _ heq => heq ▸ he.2) hstep)
      (sound_start _ client) halong h
  intro r hr
  obtain ⟨hconfigured, ⟨done, latencies, hdone, hlength, hstatuses⟩, htodo⟩ := hsound.rounds r hr
  rw [htodo, List.append_nil] at hdone
  subst hdone
  exact ⟨hconfigured, latencies, hlength, hstatuses⟩

/-! ### Reports -/

/-- **Every test of a round is reported once**: the statuses of the rounds that have ended are those
that wait, those that were handed to the client and those that found none, whatever order the tasks
have their turns in and whichever sends fail; with a client from the start, none finds none.  A
round tests the PLCs of one configured list, in their order, though another may be configured while
it goes on. -/
theorem statuses_once {client : Bool} {events : List CheckEvent} {st : Checker}
    (h : Lts.run step (start client) events = some st) :
    (st.rounds.flatMap CheckRound.statuses).Perm
        (st.waiting ++ (st.reported.map StatusReport.status ++ st.dropped)) ∧
      (client = true → st.dropped = []) ∧
      ∀ r ∈ st.rounds, .configure r.plcs ∈ events ∧
        ∃ latencies, r.plcs.length = latencies.length ∧
          r.statuses = List.zipWith PlcConfig.tested r.plcs latencies := by
  have hposts := run_posts h
  refine ⟨?_, fun hclient => ?_, rounds_of_run h⟩
  · rw [List.flatMap_def]
    exact Batches.conserved hposts
  · subst hclient
    have halong : Lts.Along step (fun _ _ => True) (start true) events :=
      Lts.along_of_forall (fun _ _ => trivial) events (start true)
    exact Batches.lost_eq_nil
      (along_posts (fun _ _ _ hfalse => nomatch hfalse) (fun _ _ _ _ _ _ => nofun) halong h) hposts

/-- A PLC of the list. -/
def samplePlc : PlcConfig := ⟨"1", "10.0.0.5", 102⟩

/-- The PLC is tested twice, and does not answer the second time; the first send fails. -/
def twoRounds : List CheckEvent :=
  [.configure [samplePlc], .tick, .test (some 3), .report 0 7 false, .tick, .test none,
    .report 0 7 true]

/-- Without a client the statuses find none. -/
theorem statuses_once_twoRounds :
    ∃ st : Checker, Lts.run step (start false) twoRounds = some st ∧
      (st.rounds.flatMap CheckRound.statuses).Perm
        (st.waiting ++ (st.reported.map StatusReport.status ++ st.dropped)) ∧
      (false = true → st.dropped = []) ∧
      ∀ r ∈ st.rounds, .configure r.plcs ∈ twoRounds ∧
        ∃ latencies, r.plcs.length = latencies.length ∧
          r.statuses = List.zipWith PlcConfig.tested r.plcs latencies :=
  ⟨_, rfl, statuses_once rfl⟩

/-- When a round with the address ends, no task of a round before has a status of it left. -/
def Apart (plcId : String) (st : Checker) (e : CheckEvent) : Prop :=
  ∀ statuses, st.handedOut e = some statuses →
    Batches.about PlcConnectionStatus.plcId plcId statuses ≠ [] →
      Batches.about PlcConnectionStatus.plcId plcId st.waiting = []

/-- What is kept of the last one is the last of those that are kept. -/
theorem getLast?_filter_of_last {α : Type*} {p : α → Bool} {xs : List α} {x : α}
    (h : xs.getLast? = some x) (hx : p x = true) : (xs.filter p).getLast? = some x := by
  obtain ⟨init, rfl⟩ := List.getLast?_eq_some_iff.1 h
  simp [hx]

/-- The statuses of the address in the last round that has tested it. -/
def latest (plcId : String) (st : Checker) : List PlcConnectionStatus :=
  Batches.latest PlcConnectionStatus.plcId plcId (st.rounds.map CheckRound.statuses)

/-- **What the server heard last of an address**, when no status of it waits: the last status of the
address that was handed to the client is one of the last round that tested it, and when that send
has not failed, it is what the server heard last.  This holds of every run from a session with a
client in which the rounds leave no status of the address behind, whatever other sends fail. -/
theorem last_report {plcId : String} {events : List CheckEvent} {st : Checker}
    (hevents : Lts.Along step (Apart plcId) (start true) events)
    (h : Lts.run step (start true) events = some st)
    (hnone : Batches.about PlcConnectionStatus.plcId plcId st.waiting = [])
    (htested : st.latest plcId ≠ []) :
    ∃ r, (st.reported.filter fun r => r.status.plcId = plcId).getLast? = some r ∧
      r.status ∈ st.latest plcId ∧
      (r.sent = true → ∀ term : Terminal,
        ((st.heard term).filter fun m => m.plcId = plcId).getLast? =
          some (term.sendPlcStatus r.status r.randomNumber)) := by
  have halong : Lts.Along Batches.step (Batches.InTurn PlcConnectionStatus.plcId plcId)
      Batches.start (Lts.trace step labels (start true) events) :=
    along_posts (fun _ _ _ _ _ => rfl) (fun _ _ _ hapart hout => hapart _ hout) hevents h
  obtain ⟨s, hs, hlast⟩ := Batches.last_mem_latest halong (run_posts h) hnone htested
  -- the statuses that were handed over are those of the reports
  have hhanded : Batches.about PlcConnectionStatus.plcId plcId st.posts.sent =
      (st.reported.filter fun r => r.status.plcId = plcId).map StatusReport.status :=
    List.filter_map
  rw [hhanded, List.getLast?_map, Option.map_eq_some_iff] at hlast
  obtain ⟨r, hr, rfl⟩ := hlast
  refine ⟨r, hr, hs, fun hsent term => ?_⟩
  have hheard : ((st.heard term).filter fun m => m.plcId = plcId) =
      ((st.reported.filter fun r => r.status.plcId = plcId).filter StatusReport.sent).map
        fun r => term.sendPlcStatus r.status r.randomNumber := by
    rw [heard, List.filter_map, List.filter_comm]
    rfl
  rw [hheard, List.getLast?_map, getLast?_filter_of_last hr hsent, Option.map_some]

/-- The second round ends when the first one has left. -/
theorem last_report_twoRounds :
    ∃ st : Checker, Lts.run step (start true) twoRounds = some st ∧
      ∃ r, (st.reported.filter fun r => r.status.plcId = samplePlc.endpoint.key).getLast? =
          some r ∧
        r.status ∈ st.latest samplePlc.endpoint.key ∧
        (r.sent = true → ∀ term : Terminal,
          ((st.heard term).filter fun m => m.plcId = samplePlc.endpoint.key).getLast? =
            some (term.sendPlcStatus r.status r.randomNumber)) := by
  have hevents : Lts.Along step (Apart samplePlc.endpoint.key) (start true) twoRounds :=
    .of_step (fun _ _ _ => rfl) rfl <| .of_step (fun _ _ _ => rfl) rfl <|
      .of_step (fun _ _ _ => rfl) rfl <| .of_step (fun _ h => nomatch h) rfl <|
        .of_step (fun _ _ _ => rfl) rfl <| .of_step (fun _ _ _ => rfl) rfl <|
          .of_step (fun _ h => nomatch h) rfl trivial
  obtain ⟨st, hrun⟩ : ∃ st, Lts.run step (start true) twoRounds = some st := ⟨_, rfl⟩
  have hwaiting : st.waiting = [] := by
    cases hrun
    rfl
  have hrounds : st.rounds.map CheckRound.statuses =
      [[samplePlc.tested (some 3)], [samplePlc.tested none]] := by
    cases hrun
    rfl
  refine ⟨st, hrun, last_report hevents hrun ?_ ?_⟩
  · rw [hwaiting]
    rfl
  · have hkey : (samplePlc.tested none).plcId = samplePlc.endpoint.key := rfl
    simp [latest, hrounds, Batches.latest, Batches.about, hkey]

end Checker

end FillingPilot
