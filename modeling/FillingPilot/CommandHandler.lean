/-
**The commands of the server, all kinds together.**

A command is summed up for the log and then handled by its type.  Each type has a part of the
device of its own: the stores of the configuration and the definitions of blocks, the reports, the
intervals, the number; the other types only ask for something.  A command that panics ends the task
that has it, and changes nothing.

The PLCs of a configuration are answered for each time it comes, while the stores only look at a
configuration that differs from the last one.

Main definitions:

* `FillingPilot.CommandKind` — the types that are told apart;
* `FillingPilot.Terminal`, `FillingPilot.Surroundings`, `FillingPilot.CommandState` — what a command
  is handled with;
* `FillingPilot.CommandState.handle` — the handler, with every type;
* `FillingPilot.Device`, `FillingPilot.Device.receive` — a device and the responses it has sent.

Main results:

* `FillingPilot.handleCase_of_handle` — **what the handler may do**, type by type;
* `FillingPilot.receive_cases` — a command is lost, or handled.
-/

import FillingPilot.MetaRuns
import FillingPilot.PlcCommands
import FillingPilot.PlcInfo
import FillingPilot.Registration
import FillingPilot.StatusView

set_option relaxedAutoImplicit false
set_option autoImplicit false

namespace FillingPilot

open Json Rust

/-! ### Commands -/

/-- The commands that are told apart. -/
inductive CommandKind
  | plcInfo
  | reConnect
  | upgrade
  | restart
  | read
  | write
  | status
  | reportSubmitted
  | clientInfo
  | config
  /-- An answer to a heartbeat without a command. -/
  | empty
  | unknown
  deriving DecidableEq

/-- The arms of `handle_command`. -/
def CommandKind.ofType (type : String) : CommandKind :=
  match type with
  | "plcInfo" => .plcInfo
  | "reConnect" | "reconnect" => .reConnect
  | "upgrade" => .upgrade
  | "restart" => .restart
  | "read" => .read
  | "write" => .write
  | "status" => .status
  | "ReportSubmitted" | "reportSubmitted" => .reportSubmitted
  | "clientInfo" => .clientInfo
  | "config" => .config
  | "" => .empty
  | _ => .unknown

/-- The kind of a command. -/
def ServerCommand.kind (cmd : ServerCommand) : CommandKind := .ofType cmd.type

/-- A message: a plain text, or the text of a document. -/
inductive Message
  | text (s : String)
  | json (document : Value)

/-- A response to the server. -/
structure Response where
  id : String
  plcId : String
  type : String
  randomNumber : ℤ
  sign : String
  message : Message

/-- The response to a `read` or a `write`, whose message is a document. -/
def PlcResponse.toResponse (r : PlcResponse) : Response where
  id := r.id
  plcId := r.plcId
  type := r.type
  randomNumber := r.randomNumber
  sign := r.sign
  message := .json r.message

/-! ### The handler -/

/-- What stays as it is while a device runs: its id and its key, and what reads texts. -/
structure Terminal where
  id : String
  sign : ℤ → String
  text : JsonText
  fromStrConf : String → Option ServerConf
  fromStrRead : String → Except String ReadRequest
  fromStrWrite : String → Except String WriteRequest
  hexError : String → String

/-- What a command finds outside. -/
structure Surroundings where
  /-- The clock, if it is not before 1970. -/
  now : Option ℤ
  /-- Whether the connections that are tried go through, in their order. -/
  connects : ℕ → Bool
  plc : Plc

/-- What the commands read and write. -/
structure CommandState where
  session : Session
  definitions : MetaCache
  statuses : StatusCache
  intervals : Intervals
  randomNumber : ℤ

/-- What a command leads to. -/
structure Handled where
  state : CommandState
  calls : List PlcCall
  responses : List Response
  /-- The task has to register again. -/
  reconnect : Bool

/-- An acknowledged report is marked. -/
def Session.acknowledge (reportId : ℤ) (s : Session) : Session :=
  { s with caches := deleteReport reportId s.caches }

namespace CommandState

variable (term : Terminal) (st : CommandState)

/-- `send_plc_response`, with a client. -/
def respond (plcId type : String) (message : Message) : Response where
  id := term.id
  plcId := plcId
  type := type
  randomNumber := st.randomNumber
  sign := term.sign st.randomNumber
  message := message

/-- The session that reads and writes. -/
def cloudSession (plc : Plc) : CloudSession where
  id := term.id
  randomNumber := st.randomNumber
  sign := term.sign
  plc := plc
  fromStrRead := term.fromStrRead
  fromStrWrite := term.fromStrWrite
  hexError := term.hexError

/-- The response for one PLC, by the outcome of its connection. -/
def plcResponse (connected : Bool) (plc : PlcConfig) : Response :=
  if connected then st.respond term plc.id "plcInfo" (.text "ok")
  else st.respond term plc.id "plcInfoFail" (.text "failed")

/-- The stores after a `plcInfo` command. -/
def withPlcInfo (detail : String) : CommandState :=
  let fromStr := term.text.fromStr
  let configChanged := st.session.lastPlcDetail ≠ detail
  { st with
    session := handlePlcInfo fromStr st.session detail
    definitions :=
      if (parsePlcList fromStr detail).isEmpty then st.definitions
      else if configChanged then st.definitions.saveMeta (plcArray fromStr detail)
      else st.definitions }

/-- The responses to a `plcInfo` command: one for each PLC, and one at the end. -/
def plcInfoResponses (w : Surroundings) (plcs : List PlcConfig) : List Response :=
  if plcs.isEmpty then []
  else
    (plcs.mapIdx fun i plc => st.plcResponse term (w.connects i) plc) ++
      [st.respond term "plcInfo" "plcInfo" (.text "ok")]

/-- The `plcInfo` command: the PLCs are tried and answered for whether anything changed or not. -/
def handlePlcInfo (w : Surroundings) (detail : String) : Handled :=
  let plcs := parsePlcList term.text.fromStr detail
  let st' := st.withPlcInfo term detail
  ⟨st', [], st'.plcInfoResponses term w plcs, false⟩

/-- `handle_command`. -/
def handle (w : Surroundings) (cmd : ServerCommand) : Outcome Handled :=
  match cmd.kind with
  | .plcInfo => .ok (st.handlePlcInfo term w cmd.detail)
  | .reConnect => do
      let newRandom ← Registration.newRandom w.now cmd.detail st.randomNumber
      return ⟨{ st with randomNumber := newRandom }, [], [], true⟩
  | .read | .write =>
      let effects := (st.cloudSession term w.plc).handlePlcCommand cmd
      .ok ⟨st, effects.calls, effects.responses.map PlcResponse.toResponse, false⟩
  | .status =>
      let statuses := (getAllStatuses st.statuses).map StationStatus.toJson
      .ok ⟨st, [], [st.respond term "status" "status" (.json (.array statuses))], false⟩
  | .reportSubmitted =>
      match parseSigned 64 cmd.detail with
      | some reportId =>
          .ok ⟨{ st with session := st.session.acknowledge reportId }, [], [], false⟩
      | none => .ok ⟨st, [], [], false⟩
  | .clientInfo =>
      .ok ⟨st, [], [st.respond term "" "clientInfo" (.text ("clientVersion: " ++ term.id))], false⟩
  | .config => do
      let (intervals, _) ← handleConfig term.fromStrConf cmd.detail st.intervals
      return ⟨{ st with intervals := intervals }, [], [], false⟩
  | .upgrade | .restart | .empty | .unknown => .ok ⟨st, [], [], false⟩

/-- A command from the stream or in the answer to a heartbeat: it is summed up first. -/
def receive (w : Surroundings) (cmd : ServerCommand) : Outcome Handled := do
  let _ ← summaryAfter term.text.fromStr " plc=" cmd.detail
  st.handle term w cmd

end CommandState

/-! ### Runs -/

/-- A device, with the responses it has sent. -/
structure Device where
  state : CommandState
  sent : List Response

/-- A command, with what it finds. -/
abbrev Received := ServerCommand × Surroundings

/-- A device right after its start. -/
def freshDevice (definitions : MetaCache) (statuses : StatusCache) (intervals : Intervals)
    (randomNumber : ℤ) : Device where
  state := ⟨freshSession, definitions, statuses, intervals, randomNumber⟩
  sent := []

section Runs

variable (term : Terminal)

/-- The device after a command. -/
def Device.receive (d : Device) (r : Received) : Device :=
  match d.state.receive term r.2 r.1 with
  | .ok handled => ⟨handled.state, d.sent ++ handled.responses⟩
  | .err _ | .panic => d

/-- The device after commands that came one after the other. -/
def afterReceived (d : Device) (received : List Received) : Device :=
  received.foldl (Device.receive term) d

/-- The device after the file of definitions was read. -/
def Device.loadDefinitions (d : Device) (file : Option String) : Device :=
  { d with state := { d.state with
      definitions := MetaCache.loadFromDisk term.text file d.state.definitions } }

/-! ### One command -/

/-- The detail of a command can be summed up; otherwise its task panics. -/
def Terminal.sumsUp (cmd : ServerCommand) : Bool :=
  match summaryAfter term.text.fromStr " plc=" cmd.detail with
  | .ok _ => true
  | .err _ | .panic => false

section Steps

variable {term}

theorem receive_of_sumsUp {cmd : ServerCommand} (h : term.sumsUp cmd = true) (st : CommandState)
    (w : Surroundings) : st.receive term w cmd = st.handle term w cmd := by
  unfold Terminal.sumsUp at h
  unfold CommandState.receive
  split at h
  · rename_i summary hsummary
    rw [hsummary, Outcome.ok_bind]
  · cases h
  · cases h

/-- A command that cannot be summed up is lost. -/
theorem receive_of_not_sumsUp {cmd : ServerCommand} (h : term.sumsUp cmd = false)
    (st : CommandState) (w : Surroundings) : st.receive term w cmd = .panic := by
  have hpanics := summaryAfter_panicsIff term.text.fromStr " plc=" cmd.detail
  unfold CommandState.receive
  rcases hpanics with ⟨-, hpanic⟩ | ⟨-, summary, hok⟩
  · rw [hpanic, Outcome.panic_bind]
  · rw [Terminal.sumsUp, hok] at h
    cases h

/-- **What the handler may do**, type by type. -/
inductive HandleCase (term : Terminal) (st : CommandState) (w : Surroundings)
    (cmd : ServerCommand) : Handled → Prop
  | plcInfo (hkind : cmd.kind = .plcInfo) :
      HandleCase term st w cmd (st.handlePlcInfo term w cmd.detail)
  | reConnect (hkind : cmd.kind = .reConnect) (newRandom : ℤ)
      (hnew : Registration.newRandom w.now cmd.detail st.randomNumber = .ok newRandom) :
      HandleCase term st w cmd ⟨{ st with randomNumber := newRandom }, [], [], true⟩
  | plc (hkind : cmd.kind = .read ∨ cmd.kind = .write) (effects : Effects)
      (heffects : effects = (st.cloudSession term w.plc).handlePlcCommand cmd) :
      HandleCase term st w cmd
        ⟨st, effects.calls, effects.responses.map PlcResponse.toResponse, false⟩
  | status (hkind : cmd.kind = .status) (message : Message) :
      HandleCase term st w cmd ⟨st, [], [st.respond term "status" "status" message], false⟩
  | submitted (hkind : cmd.kind = .reportSubmitted) (reportId : ℤ) :
      HandleCase term st w cmd
        ⟨{ st with session := st.session.acknowledge reportId }, [], [], false⟩
  | clientInfo (hkind : cmd.kind = .clientInfo) (message : Message) :
      HandleCase term st w cmd ⟨st, [], [st.respond term "" "clientInfo" message], false⟩
  | config (hkind : cmd.kind = .config) (intervals : Intervals) (log : List LogLine)
      (hconfig : handleConfig term.fromStrConf cmd.detail st.intervals = .ok (intervals, log)) :
      HandleCase term st w cmd ⟨{ st with intervals := intervals }, [], [], false⟩
  | ignored
      (hkind : cmd.kind ∈ [CommandKind.upgrade, .restart, .reportSubmitted, .empty, .unknown]) :
      HandleCase term st w cmd ⟨st, [], [], false⟩

theorem handleCase_of_handle {st : CommandState} {w : Surroundings} {cmd : ServerCommand}
    {handled : Handled} (h : st.handle term w cmd = .ok handled) :
    HandleCase term st w cmd handled := by
  unfold CommandState.handle at h
  cases hkind : cmd.kind with
  | plcInfo =>
      rw [hkind] at h
      cases h
      exact .plcInfo hkind
  | reConnect =>
      rw [hkind] at h
      obtain ⟨newRandom, hnew, h⟩ := Outcome.bind_eq_ok.1 h
      cases h
      exact .reConnect hkind newRandom hnew
  | read =>
      rw [hkind] at h
      cases h
      exact .plc (Or.inl hkind) _ rfl
  | write =>
      rw [hkind] at h
      cases h
      exact .plc (Or.inr hkind) _ rfl
  | status =>
      rw [hkind] at h
      cases h
      exact .status hkind _
  | reportSubmitted =>
      rw [hkind] at h
      dsimp only at h
      split at h
      · cases h
        exact .submitted hkind _
      · cases h
        exact .ignored (by simp [hkind])
  | clientInfo =>
      rw [hkind] at h
      cases h
      exact .clientInfo hkind _
  | config =>
      rw [hkind] at h
      obtain ⟨⟨intervals, log⟩, hconfig, h⟩ := Outcome.bind_eq_ok.1 h
      cases h
      exact .config hkind intervals log hconfig
  | upgrade | restart | empty | unknown =>
      rw [hkind] at h
      cases h
      exact .ignored (by simp [hkind])

/-- A command that panics in the handler sets the number or the intervals. -/
theorem kind_of_not_ok {st : CommandState} {w : Surroundings} {cmd : ServerCommand}
    (h : ∀ handled, st.handle term w cmd ≠ .ok handled) :
    cmd.kind = .reConnect ∨ cmd.kind = .config := by
  unfold CommandState.handle at h
  cases hkind : cmd.kind with
  | reConnect => exact Or.inl rfl
  | config => exact Or.inr rfl
  | reportSubmitted =>
      simp only [hkind] at h
      split at h
      · exact absurd rfl (h _)
      · exact absurd rfl (h _)
  | plcInfo | read | write | status | clientInfo | upgrade | restart | empty | unknown =>
      simp only [hkind] at h
      exact absurd rfl (h _)

variable (term) in
/-- **What a command does to a device**: it is lost, and nothing changes, or it is handled. -/
theorem receive_cases (d : Device) (cmd : ServerCommand) (w : Surroundings) :
    (d.receive term (cmd, w) = d ∧
        (term.sumsUp cmd = true → ∀ handled, d.state.handle term w cmd ≠ .ok handled)) ∨
      ∃ handled, d.receive term (cmd, w) = ⟨handled.state, d.sent ++ handled.responses⟩ ∧
        term.sumsUp cmd = true ∧ HandleCase term d.state w cmd handled := by
  unfold Device.receive
  cases hsum : term.sumsUp cmd with
  | false =>
      rw [receive_of_not_sumsUp hsum]
      exact Or.inl ⟨rfl, fun htrue => absurd htrue Bool.false_ne_true⟩
  | true =>
      rw [receive_of_sumsUp hsum]
      cases hhandle : d.state.handle term w cmd with
      | ok handled => exact Or.inr ⟨handled, rfl, rfl, handleCase_of_handle hhandle⟩
      | err message => exact Or.inl ⟨rfl, fun _ handled heq => by cases heq⟩
      | panic => exact Or.inl ⟨rfl, fun _ handled heq => by cases heq⟩

end Steps

end Runs

end FillingPilot
