/-
**The locks of the whole process.**

The session, the report cache, the monitors, the files, the local API and the log have locks of
their own beside those of the S7 manager.  Almost all of them are held alone.  Two are not: the
monitors are updated with the lock of their states taken under the lock of the monitors, and a pass
over the monitors reads from the PLCs, through the pool, while it holds the lock of the states.

A call is what one task does between two points at which it holds nothing.  The lists that decide
how often a section is repeated are kept; whatever depends on a PLC, on the network or on the clock
may turn out either way, and a pass may have any number of messages to send.

Main definitions:

* `FillingPilot.ProcessLock`, `FillingPilot.ProcessData` — the locks, and the data behind them;
* `FillingPilot.ProcessRequest`, `FillingPilot.ProcessRequest.prog` — the calls of all tasks;
* `FillingPilot.ProcessRule` — what a call holds when it asks for a lock;
* `FillingPilot.PoolCircle` — a call under the pool lock and a call under the lock of a connection
  wait for each other.

Main results:

* `FillingPilot.ProcessRequest.prog_follows` — every call follows the rule;
* `FillingPilot.circle_of_processStuck` — a stuck process has a circle in the pool;
* `FillingPilot.process_progress` — **the process never stands still** unless the pool does: in
  every state of every run, while a call is unfinished, some call can take a step, or the pool has a
  circle.
-/

import FillingPilot.NestedCalls
import FillingPilot.PlcInfo
import FillingPilot.Runs
import FillingPilot.S7Pool

set_option relaxedAutoImplicit false
set_option autoImplicit false

namespace FillingPilot

open Json Locking

/-! ### Locks and data -/

/-- The locks of the process. -/
inductive ProcessLock
  /-- The client of the session. -/
  | client
  | lastPlcDetail
  /-- The locks of the S7 manager. -/
  | s7 (l : PoolLock)
  | caches
  | statusCache
  | lastStatusSentTime
  | monitors
  | states
  | fillStations
  /-- The definitions of the blocks. -/
  | metaCache
  /-- The deployments of the local API. -/
  | deployments
  /-- The address of the log server. -/
  | logAddr
  deriving DecidableEq

/-- What the locks guard, as far as it decides which locks are taken. -/
structure ProcessData where
  pool : PoolData
  lastPlcDetail : String
  /-- The stations of the report cache. -/
  stations : List FillStation
  monitors : List Monitor

/-- The data of the S7 manager. -/
def poolPart : Part ProcessData PoolData where
  get := ProcessData.pool
  set pool d := { d with pool := pool }

/-- What a task does between two points at which it holds nothing. -/
abbrev ProcessProg := Prog ProcessLock ProcessData

/-- A call of the S7 manager, and what its caller does then. -/
def s7Call (p : PoolProg) (k : ProcessProg) : ProcessProg :=
  (p.within ProcessLock.s7 poolPart).seq k

/-- A section that changes nothing the programs depend on. -/
def look (l : ProcessLock) (a : Access) (k : ProcessProg) : ProcessProg :=
  .guarded l a id fun _ => k

/-! ### The session -/

/-- A request to the server, under the lock of the client; without a client there is none. -/
def request (k : ProcessProg) : ProcessProg :=
  .acquire .client .write <| .io fun _ => .release .client k

/-- `send_plc_response`. -/
def sendResponse (k : ProcessProg) : ProcessProg := request k

/-- The messages at the end of a pass. -/
def sendResponses (messages : ℕ) (k : ProcessProg) : ProcessProg :=
  .each (fun _ k => sendResponse k) (List.range messages) k

/-- `CloudSession::connect`: the new client is stored. -/
def connectSession : ProcessProg :=
  .io fun ok => if ok then look .client .write .done else .done

/-- The answers to a `plcInfo`: one after each test, and a last one. -/
def plcInfoAnswers (plcs : List PlcConfig) : ProcessProg :=
  .each (fun _ k => .io fun _ => sendResponse k) plcs (sendResponse .done)

/-- `ReportCache::update_fill_stations`, unless there are no stations. -/
def updateStationsCall (stations : List FillStation) (k : ProcessProg) : ProcessProg :=
  if stations.isEmpty then k
  else .guarded .caches .write (fun d => { d with stations := stations.dedup }) fun _ => k

/-- `MonitorProcessor::update_monitors`, unless there are no monitors: the states of the removed
monitors are removed under the lock of the monitors. -/
def updateMonitorsCall (new : List Monitor) (k : ProcessProg) : ProcessProg :=
  if new.isEmpty then k
  else .acquire .monitors .write <| .act (fun d => { d with monitors := new.dedup }) fun d =>
    .each (fun _ k => look .states .write k) (d.monitors.filter fun m => m ∉ new)
      (.release .monitors k)

/-- The `plcInfo` command. -/
def plcInfoCall (fromStr : String → Option Value) (detail : String) : ProcessProg :=
  let plcs := parsePlcList fromStr detail
  .guarded .lastPlcDetail .write id fun d =>
    if plcs.isEmpty then .done
    else if d.lastPlcDetail = detail then plcInfoAnswers plcs
    else .guarded .lastPlcDetail .write (fun d => { d with lastPlcDetail := detail }) fun _ =>
      s7Call (updatePlcList plcs) <| updateStationsCall (stationsIn fromStr detail) <|
        updateMonitorsCall (monitorsIn fromStr detail) <| look .metaCache .write <|
          look .fillStations .write <| plcInfoAnswers plcs

/-! ### The passes -/

/-- `read_report`, for a station with a report block: a station that was removed during the read is
put back. -/
def readReportCall (s : FillStation) (k : ProcessProg) : ProcessProg :=
  if s.reportDb ≤ 0 then k
  else s7Call (readBytes s.ip s.port) <| .io fun ok =>
    if ok then
      .guarded .caches .write (fun d => { d with stations := d.stations.insert s }) fun _ => k
    else k

/-- A pass of the report loop. -/
def reportPassCall (messages : ℕ) : ProcessProg :=
  .guarded .caches .read id fun d =>
    .each readReportCall d.stations <| look .caches .read <| sendResponses messages .done

/-- One station of a pass of the status loop: what is inserted under its two locks decides no lock.
-/
def readStatusCall (s : FillStation) (k : ProcessProg) : ProcessProg :=
  if s.statusDb ≤ 0 then k
  else s7Call (readBytes s.ip s.port) <| .io fun ok =>
    if ok then look .statusCache .write <| look .lastStatusSentTime .write k else k

/-- A pass of the status loop: one message, or none. -/
def statusPassCall : ProcessProg :=
  .guarded .caches .read id fun d => .each readStatusCall d.stations <| .io fun changed =>
    if changed then sendResponse .done else .done

/-- `send_local_http_post`, under the lock of the states: for a monitor with a type the definitions
would be read from inside the task, which panics. -/
def postLocal (m : Monitor) (k : ProcessProg) : ProcessProg :=
  if m.localAddress = "" ∨ m.monitorType = "" then .release .states k
  else .release .states .done

/-- One monitor of a pass: it is read when it is due, and what it has is sent when it has changed or
is to be repeated. -/
def triggerMonitor (m : Monitor) (k : ProcessProg) : ProcessProg :=
  let resend : ProcessProg := .io fun again => if again then postLocal m k else .release .states k
  .acquire .states .write <| .io fun due =>
    if due then s7Call (readBytes m.ip m.port) <| .io fun changed =>
      if changed then postLocal m k else resend
    else resend

/-- A pass of the monitor loop. -/
def monitorPassCall (messages : ℕ) : ProcessProg :=
  .guarded .monitors .read id fun d =>
    .each triggerMonitor d.monitors <| sendResponses messages .done

/-- `check_all_connections`; the statuses are sent by other tasks. -/
def checkAllConnections : ProcessProg :=
  .guarded (.s7 .plcList) .read id fun d =>
    .each (fun plc k => s7Call (testConnection plc.ip plc.port) k) d.pool.plcList .done

/-! ### The calls of all tasks -/

/-- The calls of the process. -/
inductive ProcessRequest
  /-- A session connects, looks whether it is connected, registers, or sends a heartbeat. -/
  | connect
  | isConnected
  | register
  | heartbeat
  /-- The commands that take a lock. -/
  | plcInfo (detail : String)
  | read (host : String) (port : UInt16)
  | write (host : String) (port : UInt16)
  | status
  | reportSubmitted
  | clientInfo
  /-- The loops. -/
  | reportPass (messages : ℕ)
  | statusPass
  | monitorPass (messages : ℕ)
  | checkConnections
  | sendPlcStatus
  /-- A callback with a deployment for a station, or for the PLC of the monitor: its content would
  be encoded with the definitions, read from inside the task. -/
  | deploy (forStation : Bool)
  /-- The threads of the files. -/
  | loadReports
  | persistReports
  | loadMeta
  | persistMeta
  | persistMonitors
  /-- The local API. -/
  | httpRead (host : String) (port : UInt16)
  | httpWrite (host : String) (port : UInt16)
  | httpDeploy
  | log
  | closeAll

section Requests

variable (fromStr : String → Option Value)

/-- The program of a call. -/
def ProcessRequest.prog : ProcessRequest → ProcessProg
  | connect => connectSession
  | isConnected => look .client .read .done
  | register => FillingPilot.request .done
  | heartbeat => FillingPilot.request .done
  | plcInfo detail => plcInfoCall fromStr detail
  | read host port => s7Call (readBytes host port) (sendResponse .done)
  | write host port => s7Call (writeBytes host port) (sendResponse .done)
  | status => look .statusCache .read (sendResponse .done)
  | reportSubmitted => look .caches .write .done
  | clientInfo => sendResponse .done
  | reportPass messages => reportPassCall messages
  | statusPass => statusPassCall
  | monitorPass messages => monitorPassCall messages
  | checkConnections => checkAllConnections
  | sendPlcStatus => sendResponse .done
  | deploy forStation => if forStation then look .fillStations .read .done else .done
  | loadReports => look .caches .write .done
  | persistReports => look .caches .read .done
  | loadMeta => look .metaCache .write .done
  | persistMeta => look .metaCache .read .done
  | persistMonitors => look .monitors .read .done
  | httpRead host port => s7Call (readBytes host port) .done
  | httpWrite host port => s7Call (writeBytes host port) .done
  | httpDeploy => look .deployments .write .done
  | log => look .logAddr .read <| .io fun resolved =>
      if resolved then look .logAddr .write .done else .done
  | closeAll => s7Call FillingPilot.closeAll .done

/-- A call starts, or a call under way takes a step. -/
inductive ProcessEvent
  | call (request : ProcessRequest)
  | advance (i : ℕ) (ok : Bool)

/-- The state of the process. -/
abbrev ProcessState := Locking.State ProcessLock ProcessData

/-- One step of the process. -/
def processStep (st : ProcessState) : ProcessEvent → Option ProcessState
  | .call request => some (st.spawn (request.prog fromStr))
  | .advance i ok => st.advance i ok

end Requests

/-- The process before its first call. -/
def processStart : ProcessState := ⟨[], ⟨poolStart.data, "", [], []⟩, 0⟩

/-! ### What a call holds when it asks -/

/-- What a call holds when it asks for a lock: nothing, apart from the states, which are asked for
under the monitors too, and from the locks of the S7 manager, which are asked for as the manager's
calls do, and under the states too. -/
def ProcessRule (held : List (ProcessLock × Access)) : ProcessLock → Access → Prop
  | .s7 l, a => ∃ inner outer, held = nestedHeld ProcessLock.s7 inner outer ∧ LockRule inner l a ∧
      (outer = [] ∨ outer = [(.states, .write)])
  | .states, _ => held = [] ∨ held = [(.monitors, .write)]
  | _, _ => held = []

theorem s7_injective : Function.Injective ProcessLock.s7 := fun _ _ h => ProcessLock.s7.inj h

/-- A call of the manager follows the rule, when it is made with no lock or under the states. -/
theorem s7Call_follows {p : PoolProg} (hp : p.Follows LockRule []) {k : ProcessProg}
    {held : List (ProcessLock × Access)} (hheld : held = [] ∨ held = [(.states, .write)])
    (hk : k.Follows ProcessRule held) : (s7Call p k).Follows ProcessRule held := by
  have houter : ∀ h ∈ held, h.1 ∉ Set.range ProcessLock.s7 := by
    rintro h hh ⟨l, hl⟩
    rcases hheld with rfl | rfl
    · cases hh
    · rw [List.mem_singleton] at hh
      subst hh
      cases hl
  exact Prog.Follows.within_seq s7_injective houter
    (fun inner l a hask => ⟨inner, held, rfl, hask, hheld⟩) hk hp

theorem readBytes_follows (host : String) (port : UInt16) :
    (readBytes host port).Follows LockRule [] :=
  (PoolRequest.readBytes host port).prog_follows

theorem done_follows : (Prog.done : ProcessProg).Follows ProcessRule [] := rfl

theorem guarded_follows {l : ProcessLock} {a : Access} {f : ProcessData → ProcessData}
    {k : ProcessData → ProcessProg} (hask : ProcessRule [] l a)
    (hk : ∀ d, (k d).Follows ProcessRule []) : (Prog.guarded l a f k).Follows ProcessRule [] :=
  Prog.follows_guarded (fun _ hh => absurd hh List.not_mem_nil) hask hk

theorem look_follows {l : ProcessLock} {a : Access} {k : ProcessProg} (hask : ProcessRule [] l a)
    (hk : k.Follows ProcessRule []) : (look l a k).Follows ProcessRule [] :=
  guarded_follows hask fun _ => hk

theorem request_follows {k : ProcessProg} (hk : k.Follows ProcessRule []) :
    (request k).Follows ProcessRule [] :=
  ⟨rfl, fun _ => by simpa [Prog.Follows] using hk⟩

theorem sendResponses_follows (messages : ℕ) :
    (sendResponses messages .done).Follows ProcessRule [] :=
  Prog.follows_each (fun _ _ hk => request_follows hk) done_follows _

theorem plcInfoAnswers_follows (plcs : List PlcConfig) :
    (plcInfoAnswers plcs).Follows ProcessRule [] := by
  refine Prog.follows_each (fun _ k hk => ?_) (request_follows done_follows) plcs
  intro result
  exact request_follows hk

theorem updateStationsCall_follows (stations : List FillStation) {k : ProcessProg}
    (hk : k.Follows ProcessRule []) : (updateStationsCall stations k).Follows ProcessRule [] := by
  unfold updateStationsCall
  split_ifs
  · exact hk
  · exact guarded_follows rfl fun _ => hk

theorem updateMonitorsCall_follows (new : List Monitor) {k : ProcessProg}
    (hk : k.Follows ProcessRule []) : (updateMonitorsCall new k).Follows ProcessRule [] := by
  unfold updateMonitorsCall
  split_ifs
  · exact hk
  · refine ⟨rfl, fun d => Prog.follows_each (fun m k hk => ?_) ?_ _⟩
    · refine Prog.follows_guarded (fun h hh => ?_) (Or.inr rfl) fun _ => hk
      rw [List.mem_singleton] at hh
      subst hh
      -- the lock held is that of the monitors, another one
      simp
    · simpa [Prog.Follows] using hk

theorem plcInfoCall_follows (fromStr : String → Option Value) (detail : String) :
    (plcInfoCall fromStr detail).Follows ProcessRule [] := by
  have hanswers := plcInfoAnswers_follows (parsePlcList fromStr detail)
  refine guarded_follows rfl fun d => ?_
  split_ifs with hplcs hsame
  · exact done_follows
  · exact hanswers
  · refine guarded_follows rfl fun _ => ?_
    refine s7Call_follows (PoolRequest.updatePlcList _).prog_follows (Or.inl rfl) ?_
    refine updateStationsCall_follows _ (updateMonitorsCall_follows _ ?_)
    exact look_follows rfl (look_follows rfl hanswers)

theorem readReportCall_follows (s : FillStation) (k : ProcessProg)
    (hk : k.Follows ProcessRule []) : (readReportCall s k).Follows ProcessRule [] := by
  unfold readReportCall
  split_ifs
  · exact hk
  · refine s7Call_follows (readBytes_follows _ _) (Or.inl rfl) fun ok => ?_
    cases ok with
    | true => exact guarded_follows rfl fun _ => hk
    | false => exact hk

theorem readStatusCall_follows (s : FillStation) (k : ProcessProg)
    (hk : k.Follows ProcessRule []) : (readStatusCall s k).Follows ProcessRule [] := by
  unfold readStatusCall
  split_ifs
  · exact hk
  · refine s7Call_follows (readBytes_follows _ _) (Or.inl rfl) fun ok => ?_
    cases ok with
    | true => exact look_follows rfl (look_follows rfl hk)
    | false => exact hk

theorem postLocal_follows (m : Monitor) {k : ProcessProg} (hk : k.Follows ProcessRule []) :
    (postLocal m k).Follows ProcessRule [(.states, .write)] := by
  unfold postLocal
  split_ifs
  · simpa [Prog.Follows] using hk
  · simp [Prog.Follows]

theorem triggerMonitor_follows (m : Monitor) (k : ProcessProg) (hk : k.Follows ProcessRule []) :
    (triggerMonitor m k).Follows ProcessRule [] := by
  have hpost := postLocal_follows m hk
  have hresend : ∀ again : Bool, (if again then postLocal m k else .release .states k).Follows
      ProcessRule [(.states, .write)] := by
    intro again
    cases again with
    | true => exact hpost
    | false => simpa [Prog.Follows] using hk
  refine ⟨Or.inl rfl, fun due => ?_⟩
  cases due with
  | true =>
      refine s7Call_follows (readBytes_follows _ _) (Or.inr rfl) fun changed => ?_
      cases changed with
      | true => exact hpost
      | false => exact hresend
  | false => exact hresend

/-- **Every call follows the rule.** -/
theorem ProcessRequest.prog_follows (fromStr : String → Option Value) (request : ProcessRequest) :
    (request.prog fromStr).Follows ProcessRule [] := by
  have hwrite (host : String) (port : UInt16) : (writeBytes host port).Follows LockRule [] :=
    (PoolRequest.writeBytes host port).prog_follows
  cases request with
  | connect =>
      intro ok
      cases ok with
      | true => exact look_follows rfl done_follows
      | false => exact done_follows
  | isConnected => exact look_follows rfl done_follows
  | register => exact request_follows done_follows
  | heartbeat => exact request_follows done_follows
  | plcInfo detail => exact plcInfoCall_follows fromStr detail
  | read host port =>
      exact s7Call_follows (readBytes_follows host port) (Or.inl rfl) (request_follows done_follows)
  | write host port =>
      exact s7Call_follows (hwrite host port) (Or.inl rfl) (request_follows done_follows)
  | status => exact look_follows rfl (request_follows done_follows)
  | reportSubmitted => exact look_follows rfl done_follows
  | clientInfo => exact request_follows done_follows
  | reportPass messages =>
      refine guarded_follows rfl fun d => Prog.follows_each readReportCall_follows ?_ _
      exact look_follows rfl (sendResponses_follows messages)
  | statusPass =>
      refine guarded_follows rfl fun d => Prog.follows_each readStatusCall_follows ?_ _
      intro changed
      cases changed with
      | true => exact request_follows done_follows
      | false => exact done_follows
  | monitorPass messages =>
      refine guarded_follows rfl fun d => ?_
      exact Prog.follows_each triggerMonitor_follows (sendResponses_follows messages) _
  | checkConnections =>
      refine guarded_follows ⟨[], [], rfl, rfl, Or.inl rfl⟩ fun d => ?_
      refine Prog.follows_each (fun plc k hk => ?_) done_follows _
      exact s7Call_follows (PoolRequest.testConnection plc.ip plc.port).prog_follows (Or.inl rfl) hk
  | sendPlcStatus => exact request_follows done_follows
  | deploy forStation =>
      cases forStation with
      | true => exact look_follows rfl done_follows
      | false => exact done_follows
  | loadReports => exact look_follows rfl done_follows
  | persistReports => exact look_follows rfl done_follows
  | loadMeta => exact look_follows rfl done_follows
  | persistMeta => exact look_follows rfl done_follows
  | persistMonitors => exact look_follows rfl done_follows
  | httpRead host port =>
      exact s7Call_follows (readBytes_follows host port) (Or.inl rfl) done_follows
  | httpWrite host port => exact s7Call_follows (hwrite host port) (Or.inl rfl) done_follows
  | httpDeploy => exact look_follows rfl done_follows
  | log =>
      refine look_follows rfl fun resolved => ?_
      cases resolved with
      | true => exact look_follows rfl done_follows
      | false => exact done_follows
  | closeAll => exact s7Call_follows PoolRequest.closeAll.prog_follows (Or.inl rfl) done_follows

/-- **What a step keeps**: every call follows the rule. -/
theorem processStep_follows {fromStr : String → Option Value} {st st' : ProcessState}
    {e : ProcessEvent} (hst : ∀ c ∈ st.calls, c.Follows ProcessRule)
    (h : processStep fromStr st e = some st') : ∀ c ∈ st'.calls, c.Follows ProcessRule := by
  cases e with
  | call request =>
      cases h
      intro c hc
      rcases List.mem_append.1 hc with hold | hnew
      · exact hst c hold
      · rw [List.mem_singleton] at hnew
        subst hnew
        exact request.prog_follows fromStr
  | advance i ok => exact State.advance_follows hst h

/-! ### Circles -/

/-- A call that holds the pool lock waits for a connection, and the call that holds this connection
waits for the pool lock. -/
def PoolCircle (n : ℕ) (c d : Call ProcessLock ProcessData) : Prop :=
  (∃ b, (.s7 .pool, b) ∈ c.held) ∧ (∃ a, c.WaitsFor (.s7 (.conn n)) a) ∧
    (.s7 (.conn n), .write) ∈ d.held ∧ d.WaitsFor (.s7 .pool) .write

/-- The locks of the S7 manager. -/
def IsS7 : ProcessLock → Prop
  | .s7 _ => True
  | _ => False

/-- The order of the other locks. -/
def lockRank : ProcessLock → ℕ
  | .states => 1
  | _ => 0

theorem processRule_climbs : Climbs IsS7 lockRank ProcessRule := by
  intro held l a hask h hh hcore
  cases l with
  | s7 l => exact Or.inl trivial
  | states =>
      rcases hask with rfl | rfl
      · cases hh
      · rw [List.mem_singleton] at hh
        subst hh
        exact Or.inr (by decide)
  | client | lastPlcDetail | caches | statusCache | lastStatusSentTime | monitors | fillStations |
    metaCache | deployments | logAddr =>
      obtain rfl : held = [] := hask
      cases hh

/-- A call that holds a lock of the manager and asks for another lock is in a call of the manager.
-/
theorem lockRule_of_s7_mem {held : List (ProcessLock × Access)} {l : PoolLock} {b : Access}
    {l' : ProcessLock} {a : Access} (hask : ProcessRule held l' a) (hheld : (.s7 l, b) ∈ held) :
    ∃ inner l'', l' = .s7 l'' ∧ LockRule inner l'' a ∧ (l, b) ∈ inner ∧
      ∀ h ∈ inner, (ProcessLock.s7 h.1, h.2) ∈ held := by
  cases l' with
  | s7 l'' =>
      obtain ⟨inner, outer, rfl, hrule, houter⟩ := hask
      have hinner : ∀ h ∈ inner,
          (ProcessLock.s7 h.1, h.2) ∈ nestedHeld ProcessLock.s7 inner outer :=
        fun h hh => List.mem_append_left _ (List.mem_map_of_mem hh)
      refine ⟨inner, l'', rfl, hrule, ?_, hinner⟩
      rcases List.mem_append.1 hheld with hmem | hmem
      · obtain ⟨⟨l₀, b₀⟩, hh, heq⟩ := List.mem_map.1 hmem
        simp only [Prod.mk.injEq, ProcessLock.s7.injEq] at heq
        obtain ⟨rfl, rfl⟩ := heq
        exact hh
      · rcases houter with rfl | rfl
        · cases hmem
        · rw [List.mem_singleton] at hmem
          cases hmem
  | states =>
      rcases hask with rfl | rfl
      · cases hheld
      · rw [List.mem_singleton] at hheld
        cases hheld
  | client | lastPlcDetail | caches | statusCache | lastStatusSentTime | monitors | fillStations |
    metaCache | deployments | logAddr =>
      obtain rfl : held = [] := hask
      cases hheld

/-- **A stuck process has a circle in the pool**: whoever waits leads to a lock of the S7 manager,
from there to a call under the pool lock that waits for a connection, and to the one that holds the
connection. -/
theorem circle_of_processStuck {st : ProcessState} (hrule : ∀ c ∈ st.calls, c.Follows ProcessRule)
    (hstuck : st.Stuck) {c : Call ProcessLock ProcessData} (hc : c ∈ st.calls)
    (hunfinished : c.prog ≠ .done) :
    ∃ (n : ℕ) (c d : Call ProcessLock ProcessData), c ∈ st.calls ∧ d ∈ st.calls ∧
      PoolCircle n c d := by
  -- who holds a connection and waits asks for the pool
  have hconn : ∀ c ∈ st.calls, ∀ n a, c.WaitsFor (.s7 (.conn n)) a →
      ∃ d ∈ st.calls, (.s7 (.conn n), .write) ∈ d.held ∧ d.WaitsFor (.s7 .pool) .write := by
    intro c hc n a hwaits
    obtain ⟨d, hd, ⟨b, hheld⟩, l', a', hwaits', hask⟩ := hstuck.next hrule hc hwaits
    obtain ⟨inner, l, rfl, hlock, hinner, hall⟩ := lockRule_of_s7_mem hask hheld
    obtain ⟨rfl, rfl, rfl⟩ := hlock.of_conn_mem hinner
    exact ⟨d, hd, hall _ (List.mem_singleton_self _), hwaits'⟩
  -- who holds the pool and waits asks for a connection, which closes the circle
  have hpool : ∀ c ∈ st.calls, ∀ a, c.WaitsFor (.s7 .pool) a →
      ∃ (n : ℕ) (c d : Call ProcessLock ProcessData), c ∈ st.calls ∧ d ∈ st.calls ∧
        PoolCircle n c d := by
    intro c hc a hwaits
    obtain ⟨d, hd, ⟨b, hheld⟩, l', a', hwaits', hask⟩ := hstuck.next hrule hc hwaits
    obtain ⟨inner, l, rfl, hlock, hinner, -⟩ := lockRule_of_s7_mem hask hheld
    obtain ⟨-, n, rfl⟩ := hlock.of_pool_mem hinner
    obtain ⟨t, ht, htest, htwaits⟩ := hconn d hd n a' hwaits'
    exact ⟨n, d, t, hd, ht, ⟨b, hheld⟩, ⟨a', hwaits'⟩, htest, htwaits⟩
  have hbound : ∀ l, lockRank l ≤ 1 := fun l => by cases l <;> simp [lockRank]
  obtain ⟨d, hd, l, a, hcore, hwaits⟩ :=
    hstuck.exists_waits_core hrule processRule_climbs hbound hc hunfinished
  cases l with
  | s7 l =>
      cases l with
      | pool => exact hpool d hd a hwaits
      | conn n =>
          obtain ⟨t, ht, -, htwaits⟩ := hconn d hd n a hwaits
          exact hpool t ht .write htwaits
      | plcList =>
          obtain ⟨t, ht, ⟨b, hheld⟩, l', a', hwaits', hask⟩ := hstuck.next hrule hd hwaits
          obtain ⟨inner, l, rfl, hlock, hinner, -⟩ := lockRule_of_s7_mem hask hheld
          obtain rfl := hlock.of_plcList_mem hinner
          exact hpool t ht a' hwaits'
  | client | lastPlcDetail | caches | statusCache | lastStatusSentTime | monitors | states |
    fillStations | metaCache | deployments | logAddr => exact absurd hcore id

/-- While a call is unfinished, some call can take a step, or two calls are in a circle. -/
def Progresses (st : ProcessState) : Prop :=
  (∃ c ∈ st.calls, c.prog ≠ .done) →
    (∃ i ok, st.advance i ok ≠ none) ∨
      ∃ (n : ℕ) (c d : Call ProcessLock ProcessData), c ∈ st.calls ∧ d ∈ st.calls ∧ PoolCircle n c d

/-- **The process never stands still** unless the pool does: in every state of every run, whatever
calls have been started, in whatever order their steps are taken and however their I/O turns out. -/
theorem process_progress (fromStr : String → Option Value) (events : List ProcessEvent) :
    Lts.Always (processStep fromStr) Progresses processStart events := by
  refine Lts.always_of_invariant (I := fun st => ∀ c ∈ st.calls, c.Follows ProcessRule) ?_
    (fun _ _ _ hst h => processStep_follows hst h) (fun _ hc => absurd hc List.not_mem_nil)
  rintro st hrule ⟨c, hc, hunfinished⟩
  by_cases hstuck : st.Stuck
  · exact Or.inr (circle_of_processStuck hrule hstuck hc hunfinished)
  · simp only [State.Stuck, not_forall] at hstuck
    exact Or.inl hstuck

end FillingPilot
