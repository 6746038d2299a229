/-
The connection pool of the S7 manager, as calls over its locks.

The pool is a map from `host:port` to a connection behind a lock of its own; the map is behind the
pool lock, and the PLC list behind a third one.  `connect` looks a connection up under the pool
lock and asks for the connection's lock while it holds the pool lock; `test_connection`, when its
probe fails, asks for the pool lock while it holds the connection's lock.

Main definitions:

* `FillingPilot.PoolLock`, `FillingPilot.PoolData` — the locks and the data behind them;
* `FillingPilot.connect`, `FillingPilot.readBytes`, `FillingPilot.writeBytes`,
  `FillingPilot.testConnection`, `FillingPilot.updatePlcList`, `FillingPilot.closeAll` — the calls;
* `FillingPilot.LockRule` — what a call holds when it asks for a lock;
* `FillingPilot.AsksClear` — the step does not ask for a lock across a failed test;
* `FillingPilot.NoCircle` — no failed test and no call under the pool lock wait for each other.

Main results:

* `FillingPilot.poolStep_follows` — every call follows the rule;
* `FillingPilot.finished_of_stuck` — without a circle, a stuck pool has only finished calls;
* `FillingPilot.calls_never_stuck` — **no deadlock** in a run whose steps all ask clear;
* `FillingPilot.circle_stays` — after a step that does not, two calls wait for each other for good;
* `FillingPilot.test_and_read_deadlock` — a run in which a test and a read block each other.
-/

import FillingPilot.Locking
import FillingPilot.Runs
import Mathlib.Data.List.AList

set_option relaxedAutoImplicit false
set_option autoImplicit false

namespace FillingPilot

open Locking

/-! ### Locks and data -/

/-- The configuration of a PLC. -/
structure PlcConfig where
  id : String
  ip : String
  port : UInt16
  deriving DecidableEq

/-- The locks of the manager: connections are numbered in the order of their creation. -/
inductive PoolLock
  | plcList
  | pool
  | conn (c : ℕ)
  deriving DecidableEq

/-- What the locks guard, and the number of the next connection. -/
structure PoolData where
  connections : AList fun _ : String => ℕ
  plcList : List PlcConfig
  nextConn : ℕ

/-- The key of a PLC in the pool. -/
def poolKey (host : String) (port : UInt16) : String := host ++ ":" ++ toString port.toNat

/-- A new connection under a key. -/
def PoolData.insertNew (key : String) (d : PoolData) : PoolData :=
  { d with connections := d.connections.insert key d.nextConn, nextConn := d.nextConn + 1 }

/-- A key taken out of the pool. -/
def PoolData.remove (key : String) (d : PoolData) : PoolData :=
  { d with connections := d.connections.erase key }

/-- A call of the manager. -/
abbrev PoolProg := Prog PoolLock PoolData

/-! ### The calls -/

/-- The slow path of `connect`: a new connection is made without any lock, and stored. -/
def connectSlow (key : String) (k : Option ℕ → PoolProg) : PoolProg :=
  .io fun ok =>
    if ok then
      .acquire .pool .write <| .act (PoolData.insertNew key) fun d =>
        .release .pool (k (some d.nextConn))
    else k none

/-- `connect`, with what its caller does with the connection or the error. -/
def connect (key : String) (k : Option ℕ → PoolProg) : PoolProg :=
  .acquire .pool .read <| .act id fun d =>
    match d.connections.lookup key with
    | some c =>
        -- the pool guard is alive while the connection is looked at
        .acquire (.conn c) .read <| .io fun isConnected =>
          .release (.conn c) <| .release .pool <|
            if isConnected then k (some c) else connectSlow key k
    | none => .release .pool (connectSlow key k)

/-- One transfer over a shared connection. -/
def transfer (host : String) (port : UInt16) : PoolProg :=
  connect (poolKey host port) fun
    | some c => .acquire (.conn c) .write <| .io fun _ => .release (.conn c) .done
    | none => .done

/-- `read_bytes`. -/
def readBytes (host : String) (port : UInt16) : PoolProg := transfer host port

/-- `write_bytes`. -/
def writeBytes (host : String) (port : UInt16) : PoolProg := transfer host port

/-- `test_connection`. -/
def testConnection (host : String) (port : UInt16) : PoolProg :=
  connect (poolKey host port) fun
    | some c =>
        .acquire (.conn c) .write <| .io fun alive =>
          if alive then .release (.conn c) .done
          else
            -- the connection died; its guard is still alive here
            .acquire .pool .write <| .act (PoolData.remove (poolKey host port)) fun _ =>
              .release .pool <| .release (.conn c) .done
    | none =>
        .acquire .pool .write <| .act (PoolData.remove (poolKey host port)) fun _ =>
          .release .pool .done

/-- The connections `update_plc_list` creates, one section of the pool lock for each PLC. -/
def preCreate : List PlcConfig → PoolProg
  | [] => .release .plcList .done
  | plc :: plcs =>
      let key := poolKey plc.ip plc.port
      .acquire .pool .write <|
        .act (fun d => if key ∈ d.connections then d else d.insertNew key) fun _ =>
          .release .pool (preCreate plcs)

/-- `update_plc_list`: the guard of the list lives to the end. -/
def updatePlcList (plcs : List PlcConfig) : PoolProg :=
  .acquire .plcList .write <| .act (fun d => { d with plcList := plcs }) fun _ => preCreate plcs

/-- The connections `close_all` closes, under the pool lock. -/
def disconnectAll : List ℕ → PoolProg
  | [] => .release .pool .done
  | c :: cs =>
      .acquire (.conn c) .write <| .io fun _ => .release (.conn c) (disconnectAll cs)

/-- `close_all`. -/
def closeAll : PoolProg :=
  .acquire .pool .write <| .act (fun d => { d with connections := ∅ }) fun d =>
    disconnectAll (d.connections.entries.map fun e => e.2)

/-- The calls of the manager. -/
inductive PoolRequest
  | readBytes (host : String) (port : UInt16)
  | writeBytes (host : String) (port : UInt16)
  | testConnection (host : String) (port : UInt16)
  | updatePlcList (plcs : List PlcConfig)
  | closeAll

/-- The program of a call. -/
def PoolRequest.prog : PoolRequest → PoolProg
  | readBytes host port => FillingPilot.readBytes host port
  | writeBytes host port => FillingPilot.writeBytes host port
  | testConnection host port => FillingPilot.testConnection host port
  | updatePlcList plcs => FillingPilot.updatePlcList plcs
  | closeAll => FillingPilot.closeAll

/-- A call starts, or a call under way takes a step. -/
inductive PoolEvent
  | call (request : PoolRequest)
  | advance (i : ℕ) (ok : Bool)

/-- The state of the manager. -/
abbrev PoolState := Locking.State PoolLock PoolData

/-- One step of the manager. -/
def poolStep (st : PoolState) : PoolEvent → Option PoolState
  | .call request => some (st.spawn request.prog)
  | .advance i ok => st.advance i ok

/-- The new manager. -/
def poolStart : PoolState := ⟨[], ⟨∅, [], 0⟩, 0⟩

/-! ### What a call holds when it asks -/

/-- What a call holds when it asks for a lock, and how it asks. -/
def LockRule (held : List (PoolLock × Access)) : PoolLock → Access → Prop
  | .plcList, _ => held = []
  | .pool, a =>
      held = [] ∨ a = .write ∧ (held = [(.plcList, .write)] ∨ ∃ n, held = [(.conn n, .write)])
  | .conn _, _ => held = [] ∨ ∃ b, held = [(.pool, b)]

/-- Under a connection's lock a call asks for the pool lock only. -/
theorem LockRule.of_conn_mem {held : List (PoolLock × Access)} {l : PoolLock} {a b : Access}
    {n : ℕ} (h : LockRule held l a) (hheld : (.conn n, b) ∈ held) :
    held = [(.conn n, .write)] ∧ l = .pool ∧ a = .write := by
  cases l with
  | plcList => simp only [LockRule] at h; simp [h] at hheld
  | pool =>
      rcases h with rfl | ⟨rfl, rfl | ⟨m, rfl⟩⟩
      · simp at hheld
      · simp at hheld
      · simp only [List.mem_singleton, Prod.mk.injEq, PoolLock.conn.injEq] at hheld
        exact ⟨by rw [hheld.1], rfl, rfl⟩
  | conn m => rcases h with rfl | ⟨b', rfl⟩ <;> simp at hheld

/-- Under the pool lock a call asks for connections only. -/
theorem LockRule.of_pool_mem {held : List (PoolLock × Access)} {l : PoolLock} {a b : Access}
    (h : LockRule held l a) (hheld : (.pool, b) ∈ held) :
    (∃ b, held = [(.pool, b)]) ∧ ∃ n, l = .conn n := by
  cases l with
  | plcList => simp only [LockRule] at h; simp [h] at hheld
  | pool => rcases h with rfl | ⟨rfl, rfl | ⟨m, rfl⟩⟩ <;> simp at hheld
  | conn m =>
      rcases h with rfl | hpool
      · simp at hheld
      · exact ⟨hpool, m, rfl⟩

/-- Under the lock of the PLC list a call asks for the pool lock only. -/
theorem LockRule.of_plcList_mem {held : List (PoolLock × Access)} {l : PoolLock} {a b : Access}
    (h : LockRule held l a) (hheld : (.plcList, b) ∈ held) : l = .pool := by
  cases l with
  | plcList => simp only [LockRule] at h; simp [h] at hheld
  | pool => rfl
  | conn m => rcases h with rfl | ⟨b', rfl⟩ <;> simp at hheld

theorem connect_follows {key : String} {k : Option ℕ → PoolProg}
    (hk : ∀ c, (k c).Follows LockRule []) : (connect key k).Follows LockRule [] := by
  have hslow : (connectSlow key k).Follows LockRule [] := by
    intro ok
    cases ok with
    | true => exact ⟨Or.inl rfl, fun d => hk (some d.nextConn)⟩
    | false => exact hk none
  refine ⟨Or.inl rfl, fun d => ?_⟩
  dsimp only
  cases d.connections.lookup key with
  | none => exact hslow
  | some c =>
      refine ⟨Or.inr ⟨.read, rfl⟩, fun isConnected => ?_⟩
      cases isConnected with
      | true => simpa [Prog.Follows] using hk (some c)
      | false => simpa [Prog.Follows] using hslow

theorem preCreate_follows (plcs : List PlcConfig) :
    (preCreate plcs).Follows LockRule [(.plcList, .write)] := by
  induction plcs with
  | nil => simp [preCreate, Prog.Follows]
  | cons plc plcs ih =>
      refine ⟨Or.inr ⟨rfl, Or.inl rfl⟩, fun d => ?_⟩
      simpa [Prog.Follows] using ih

theorem disconnectAll_follows (cs : List ℕ) :
    (disconnectAll cs).Follows LockRule [(.pool, .write)] := by
  induction cs with
  | nil => simp [disconnectAll, Prog.Follows]
  | cons c cs ih =>
      refine ⟨Or.inr ⟨.write, rfl⟩, fun ok => ?_⟩
      simpa [Prog.Follows] using ih

/-- **Every call follows the rule.** -/
theorem PoolRequest.prog_follows (request : PoolRequest) : request.prog.Follows LockRule [] := by
  have htransfer : ∀ host port, (transfer host port).Follows LockRule [] := by
    intro host port
    refine connect_follows fun c => ?_
    cases c with
    | none => rfl
    | some c => simp [Prog.Follows, LockRule]
  cases request with
  | readBytes host port => exact htransfer host port
  | writeBytes host port => exact htransfer host port
  | testConnection host port =>
      refine connect_follows fun c => ?_
      cases c with
      | none => simp [Prog.Follows, LockRule]
      | some c =>
          refine ⟨Or.inl rfl, fun alive => ?_⟩
          cases alive with
          | true => simp [Prog.Follows]
          | false => simp [Prog.Follows, LockRule]
  | updatePlcList plcs => exact ⟨rfl, fun d => preCreate_follows plcs⟩
  | closeAll => exact ⟨Or.inl rfl, fun d => disconnectAll_follows _⟩

/-- **What a step keeps**: every call follows the rule. -/
theorem poolStep_follows {st st' : PoolState} {e : PoolEvent}
    (hst : ∀ c ∈ st.calls, c.Follows LockRule) (h : poolStep st e = some st') :
    ∀ c ∈ st'.calls, c.Follows LockRule := by
  cases e with
  | call request =>
      cases h
      intro c hc
      rcases List.mem_append.1 hc with hold | hnew
      · exact hst c hold
      · rw [List.mem_singleton] at hnew
        subst hnew
        exact request.prog_follows
  | advance i ok => exact State.advance_follows hst h

/-! ### Circles -/

/-- The call holds the pool lock and nothing else. -/
def UnderPool (c : Call PoolLock PoolData) : Prop := ∃ b, c.held = [(.pool, b)]

/-- The call holds connection `n` for writing and nothing else, as a test whose probe failed does
when it turns to the pool lock. -/
def UnderConn (n : ℕ) (c : Call PoolLock PoolData) : Prop := c.held = [(.conn n, .write)]

/-- A call under the pool lock and a failed test wait for each other. -/
def Circle (n : ℕ) (c d : Call PoolLock PoolData) : Prop :=
  UnderPool c ∧ (∃ a, c.WaitsFor (.conn n) a) ∧ UnderConn n d ∧ d.WaitsFor .pool .write

/-- No call under the pool lock and no failed test wait for each other. -/
def NoCircle (st : PoolState) : Prop :=
  ∀ n, ∀ c ∈ st.calls, ∀ d ∈ st.calls, ¬ Circle n c d

/-- The step does not ask for a lock across a failed test: a test whose probe failed does not ask
for the pool lock while a call under the pool lock waits for the tested connection, and a call
under the pool lock does not ask for a connection whose failed test waits for the pool lock. -/
def AsksClear (st : PoolState) : PoolEvent → Prop
  | .call _ => True
  | .advance i _ =>
      ∀ c, st.calls[i]? = some c → ∀ n a, ∀ d ∈ st.calls,
        (UnderConn n c → c.AboutToAsk .pool .write → UnderPool d → ¬ d.WaitsFor (.conn n) a) ∧
          (UnderPool c → c.AboutToAsk (.conn n) a → UnderConn n d → ¬ d.WaitsFor .pool .write)

/-- **What a clear step keeps**: there is no circle. -/
theorem poolStep_noCircle {st st' : PoolState} {e : PoolEvent} (hclear : AsksClear st e)
    (hst : NoCircle st) (h : poolStep st e = some st') : NoCircle st' := by
  rintro n c hc d hd ⟨hpool, ⟨a, hwaits⟩, hconn, hback⟩
  cases e with
  | call request =>
      cases h
      -- a call that just started does not wait
      have hold : ∀ {x : Call PoolLock PoolData} {l : PoolLock} {a : Access},
          x ∈ st.calls ++ [request.prog.start] → x.WaitsFor l a → x ∈ st.calls := by
        intro x l a hx hx'
        rcases List.mem_append.1 hx with hold | hnew
        · exact hold
        · rw [List.mem_singleton] at hnew
          subst hnew
          cases hx'.2
      exact hst n c (hold hc hwaits) d (hold hd hback) ⟨hpool, ⟨a, hwaits⟩, hconn, hback⟩
  | advance i ok =>
      obtain ⟨c₀, c₁, hi, hmove, hcalls⟩ := State.advance_cases h
      rw [hcalls] at hc hd
      rcases List.mem_or_eq_of_mem_set hc with hc' | rfl
      · rcases List.mem_or_eq_of_mem_set hd with hd' | rfl
        · exact hst n c hc' d hd' ⟨hpool, ⟨a, hwaits⟩, hconn, hback⟩
        · -- the failed test has just asked for the pool lock
          obtain ⟨hask, hheld⟩ := hmove.aboutToAsk hback
          have hconn₀ : UnderConn n c₀ := hheld.symm.trans hconn
          exact (hclear c₀ hi n a c hc').1 hconn₀ hask hpool hwaits
      · obtain ⟨hask, hheld⟩ := hmove.aboutToAsk hwaits
        rcases List.mem_or_eq_of_mem_set hd with hd' | rfl
        · -- the call under the pool lock has just asked for the connection
          have hpool₀ : UnderPool c₀ := hpool.imp fun b hb => hheld.symm.trans hb
          exact (hclear c₀ hi n a d hd').2 hpool₀ hask hconn hback
        · obtain ⟨b, hb⟩ := hpool
          rw [UnderConn, hb] at hconn
          cases hconn

/-- **Without a circle, a stuck pool has only finished calls**: a call that waits leads, holder by
holder, to a call under the pool lock that waits for a connection, and from there to the failed
test that holds the connection. -/
theorem finished_of_stuck {st : PoolState} (hrule : ∀ c ∈ st.calls, c.Follows LockRule)
    (hcircle : NoCircle st) (hstuck : st.Stuck) : ∀ c ∈ st.calls, c.prog = .done := by
  -- who holds a connection and waits is a test that asks for the pool
  have hconn : ∀ c ∈ st.calls, ∀ n a, c.WaitsFor (.conn n) a →
      ∃ d ∈ st.calls, UnderConn n d ∧ d.WaitsFor .pool .write := by
    intro c hc n a hwaits
    obtain ⟨d, hd, ⟨b, hheld⟩, l, a', hwaits', hask⟩ := hstuck.next hrule hc hwaits
    obtain ⟨hunder, rfl, rfl⟩ := hask.of_conn_mem hheld
    exact ⟨d, hd, hunder, hwaits'⟩
  -- who holds the pool and waits asks for a connection, which would close a circle
  have hpool : ∀ c ∈ st.calls, ∀ a, ¬ c.WaitsFor .pool a := by
    intro c hc a hwaits
    obtain ⟨d, hd, ⟨b, hheld⟩, l, a', hwaits', hask⟩ := hstuck.next hrule hc hwaits
    obtain ⟨hunder, n, rfl⟩ := hask.of_pool_mem hheld
    obtain ⟨t, ht, htest, htwaits⟩ := hconn d hd n a' hwaits'
    exact hcircle n d hd t ht ⟨hunder, ⟨a', hwaits'⟩, htest, htwaits⟩
  intro c hc
  rcases hstuck.done_or_waits hc with hdone | ⟨l, a, hwaits⟩
  · exact hdone
  · cases l with
    | pool => exact absurd hwaits (hpool c hc a)
    | conn n =>
        obtain ⟨d, hd, -, hwaits'⟩ := hconn c hc n a hwaits
        exact absurd hwaits' (hpool d hd .write)
    | plcList =>
        obtain ⟨d, hd, ⟨b, hheld⟩, l, a', hwaits', hask⟩ := hstuck.next hrule hc hwaits
        obtain rfl := hask.of_plcList_mem hheld
        exact absurd hwaits' (hpool d hd a')

/-- **No deadlock** in a run whose steps all ask clear: while some call is unfinished, some call
can take a step. -/
theorem calls_never_stuck {events : List PoolEvent} {st : PoolState}
    (hclear : Lts.Along poolStep AsksClear poolStart events)
    (hrun : Lts.run poolStep poolStart events = some st) :
    ¬ ((∃ c ∈ st.calls, c.prog ≠ .done) ∧ ∀ i ok, poolStep st (.advance i ok) = none) := by
  rintro ⟨⟨c, hc, hunfinished⟩, hstuck⟩
  have hstart : NoCircle poolStart ∧ ∀ c ∈ poolStart.calls, c.Follows LockRule :=
    ⟨fun _ _ hc => absurd hc List.not_mem_nil, fun _ hc => absurd hc List.not_mem_nil⟩
  obtain ⟨hcircle, hrule⟩ :=
    Lts.run_invariant (I := fun st => NoCircle st ∧ ∀ c ∈ st.calls, c.Follows LockRule)
      (fun st e st' hok hst h => ⟨poolStep_noCircle hok hst.1 h, poolStep_follows hst.2 h⟩)
      hstart hclear hrun
  exact hunfinished (finished_of_stuck hrule hcircle hstuck c hc)

/-- The call has a lock to ask for and has not asked yet. -/
def asks (c : Call PoolLock PoolData) : Bool :=
  match c.prog, c.ticket with
  | .acquire _ _ _, none => true
  | _, _ => false

/-- The step is not one in which a call that holds a lock asks for another while some call waits. -/
def AsksFree (st : PoolState) : PoolEvent → Prop
  | .call _ => True
  | .advance i _ =>
      ∀ c ∈ st.calls[i]?, c.held = [] ∨ asks c = false ∨ ∀ d ∈ st.calls, d.ticket = none

instance (st : PoolState) : DecidablePred (AsksFree st)
  | .call _ => isTrue trivial
  | .advance i _ =>
      inferInstanceAs (Decidable (∀ c ∈ st.calls[i]?, c.held = [] ∨ asks c = false ∨
        ∀ d ∈ st.calls, d.ticket = none))

/-- Such a step asks clear. -/
theorem AsksFree.clear {st : PoolState} {e : PoolEvent} (h : AsksFree st e) : AsksClear st e := by
  cases e with
  | call request => trivial
  | advance i ok =>
      intro c hi n a d hd
      have hnot {l : PoolLock} {b : Access} (hwaiting : ∀ d ∈ st.calls, d.ticket = none) :
          ¬ d.WaitsFor l b := by
        rintro ⟨-, hticket⟩
        rw [hwaiting d hd] at hticket
        cases hticket
      rcases h c hi with hheld | hasks | hwaiting
      · refine ⟨fun hconn => ?_, fun ⟨b, hpool⟩ => ?_⟩
        · rw [UnderConn, hheld] at hconn
          cases hconn
        · rw [hheld] at hpool
          cases hpool
      · have hask {l : PoolLock} {b : Access} : ¬ c.AboutToAsk l b := by
          rintro ⟨⟨k, hprog⟩, hticket⟩
          rw [asks, hprog, hticket] at hasks
          cases hasks
        exact ⟨fun _ habout => absurd habout hask, fun _ habout => absurd habout hask⟩
      · exact ⟨fun _ _ _ => hnot hwaiting, fun _ _ _ => hnot hwaiting⟩

/-- A test (call 0) connects, and a read of the same PLC (call 1) looks at the new connection while
the test waits for it.  The probe fails, and the read waits for the connection while the test takes
it out of the pool. -/
def testThenRead : List PoolEvent :=
  [.call (.testConnection "plc" 102), .call (.readBytes "plc" 102)] ++
    List.replicate 9 (.advance 0 true) ++ List.replicate 5 (.advance 1 true) ++
      [.advance 0 true] ++ List.replicate 3 (.advance 1 true) ++
        [.advance 0 true, .advance 0 false, .advance 0 true, .advance 1 true] ++
          List.replicate 4 (.advance 0 true)

/-- The calls overlap from end to end, and contend for both locks. -/
theorem calls_never_stuck_testThenRead :
    ∃ st, Lts.run poolStep poolStart testThenRead = some st ∧
      ¬ ((∃ c ∈ st.calls, c.prog ≠ .done) ∧ ∀ i ok, poolStep st (.advance i ok) = none) := by
  have hfree : Lts.Along poolStep AsksFree poolStart testThenRead := by decide
  have hclear : Lts.Along poolStep AsksClear poolStart testThenRead :=
    hfree.mono fun _ _ h => h.clear
  exact ⟨_, rfl, calls_never_stuck hclear rfl⟩

theorem Circle.blocked {n : ℕ} {c d : Call PoolLock PoolData} (h : Circle n c d) :
    Blocked c d := by
  obtain ⟨⟨b, hpool⟩, ⟨a, hwaits⟩, hconn, hback⟩ := h
  refine ⟨⟨_, a, .write, hwaits, ?_, Or.inr rfl⟩, ⟨_, .write, b, hback, ?_, Or.inl rfl⟩⟩
  · rw [hconn]
    exact List.mem_singleton_self _
  · rw [hpool]
    exact List.mem_singleton_self _

/-- A call that is about to ask does so in its step, and a call that waits stays where it is. -/
theorem advance_ask {st st' : PoolState} {i j : ℕ} {ok : Bool} {c d : Call PoolLock PoolData}
    {l l' : PoolLock} {a a' : Access} (hi : st.calls[i]? = some c) (hask : c.AboutToAsk l a)
    (hj : st.calls[j]? = some d) (hwaits : d.WaitsFor l' a') (h : st.advance i ok = some st') :
    st'.calls[j]? = some d ∧
      ∃ c', st'.calls[i]? = some c' ∧ c'.WaitsFor l a ∧ c'.held = c.held := by
  obtain ⟨⟨k, hprog⟩, hticket⟩ := hask
  have hne : i ≠ j := by
    rintro rfl
    rw [hi, Option.some.injEq] at hj
    subst hj
    rw [Call.WaitsFor, hticket] at hwaits
    cases hwaits.2
  simp only [State.advance, hi, Option.bind_some, hprog, hticket, Option.some.injEq] at h
  subst h
  have hlt : i < st.calls.length := (List.getElem?_eq_some_iff.1 hi).1
  refine ⟨?_, { c with ticket := some st.clock }, ?_, ⟨⟨k, hprog⟩, rfl⟩, rfl⟩
  · rw [List.getElem?_set_ne hne]
    exact hj
  · rw [List.getElem?_set_self hlt]
    simp [hprog]

/-- A step that does not ask clear closes a circle. -/
theorem circle_of_not_clear {st st' : PoolState} {e : PoolEvent} (hnot : ¬ AsksClear st e)
    (h : poolStep st e = some st') :
    ∃ (i j n : ℕ) (c d : Call PoolLock PoolData),
      st'.calls[i]? = some c ∧ st'.calls[j]? = some d ∧ Circle n c d := by
  cases e with
  | call request => exact absurd trivial hnot
  | advance i ok =>
      simp only [AsksClear, not_forall, not_and_or, not_not] at hnot
      obtain ⟨c, hi, n, a, d, hd, hcase⟩ := hnot
      obtain ⟨j, hj⟩ := List.getElem?_of_mem hd
      rcases hcase with ⟨hconn, hask, hpool, hwaits⟩ | ⟨hpool, hask, hconn, hback⟩
      · obtain ⟨hj', c', hi', hback, hheld⟩ := advance_ask hi hask hj hwaits h
        exact ⟨j, i, n, d, c', hj', hi', hpool, ⟨a, hwaits⟩, hheld.trans hconn, hback⟩
      · obtain ⟨hj', c', hi', hwaits, hheld⟩ := advance_ask hi hask hj hback h
        have hpool' : UnderPool c' := hpool.imp fun b hb => hheld.trans hb
        exact ⟨i, j, n, c', d, hi', hj', hpool', ⟨a, hwaits⟩, hconn, hback⟩

/-- Calls that block each other stay where they are in every step of the manager. -/
theorem poolStep_blocked {st st' : PoolState} {e : PoolEvent} {i j : ℕ}
    {c d : Call PoolLock PoolData} (hblocked : Blocked c d)
    (hst : st.calls[i]? = some c ∧ st.calls[j]? = some d) (h : poolStep st e = some st') :
    st'.calls[i]? = some c ∧ st'.calls[j]? = some d := by
  cases e with
  | call request =>
      cases h
      have hold : ∀ {k : ℕ} {x : Call PoolLock PoolData}, st.calls[k]? = some x →
          (st.calls ++ [request.prog.start])[k]? = some x := by
        intro k x hk
        rw [List.getElem?_append_left (List.getElem?_eq_some_iff.1 hk).1]
        exact hk
      exact ⟨hold hst.1, hold hst.2⟩
  | advance k ok => exact State.advance_blocked hblocked hst.1 hst.2 h

/-- **A step that does not ask clear** leaves two calls that never move again: in whatever state a
later run ends, they are where they were and wait for each other. -/
theorem circle_stays {st st' st'' : PoolState} {e : PoolEvent} {events : List PoolEvent}
    (hnot : ¬ AsksClear st e) (hstep : poolStep st e = some st')
    (hrun : Lts.run poolStep st' events = some st'') :
    ∃ (i j n : ℕ) (c d : Call PoolLock PoolData),
      st''.calls[i]? = some c ∧ st''.calls[j]? = some d ∧ Circle n c d := by
  obtain ⟨i, j, n, c, d, hi, hj, hcircle⟩ := circle_of_not_clear hnot hstep
  obtain ⟨hi', hj'⟩ :=
    Lts.run_invariant' (I := fun s => s.calls[i]? = some c ∧ s.calls[j]? = some d)
      (fun _ _ _ hs h => poolStep_blocked hcircle.blocked hs h) ⟨hi, hj⟩ hrun
  exact ⟨i, j, n, c, d, hi', hj', hcircle⟩

/-- A test (call 0) connects and its probe fails; before it asks for the pool lock, a read (call 1)
finds the connection in the pool and asks for it under the pool lock. -/
def testAndRead : List PoolEvent :=
  [.call (.testConnection "plc" 102), .call (.readBytes "plc" 102)] ++
    List.replicate 11 (.advance 0 true) ++ [.advance 0 false] ++
      List.replicate 4 (.advance 1 true) ++ [.advance 0 true]

/-- **A deadlock**: after `testAndRead` two calls are unfinished and none can take a step. -/
theorem test_and_read_deadlock :
    ∃ st, Lts.run poolStep poolStart testAndRead = some st ∧
      (∃ c ∈ st.calls, c.prog ≠ .done) ∧ ∀ i ok, poolStep st (.advance i ok) = none := by
  refine ⟨_, rfl, ⟨_, List.mem_cons_self, fun h => by cases h⟩, fun i ok => ?_⟩
  rcases i with _ | _ | i
  · rfl
  · rfl
  · rfl

end FillingPilot
