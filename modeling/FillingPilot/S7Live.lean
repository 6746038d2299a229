/-
**Live connections of the pool.**

A call of the S7 manager looks its connection up in the pool, connects when it finds none that is
connected, stores the new connection, and uses it; a failed test removes whatever the pool has for
the PLC.  Each of these is a step of its own, and other calls come in between.  Here a lock section
and a connection attempt are one step each, and what matters is which connections are live: those
that are connected and that the pool or a call still has.

Main definitions:

* `FillingPilot.S7Manager.LiveState`, `FillingPilot.S7Manager.LiveCall`,
  `FillingPilot.S7Manager.liveStep` — the pool, the calls, and their steps;
* `FillingPilot.S7Manager.LiveAt` — a live connection of a PLC;
* `FillingPilot.S7Manager.AtMostOne`, `FillingPilot.S7Manager.KeepsLive` — no PLC has two live
  connections, and a step takes none from the pool;
* `FillingPilot.S7Manager.Careful` — the step does not connect a PLC that has a live connection, and
  does not remove one.

Main results:

* `FillingPilot.S7Manager.advance_cases` — what a step of a call can do;
* `FillingPilot.S7Manager.LiveInv.step` — the invariant;
* `FillingPilot.S7Manager.liveStep_iff` — what one step keeps;
* `FillingPilot.S7Manager.one_live_connection_iff` — **the exact condition** under which the pool
  holds the one live connection of each PLC;
* `FillingPilot.S7Manager.two_live_connections` — two calls that connect to one PLC.
-/

import FillingPilot.AssocMap
import FillingPilot.S7Pool

set_option relaxedAutoImplicit false
set_option autoImplicit false

namespace FillingPilot

namespace S7Manager

/-! ### Calls and their steps -/

/-- A connection: the PLC it was made for, whether it is connected, and whether I/O over it has
failed. -/
structure Conn where
  key : String
  connected : Bool
  failed : Bool
  deriving DecidableEq

/-- What a call does next; a call for a test is marked.  A connection is named by its number. -/
inductive LiveCall
  /-- The fast path of `connect`. -/
  | lookUp (key : String) (test : Bool)
  /-- The connection attempt of the slow path. -/
  | attempt (key : String) (test : Bool)
  /-- The new connection is stored in the pool. -/
  | insert (key : String) (test : Bool) (c : ℕ)
  /-- I/O over the connection. -/
  | transfer (key : String) (test : Bool) (c : ℕ)
  /-- A failed test takes the key out of the pool; it may still have the connection it tested. -/
  | remove (key : String) (tested : Option ℕ)
  /-- The keys `update_plc_list` has still to go through. -/
  | preCreate (keys : List String)
  | done
  deriving DecidableEq

/-- The connection a call has in its hands, with its key. -/
def LiveCall.held : LiveCall → Option (String × ℕ)
  | insert key _ c => some (key, c)
  | transfer key _ c => some (key, c)
  | remove key tested => tested.map fun c => (key, c)
  | _ => none

/-- The pool, the connections in the order of their creation, and the calls. -/
structure LiveState where
  pool : AList fun _ : String => ℕ
  conns : List Conn
  calls : List LiveCall

/-- `is_connected` -/
def LiveState.isConnected (st : LiveState) (c : ℕ) : Bool := st.conns[c]?.any fun conn => conn.connected

/-- The call with index `i` goes on. -/
def LiveState.put (st : LiveState) (i : ℕ) (call : LiveCall) : LiveState :=
  { st with calls := st.calls.set i call }

/-- A new connection. -/
def LiveState.create (st : LiveState) (conn : Conn) : LiveState :=
  { st with conns := st.conns ++ [conn] }

/-- A successful attempt: a new connection, which the call is to store. -/
def LiveState.connect (st : LiveState) (i : ℕ) (key : String) (test : Bool) : LiveState :=
  (st.create ⟨key, true, false⟩).put i (.insert key test st.conns.length)

/-- The pool after a key was given a connection. -/
def LiveState.store (st : LiveState) (key : String) (c : ℕ) : LiveState :=
  { st with pool := st.pool.insert key c }

/-- The pool without a key. -/
def LiveState.drop (st : LiveState) (key : String) : LiveState :=
  { st with pool := st.pool.erase key }

/-- I/O over the connection has failed; `dead` says whether that ended it. -/
def LiveState.fail (st : LiveState) (c : ℕ) (dead : Bool) : LiveState :=
  { st with conns := st.conns.modify c fun conn =>
      { conn with connected := conn.connected && !dead, failed := true } }

/-- The calls of the manager. -/
inductive LiveRequest
  /-- `read_bytes` and `write_bytes`. -/
  | transfer (host : String) (port : UInt16)
  | testConnection (host : String) (port : UInt16)
  | updatePlcList (plcs : List PlcConfig)

/-- The first step of a call. -/
def LiveRequest.start : LiveRequest → LiveCall
  | transfer host port => .lookUp (poolKey host port) false
  | testConnection host port => .lookUp (poolKey host port) true
  | updatePlcList plcs => .preCreate (plcs.map fun plc => poolKey plc.ip plc.port)

/-- The call with index `i`, which is `call`, takes its step: `ok` is the outcome of an attempt or
of I/O, and `dead` says whether failed I/O ends the connection. -/
def LiveState.advance (st : LiveState) (i : ℕ) (ok dead : Bool) (call : LiveCall) :
    Option LiveState :=
  match call with
  | .lookUp key test =>
      match st.pool.lookup key with
      | some c =>
          if st.isConnected c then some (st.put i (.transfer key test c))
          else some (st.put i (.attempt key test))
      | none => some (st.put i (.attempt key test))
  | .attempt key test =>
      if ok then some (st.connect i key test)
      else some (st.put i (if test then .remove key none else .done))
  | .insert key test c => some ((st.store key c).put i (.transfer key test c))
  | .transfer key test c =>
      if ok then some (st.put i .done)
      else some ((st.fail c dead).put i (if test then .remove key (some c) else .done))
  | .remove key _ => some ((st.drop key).put i .done)
  | .preCreate [] => some (st.put i .done)
  | .preCreate (key :: keys) =>
      if key ∈ st.pool then some (st.put i (.preCreate keys))
      else some (((st.create ⟨key, false, false⟩).store key st.conns.length).put i (.preCreate keys))
  | .done => none

/-- A call starts, or a call takes its next step. -/
inductive LiveEvent
  | start (request : LiveRequest)
  | advance (i : ℕ) (ok dead : Bool)

/-- One step. -/
def liveStep (st : LiveState) : LiveEvent → Option LiveState
  | .start request => some { st with calls := st.calls ++ [request.start] }
  | .advance i ok dead => st.calls[i]?.bind (st.advance i ok dead)

/-- The new manager. -/
def newManager : LiveState := ⟨∅, [], []⟩

/-! ### Live connections -/

/-- The pool or a call has the connection; otherwise it was dropped. -/
def LiveState.Has (st : LiveState) (c : ℕ) : Prop :=
  (∃ key, st.pool.lookup key = some c) ∨ ∃ call ∈ st.calls, ∃ key, call.held = some (key, c)

/-- The connection is live, and was made for the key. -/
def LiveAt (st : LiveState) (key : String) (c : ℕ) : Prop :=
  (∃ conn, st.conns[c]? = some conn ∧ conn.key = key ∧ conn.connected = true) ∧ st.Has c

/-- No key has two live connections. -/
def AtMostOne (st : LiveState) : Prop :=
  ∀ key c c', LiveAt st key c → LiveAt st key c' → c = c'

/-- The connection is connected, and no I/O over it has failed. -/
def Sound (st : LiveState) (c : ℕ) : Prop :=
  ∃ conn, st.conns[c]? = some conn ∧ conn.connected = true ∧ conn.failed = false

/-- The step leaves every sound connection of the pool in its place. -/
def KeepsLive (st : LiveState) (e : LiveEvent) : Prop :=
  ∀ st', liveStep st e = some st' →
    ∀ key c, st.pool.lookup key = some c → Sound st c → st'.pool.lookup key = some c

/-- An attempt that succeeds is for a key without a live connection, and a removal takes no sound
connection from the pool. -/
def CarefulCall (st : LiveState) (ok : Bool) : LiveCall → Prop
  | .attempt key _ => ok = true → ∀ c, ¬ LiveAt st key c
  | .remove key _ => ∀ c, st.pool.lookup key = some c → ¬ Sound st c
  | _ => True

/-- The step is careful. -/
def Careful (st : LiveState) : LiveEvent → Prop
  | .start _ => True
  | .advance i ok _ => ∀ call ∈ st.calls[i]?, CarefulCall st ok call

/-! ### What a step can do -/

/-- What a step of a call can do. -/
inductive Advance (st : LiveState) (i : ℕ) (ok : Bool) : LiveCall → LiveState → Prop
  /-- The call goes on with empty hands, and nothing else changes. -/
  | quiet (call call' : LiveCall) (hattempt : ∀ key test, call = .attempt key test → ok = false)
      (hremove : ∀ key tested, call ≠ .remove key tested) (hheld : call'.held = none) :
      Advance st i ok call (st.put i call')
  /-- The pool has a connection that is connected. -/
  | found (key : String) (test : Bool) (c : ℕ) (hpool : st.pool.lookup key = some c) :
      Advance st i ok (.lookUp key test) (st.put i (.transfer key test c))
  | connected (key : String) (test : Bool) (hok : ok = true) :
      Advance st i ok (.attempt key test) (st.connect i key test)
  | stored (key : String) (test : Bool) (c : ℕ) :
      Advance st i ok (.insert key test c) ((st.store key c).put i (.transfer key test c))
  | failed (key : String) (test : Bool) (c : ℕ) (dead : Bool) :
      Advance st i ok (.transfer key test c)
        ((st.fail c dead).put i (if test then .remove key (some c) else .done))
  | removed (key : String) (tested : Option ℕ) :
      Advance st i ok (.remove key tested) ((st.drop key).put i .done)
  /-- A key that the pool does not have gets a connection that is not connected. -/
  | preCreated (key : String) (keys : List String) (hkey : key ∉ st.pool) :
      Advance st i ok (.preCreate (key :: keys))
        (((st.create ⟨key, false, false⟩).store key st.conns.length).put i (.preCreate keys))

/-- **What a step of a call can do.** -/
theorem advance_cases {st st' : LiveState} {i : ℕ} {ok dead : Bool} {call : LiveCall}
    (h : st.advance i ok dead call = some st') : Advance st i ok call st' := by
  cases call with
  | lookUp key test =>
      have hmiss : Advance st i ok (.lookUp key test) (st.put i (.attempt key test)) :=
        .quiet _ _ (by simp) (by simp) rfl
      simp only [LiveState.advance] at h
      cases hpool : st.pool.lookup key with
      | none =>
          simp only [hpool, Option.some.injEq] at h
          exact h ▸ hmiss
      | some c =>
          simp only [hpool] at h
          split_ifs at h
          · cases h
            exact .found key test c hpool
          · cases h
            exact hmiss
  | attempt key test =>
      simp only [LiveState.advance] at h
      cases ok with
      | true =>
          cases h
          exact .connected key test rfl
      | false =>
          cases h
          refine .quiet _ _ (by simp) (by simp) ?_
          cases test <;> rfl
  | insert key test c =>
      cases h
      exact .stored key test c
  | transfer key test c =>
      simp only [LiveState.advance] at h
      cases ok with
      | true =>
          cases h
          exact .quiet _ _ (by simp) (by simp) rfl
      | false =>
          cases h
          exact .failed key test c dead
  | remove key tested =>
      cases h
      exact .removed key tested
  | preCreate keys =>
      cases keys with
      | nil =>
          cases h
          exact .quiet _ _ (by simp) (by simp) rfl
      | cons key keys =>
          simp only [LiveState.advance] at h
          split_ifs at h with hkey
          · cases h
            exact .quiet _ _ (by simp) (by simp) rfl
          · cases h
            exact .preCreated key keys hkey
  | done => cases h

/-! ### The invariant -/

/-- The connection exists, and was made for the key. -/
def LiveState.Made (st : LiveState) (key : String) (c : ℕ) : Prop :=
  ∃ conn, st.conns[c]? = some conn ∧ conn.key = key

/-- Connections are pooled and held under their own keys, and one that is still to be stored is
connected and known to its own call only. -/
structure LiveInv (st : LiveState) : Prop where
  pooled : ∀ key c, st.pool.lookup key = some c → st.Made key c
  held : ∀ call ∈ st.calls, ∀ key c, call.held = some (key, c) → st.Made key c
  connected : ∀ (i : ℕ) key test c, st.calls[i]? = some (.insert key test c) →
    ∃ conn, st.conns[c]? = some conn ∧ conn.connected = true
  unpooled : ∀ (i : ℕ) key test c, st.calls[i]? = some (.insert key test c) →
    ∀ key', st.pool.lookup key' ≠ some c
  alone : ∀ (i : ℕ) key test c, st.calls[i]? = some (.insert key test c) →
    ∀ (j : ℕ) call key', st.calls[j]? = some call → call.held = some (key', c) → j = i

theorem liveInv_newManager : LiveInv newManager where
  pooled key c h := by cases h
  held call h := by cases h
  connected i key test c h := by cases h
  unpooled i key test c h := by cases h
  alone i key test c h := by cases h

/-- The last element of a list is new, the others are the old ones. -/
theorem getElem?_concat_eq_some {α : Type} {xs : List α} {x y : α} {i : ℕ}
    (h : (xs ++ [x])[i]? = some y) : xs[i]? = some y ∨ (i = xs.length ∧ y = x) := by
  rcases Nat.lt_or_ge i xs.length with hlt | hge
  · rw [List.getElem?_append_left hlt] at h
    exact Or.inl h
  · have hlt := (List.getElem?_eq_some_iff.1 h).1
    rw [List.length_append, List.length_singleton] at hlt
    obtain rfl : i = xs.length := by omega
    rw [List.getElem?_concat_length, Option.some.injEq] at h
    exact Or.inr ⟨rfl, h.symm⟩

section Ops

variable {st : LiveState}

theorem getElem?_put {i j : ℕ} {call call' : LiveCall}
    (h : (st.put i call').calls[j]? = some call) :
    (j = i ∧ call = call') ∨ (j ≠ i ∧ st.calls[j]? = some call) := by
  simp only [LiveState.put, List.getElem?_set] at h
  split_ifs at h with hij hlt
  · cases h
    exact Or.inl ⟨hij.symm, rfl⟩
  · exact Or.inr ⟨fun hji => hij hji.symm, h⟩

theorem mem_put {i : ℕ} {call call' : LiveCall} (h : call ∈ (st.put i call').calls) :
    call = call' ∨ call ∈ st.calls :=
  (List.mem_or_eq_of_mem_set h).symm

theorem LiveState.Made.lt {key : String} {c : ℕ} (h : st.Made key c) : c < st.conns.length := by
  obtain ⟨conn, hconn, -⟩ := h
  exact (List.getElem?_eq_some_iff.1 hconn).1

theorem getElem?_create {conn old : Conn} {c : ℕ} (h : st.conns[c]? = some old) :
    (st.create conn).conns[c]? = some old := by
  have hlt := (List.getElem?_eq_some_iff.1 h).1
  rw [LiveState.create, List.getElem?_append_left hlt, h]

theorem LiveState.Made.create {key : String} {c : ℕ} (h : st.Made key c) (conn : Conn) :
    (st.create conn).Made key c := by
  obtain ⟨old, hold, hkey⟩ := h
  exact ⟨old, getElem?_create hold, hkey⟩

theorem made_create (conn : Conn) : (st.create conn).Made conn.key st.conns.length :=
  ⟨conn, by simp [LiveState.create], rfl⟩

theorem LiveState.Made.fail {key : String} {c : ℕ} (h : st.Made key c) (c' : ℕ) (dead : Bool) :
    (st.fail c' dead).Made key c := by
  obtain ⟨conn, hconn, hkey⟩ := h
  simp only [LiveState.Made, LiveState.fail, List.getElem?_modify, hconn]
  by_cases hc : c' = c
  · exact ⟨{ conn with connected := conn.connected && !dead, failed := true }, by simp [hc], hkey⟩
  · exact ⟨conn, by simp [hc], hkey⟩

theorem LiveInv.create (h : LiveInv st) (conn : Conn) : LiveInv (st.create conn) where
  pooled key c hpool := (h.pooled key c hpool).create conn
  held call hcall key c hheld := (h.held call hcall key c hheld).create conn
  connected i key test c hcall := by
    obtain ⟨old, hold, hconnected⟩ := h.connected i key test c hcall
    exact ⟨old, getElem?_create hold, hconnected⟩
  unpooled := h.unpooled
  alone := h.alone

theorem LiveInv.fail (h : LiveInv st) {c : ℕ}
    (hc : ∀ (i : ℕ) key test, st.calls[i]? ≠ some (.insert key test c)) (dead : Bool) :
    LiveInv (st.fail c dead) where
  pooled key c' hpool := (h.pooled key c' hpool).fail c dead
  held call hcall key c' hheld := (h.held call hcall key c' hheld).fail c dead
  connected i key test c' hcall := by
    obtain ⟨conn, hconn, hconnected⟩ := h.connected i key test c' hcall
    have hne : c ≠ c' := by
      rintro rfl
      exact hc i key test hcall
    exact ⟨conn, by simp [LiveState.fail, hne, hconn], hconnected⟩
  unpooled := h.unpooled
  alone := h.alone

theorem LiveInv.drop (h : LiveInv st) (key : String) : LiveInv (st.drop key) where
  pooled key' c hpool := h.pooled key' c (AList.lookup_erase_eq_some hpool).2
  held := h.held
  connected := h.connected
  unpooled i key' test c hcall key'' hpool :=
    h.unpooled i key' test c hcall key'' (AList.lookup_erase_eq_some hpool).2
  alone := h.alone

/-- A key that is given a connection keeps the invariant, when it is the connection's own and the
connection is not one to be stored. -/
theorem LiveInv.store (h : LiveInv st) {key : String} {c : ℕ} (hmade : st.Made key c)
    (hc : ∀ (i : ℕ) key test, st.calls[i]? ≠ some (.insert key test c)) :
    LiveInv (st.store key c) where
  pooled key' c' hpool := by
    rcases AList.lookup_insert_eq_some hpool with ⟨rfl, rfl⟩ | ⟨-, hpool⟩
    · exact hmade
    · exact h.pooled key' c' hpool
  held := h.held
  connected := h.connected
  unpooled i key' test c' hcall key'' hpool := by
    rcases AList.lookup_insert_eq_some hpool with ⟨-, rfl⟩ | ⟨-, hpool⟩
    · exact hc i key' test hcall
    · exact h.unpooled i key' test c' hcall key'' hpool
  alone := h.alone

/-- A call that goes on keeps the invariant, when it does not come to a connection that another call
is about to store. -/
theorem LiveInv.put (h : LiveInv st) {i : ℕ} {call' : LiveCall}
    (hinsert : ∀ key test c, call' ≠ .insert key test c)
    (hmade : ∀ key c, call'.held = some (key, c) → st.Made key c)
    (hothers : ∀ key c, call'.held = some (key, c) → ∀ (j : ℕ) key' test,
      st.calls[j]? = some (.insert key' test c) → j = i) :
    LiveInv (st.put i call') where
  pooled := h.pooled
  held call hcall key c hheld := by
    rcases mem_put hcall with rfl | hcall
    · exact hmade key c hheld
    · exact h.held call hcall key c hheld
  connected j key test c hcall := by
    rcases getElem?_put hcall with ⟨-, heq⟩ | ⟨-, hcall⟩
    · exact absurd heq.symm (hinsert key test c)
    · exact h.connected j key test c hcall
  unpooled j key test c hcall := by
    rcases getElem?_put hcall with ⟨-, heq⟩ | ⟨-, hcall⟩
    · exact absurd heq.symm (hinsert key test c)
    · exact h.unpooled j key test c hcall
  alone j key test c hcall k call key' hk hheld := by
    rcases getElem?_put hcall with ⟨-, heq⟩ | ⟨hj, hstore⟩
    · exact absurd heq.symm (hinsert key test c)
    · rcases getElem?_put hk with ⟨-, rfl⟩ | ⟨-, hk⟩
      · exact absurd (hothers key' c hheld j key test hstore) hj
      · exact h.alone j key test c hstore k call key' hk hheld

/-- A call that goes on with empty hands keeps the invariant. -/
theorem LiveInv.put_of_held_none (h : LiveInv st) {call' : LiveCall} (hheld : call'.held = none)
    (i : ℕ) : LiveInv (st.put i call') := by
  refine h.put ?_ (by simp [hheld]) (by simp [hheld])
  rintro key test c rfl
  cases hheld

theorem LiveInv.connect (h : LiveInv st) (i : ℕ) (key : String) (test : Bool) :
    LiveInv (st.connect i key test) where
  pooled key' c hpool := (h.create ⟨key, true, false⟩).pooled key' c hpool
  held call hcall key' c hheld := by
    rcases mem_put hcall with rfl | hcall
    · cases hheld
      exact made_create ⟨key, true, false⟩
    · exact (h.create ⟨key, true, false⟩).held call hcall key' c hheld
  connected j key' test' c hcall := by
    rcases getElem?_put hcall with ⟨-, heq⟩ | ⟨-, hcall⟩
    · cases heq
      exact ⟨⟨key, true, false⟩, List.getElem?_concat_length, rfl⟩
    · exact (h.create ⟨key, true, false⟩).connected j key' test' c hcall
  unpooled j key' test' c hcall key'' hpool := by
    rcases getElem?_put hcall with ⟨-, heq⟩ | ⟨-, hstore⟩
    · cases heq
      -- the number is new
      exact absurd (h.pooled key'' _ hpool).lt (Nat.lt_irrefl _)
    · exact h.unpooled j key' test' c hstore key'' hpool
  alone j key' test' c hcall k call key'' hk hheld := by
    rcases getElem?_put hcall with ⟨hj, heq⟩ | ⟨hj, hstore⟩
    · cases heq
      rcases getElem?_put hk with ⟨hki, -⟩ | ⟨-, hk⟩
      · rw [hki, hj]
      · exact absurd (h.held call (List.mem_of_getElem? hk) key'' _ hheld).lt (Nat.lt_irrefl _)
    · rcases getElem?_put hk with ⟨-, rfl⟩ | ⟨-, hk⟩
      · cases hheld
        exact absurd (h.held _ (List.mem_of_getElem? hstore) key' _ rfl).lt (Nat.lt_irrefl _)
      · exact h.alone j key' test' c hstore k call key'' hk hheld

end Ops

/-- **The invariant is kept by every step of a call.** -/
theorem LiveInv.advance {st st' : LiveState} {i : ℕ} {ok : Bool} {call : LiveCall}
    (h : LiveInv st) (hcall : st.calls[i]? = some call) (hstep : Advance st i ok call st') :
    LiveInv st' := by
  have hmem := List.mem_of_getElem? hcall
  cases hstep with
  | quiet _ call' hattempt hremove hheld => exact h.put_of_held_none hheld i
  | found key test c hpool =>
      refine h.put (by simp) ?_ ?_
      · rintro _ _ ⟨⟩
        exact h.pooled key c hpool
      · -- a connection of the pool is not one that another call is about to store
        rintro _ _ ⟨⟩ j key' test' hstore
        exact absurd hpool (h.unpooled j key' test' c hstore key)
  | connected key test hok => exact h.connect i key test
  | stored key test c =>
      have hput : LiveInv (st.put i (.transfer key test c)) := by
        refine h.put (by simp) ?_ ?_
        · rintro _ _ ⟨⟩
          exact h.held _ hmem key c rfl
        · rintro _ _ ⟨⟩ j key' test' hstore
          exact (h.alone j key' test' c hstore i _ key hcall rfl).symm
      refine hput.store (h.held _ hmem key c rfl) ?_
      intro j key' test' hstore
      rcases getElem?_put hstore with ⟨-, heq⟩ | ⟨hj, hstore⟩
      · cases heq
      · exact hj (h.alone j key' test' c hstore i _ key hcall rfl).symm
  | failed key test c dead =>
      -- a connection that is used is stored already
      have hother : ∀ (j : ℕ) key' test', st.calls[j]? ≠ some (.insert key' test' c) := by
        intro j key' test' hstore
        obtain rfl := h.alone j key' test' c hstore i _ key hcall rfl
        rw [hcall] at hstore
        cases hstore
      refine (h.fail hother dead).put ?_ ?_ ?_
      · intro key' test' c'
        split <;> simp
      · intro key' c' hheld
        split at hheld
        · cases hheld
          exact (h.held _ hmem key c rfl).fail c dead
        · cases hheld
      · intro key' c' hheld j key'' test' hstore
        split at hheld
        · cases hheld
          exact absurd hstore (hother j key'' test')
        · cases hheld
  | removed key tested => exact (h.drop key).put_of_held_none rfl i
  | preCreated key keys hkey =>
      refine ((h.create ⟨key, false, false⟩).store (made_create ⟨key, false, false⟩)
        ?_).put_of_held_none rfl i
      intro j key' test' hstore
      exact absurd (h.held _ (List.mem_of_getElem? hstore) key' _ rfl).lt (Nat.lt_irrefl _)

theorem LiveInv.start {st : LiveState} (h : LiveInv st) (request : LiveRequest) :
    LiveInv { st with calls := st.calls ++ [request.start] } := by
  have hnone : request.start.held = none := by cases request <;> rfl
  -- the new call holds nothing, so it is none of those that are to store a connection
  have hinsert : ∀ (i : ℕ) key test c, (st.calls ++ [request.start])[i]? =
      some (.insert key test c) → st.calls[i]? = some (.insert key test c) := by
    intro i key test c hcall
    rcases getElem?_concat_eq_some hcall with hcall | ⟨-, hstart⟩
    · exact hcall
    · rw [← hstart] at hnone
      cases hnone
  refine ⟨h.pooled, ?_, ?_, ?_, ?_⟩
  · intro call hcall key c hheld
    rcases List.mem_append.1 hcall with hcall | hcall
    · exact h.held call hcall key c hheld
    · rw [List.mem_singleton.1 hcall, hnone] at hheld
      cases hheld
  · intro i key test c hcall
    exact h.connected i key test c (hinsert i key test c hcall)
  · intro i key test c hcall
    exact h.unpooled i key test c (hinsert i key test c hcall)
  · intro i key test c hcall j call key' hj hheld
    rcases getElem?_concat_eq_some hj with hj | ⟨-, hstart⟩
    · exact h.alone i key test c (hinsert i key test c hcall) j call key' hj hheld
    · rw [hstart, hnone] at hheld
      cases hheld

/-- **The invariant is kept by every step.** -/
theorem LiveInv.step {st st' : LiveState} {e : LiveEvent} (h : LiveInv st)
    (hstep : liveStep st e = some st') : LiveInv st' := by
  cases e with
  | start request =>
      cases hstep
      exact h.start request
  | advance i ok dead =>
      obtain ⟨call, hcall, hadvance⟩ := Option.bind_eq_some_iff.1 hstep
      exact h.advance hcall (advance_cases hadvance)

/-! ### What a step keeps -/

/-- Where every live connection was live before, there is still at most one of each key. -/
theorem AtMostOne.of_live {st st' : LiveState} (h : AtMostOne st)
    (hlive : ∀ key c, LiveAt st' key c → LiveAt st key c) : AtMostOne st' :=
  fun key c c' hc hc' => h key c c' (hlive key c hc) (hlive key c' hc')

section Live

variable {st : LiveState} {i : ℕ}

theorem has_of_held {call : LiveCall} (hcall : st.calls[i]? = some call) {key : String} {c : ℕ}
    (hheld : call.held = some (key, c)) : st.Has c :=
  Or.inr ⟨call, List.mem_of_getElem? hcall, key, hheld⟩

theorem liveAt_put {call' : LiveCall} (hheld : ∀ key c, call'.held = some (key, c) → st.Has c)
    {key : String} {c : ℕ} (h : LiveAt (st.put i call') key c) : LiveAt st key c := by
  refine ⟨h.1, ?_⟩
  rcases h.2 with hpool | ⟨call, hcall, key', hc⟩
  · exact Or.inl hpool
  · rcases mem_put hcall with rfl | hcall
    · exact hheld key' c hc
    · exact Or.inr ⟨call, hcall, key', hc⟩

theorem liveAt_drop {key key' : String} {c : ℕ} (h : LiveAt (st.drop key) key' c) :
    LiveAt st key' c := by
  refine ⟨h.1, ?_⟩
  rcases h.2 with ⟨key'', hpool⟩ | hheld
  · exact Or.inl ⟨key'', (AList.lookup_erase_eq_some hpool).2⟩
  · exact Or.inr hheld

theorem liveAt_fail {c' : ℕ} {dead : Bool} {key : String} {c : ℕ}
    (h : LiveAt (st.fail c' dead) key c) : LiveAt st key c := by
  obtain ⟨⟨conn, hconn, hkey, hconnected⟩, hhas⟩ := h
  refine ⟨?_, hhas⟩
  simp only [LiveState.fail, List.getElem?_modify] at hconn
  obtain ⟨old, hold, heq⟩ := Option.map_eq_some_iff.1 hconn
  split at heq
  · subst heq
    exact ⟨old, hold, hkey, (Bool.and_eq_true_iff.1 hconnected).1⟩
  · subst heq
    exact ⟨old, hold, hkey, hconnected⟩

/-- A stored connection is not new among the live ones when it was there. -/
theorem liveAt_store {key key' : String} {c' c : ℕ} (hhas : c = c' → st.Has c)
    (h : LiveAt (st.store key c') key' c) : LiveAt st key' c := by
  refine ⟨h.1, ?_⟩
  rcases h.2 with ⟨key'', hpool⟩ | hheld
  · rcases AList.lookup_insert_eq_some hpool with ⟨-, hc⟩ | ⟨-, hpool⟩
    · exact hhas hc
    · exact Or.inl ⟨key'', hpool⟩
  · exact Or.inr hheld

theorem liveAt_create {key key' : String} {c : ℕ}
    (h : LiveAt (st.create ⟨key, false, false⟩) key' c) : LiveAt st key' c := by
  obtain ⟨⟨conn, hconn, hkey, hconnected⟩, hhas⟩ := h
  rcases getElem?_concat_eq_some hconn with hold | ⟨-, rfl⟩
  · exact ⟨⟨conn, hold, hkey, hconnected⟩, hhas⟩
  · cases hconnected

theorem liveAt_preCreate {key key' : String} {c : ℕ}
    (h : LiveAt ((st.create ⟨key, false, false⟩).store key st.conns.length) key' c) :
    LiveAt st key' c := by
  refine liveAt_create (liveAt_store (fun hc => ?_) h)
  obtain ⟨⟨conn, hconn, -, hconnected⟩, -⟩ := h
  rw [hc] at hconn
  have hnew : (st.create ⟨key, false, false⟩).conns[st.conns.length]? =
      some ⟨key, false, false⟩ := List.getElem?_concat_length
  obtain rfl := Option.some.inj (hnew.symm.trans hconn)
  cases hconnected

theorem liveAt_connect_new {key : String} {test : Bool}
    (hcall : st.calls[i]? = some (.attempt key test)) :
    LiveAt (st.connect i key test) key st.conns.length := by
  have hlt := (List.getElem?_eq_some_iff.1 hcall).1
  refine ⟨⟨⟨key, true, false⟩, List.getElem?_concat_length, rfl, rfl⟩, ?_⟩
  refine Or.inr ⟨.insert key test st.conns.length, List.mem_of_getElem? (i := i) ?_, key, rfl⟩
  simp [LiveState.connect, LiveState.put, LiveState.create, hlt]

/-- After a successful attempt, the live connections are still live. -/
theorem LiveAt.connect {key key' : String} {test : Bool} {c : ℕ}
    (hcall : st.calls[i]? = some (.attempt key test)) (h : LiveAt st key' c) :
    LiveAt (st.connect i key test) key' c := by
  obtain ⟨⟨conn, hconn, hkey, hconnected⟩, hhas⟩ := h
  refine ⟨⟨conn, getElem?_create hconn, hkey, hconnected⟩, ?_⟩
  rcases hhas with hpool | ⟨call, hmem, key'', hheld⟩
  · exact Or.inl hpool
  · obtain ⟨j, hj⟩ := List.mem_iff_getElem?.1 hmem
    have hne : i ≠ j := by
      rintro rfl
      rw [hcall] at hj
      cases hj
      cases hheld
    refine Or.inr ⟨call, List.mem_of_getElem? (i := j) ?_, key'', hheld⟩
    simp [LiveState.connect, LiveState.put, LiveState.create, hne, hj]

/-- After a successful attempt, a live connection is the new one or was live before. -/
theorem liveAt_connect {key key' : String} {test : Bool} {c : ℕ}
    (h : LiveAt (st.connect i key test) key' c) :
    LiveAt st key' c ∨ (key' = key ∧ c = st.conns.length) := by
  obtain ⟨⟨conn, hconn, hkey, hconnected⟩, hhas⟩ := h
  rcases getElem?_concat_eq_some hconn with hold | ⟨rfl, rfl⟩
  · refine Or.inl ⟨⟨conn, hold, hkey, hconnected⟩, ?_⟩
    rcases hhas with hpool | ⟨call, hmem, key'', hheld⟩
    · exact Or.inl hpool
    · rcases mem_put hmem with rfl | hmem
      · cases hheld
        exact absurd (List.getElem?_eq_some_iff.1 hold).1 (Nat.lt_irrefl _)
      · exact Or.inr ⟨call, hmem, key'', hheld⟩
  · exact Or.inr ⟨hkey.symm, rfl⟩

/-- A successful attempt keeps one live connection of each key exactly when its key had none. -/
theorem atMostOne_connect_iff (hone : AtMostOne st) {key : String} {test : Bool}
    (hcall : st.calls[i]? = some (.attempt key test)) :
    AtMostOne (st.connect i key test) ↔ ∀ c, ¬ LiveAt st key c := by
  have hold : ∀ {key' c}, LiveAt st key' c → c ≠ st.conns.length := by
    rintro key' c ⟨⟨conn, hconn, -⟩, -⟩
    exact Nat.ne_of_lt (List.getElem?_eq_some_iff.1 hconn).1
  constructor
  · intro h c hc
    exact hold hc (h key c _ (hc.connect hcall) (liveAt_connect_new hcall))
  · intro hnone key' c c' hc hc'
    rcases liveAt_connect hc with hlive | ⟨hkey, hnew⟩
    · rcases liveAt_connect hc' with hlive' | ⟨hkey, -⟩
      · exact hone key' c c' hlive hlive'
      · exact absurd (hkey ▸ hlive) (hnone c)
    · rcases liveAt_connect hc' with hlive' | ⟨-, hnew'⟩
      · exact absurd (hkey ▸ hlive') (hnone c')
      · rw [hnew, hnew']

/-- A connection that is about to be stored takes the place of no sound one. -/
theorem lookup_store_of_sound (hinv : LiveInv st) (hone : AtMostOne st) {key : String} {test : Bool}
    {c : ℕ} (hcall : st.calls[i]? = some (.insert key test c)) {key' : String} {c' : ℕ}
    (hpool : st.pool.lookup key' = some c') (hsound : Sound st c') :
    (st.store key c).pool.lookup key' = some c' := by
  by_cases hkey : key' = key
  · -- both connections would be live, so they are one, but the pool does not have the new one yet
    subst hkey
    obtain ⟨conn, hconn, hconnkey⟩ := hinv.pooled key' c' hpool
    obtain ⟨sound, hsoundConn, hconnected, -⟩ := hsound
    obtain rfl := Option.some.inj (hconn.symm.trans hsoundConn)
    have hpooled : LiveAt st key' c' :=
      ⟨⟨conn, hconn, hconnkey, hconnected⟩, Or.inl ⟨key', hpool⟩⟩
    obtain ⟨new, hnew, hnewkey⟩ := hinv.held _ (List.mem_of_getElem? hcall) key' c rfl
    obtain ⟨new', hnew', hnewconnected⟩ := hinv.connected i key' test c hcall
    obtain rfl := Option.some.inj (hnew.symm.trans hnew')
    have hheld : LiveAt st key' c :=
      ⟨⟨new, hnew, hnewkey, hnewconnected⟩, has_of_held hcall rfl⟩
    obtain rfl := hone key' c' c hpooled hheld
    exact absurd hpool (hinv.unpooled i key' test c' hcall key')
  · rw [LiveState.store, AList.lookup_insert_ne hkey, hpool]

/-- **What one step of a call keeps.** -/
theorem Advance.keeps_iff {st' : LiveState} {ok : Bool} {call : LiveCall} (hinv : LiveInv st)
    (hone : AtMostOne st) (hcall : st.calls[i]? = some call) (h : Advance st i ok call st') :
    (AtMostOne st' ∧ ∀ key c, st.pool.lookup key = some c → Sound st c →
      st'.pool.lookup key = some c) ↔ CarefulCall st ok call := by
  cases h with
  | quiet _ call' hattempt hremove hheld =>
      refine iff_of_true ⟨hone.of_live fun key c => liveAt_put (by simp [hheld]),
        fun key c hpool _ => hpool⟩ ?_
      cases call with
      | attempt key test =>
          intro hok
          rw [hattempt key test rfl] at hok
          cases hok
      | remove key tested => exact absurd rfl (hremove key tested)
      | _ => trivial
  | found key test c hpool =>
      refine iff_of_true ⟨hone.of_live fun key' c' => liveAt_put ?_, fun key c hpool _ => hpool⟩
        trivial
      rintro _ _ ⟨⟩
      exact Or.inl ⟨key, hpool⟩
  | connected key test hok =>
      rw [atMostOne_connect_iff hone hcall]
      simp only [CarefulCall, hok, forall_const]
      exact and_iff_left fun key c hpool _ => hpool
  | stored key test c =>
      refine iff_of_true ⟨hone.of_live fun key' c' hlive => ?_,
        fun key' c' => lookup_store_of_sound hinv hone hcall⟩ trivial
      have hheld : (st.store key c).Has c := Or.inl ⟨key, AList.lookup_insert _⟩
      refine liveAt_store (fun hc => hc ▸ has_of_held hcall rfl) (liveAt_put ?_ hlive)
      rintro _ _ ⟨⟩
      exact hheld
  | failed key test c dead =>
      refine iff_of_true ⟨hone.of_live fun key' c' hlive => ?_, fun key c hpool _ => hpool⟩ trivial
      have hhas : (st.fail c dead).Has c := (has_of_held hcall rfl : st.Has c)
      refine liveAt_fail (liveAt_put (fun key'' c'' hheld => ?_) hlive)
      split at hheld
      · cases hheld
        exact hhas
      · cases hheld
  | removed key tested =>
      have hlive : AtMostOne ((st.drop key).put i .done) :=
        hone.of_live fun key' c' hlive => liveAt_drop (liveAt_put (by simp [LiveCall.held]) hlive)
      rw [and_iff_right hlive]
      constructor
      · intro h c hpool hsound
        have hgone := h key c hpool hsound
        simp [LiveState.put, LiveState.drop] at hgone
      · intro h key' c hpool hsound
        have hkey : key' ≠ key := by
          rintro rfl
          exact h c hpool hsound
        simp [LiveState.put, LiveState.drop, AList.lookup_erase_ne hkey, hpool]
  | preCreated key keys hkey =>
      refine iff_of_true ⟨hone.of_live fun key' c' hlive => ?_, fun key' c hpool _ => ?_⟩ trivial
      · exact liveAt_preCreate (liveAt_put (by simp [LiveCall.held]) hlive)
      · have hne : key' ≠ key := by
          rintro rfl
          exact hkey (AList.lookup_isSome.1 (by rw [hpool]; rfl))
        simp [LiveState.put, LiveState.store, LiveState.create, AList.lookup_insert_ne hne, hpool]

end Live

/-- **What one step keeps**: the one live connection of each key, and the sound connections of the
pool, exactly when the step is careful. -/
theorem liveStep_iff {st st' : LiveState} {e : LiveEvent} (hinv : LiveInv st) (hone : AtMostOne st)
    (h : liveStep st e = some st') : (AtMostOne st' ∧ KeepsLive st e) ↔ Careful st e := by
  have hkeeps : KeepsLive st e ↔ ∀ key c, st.pool.lookup key = some c → Sound st c →
      st'.pool.lookup key = some c := by
    simp only [KeepsLive, h, Option.some.injEq, forall_eq']
  rw [hkeeps]
  cases e with
  | start request =>
      cases h
      refine iff_of_true ⟨hone.of_live fun key c hlive => ⟨hlive.1, ?_⟩, fun key c hpool _ => hpool⟩
        trivial
      rcases hlive.2 with hpool | ⟨call, hcall, key', hheld⟩
      · exact Or.inl hpool
      · rcases List.mem_append.1 hcall with hcall | hcall
        · exact Or.inr ⟨call, hcall, key', hheld⟩
        · rw [List.mem_singleton.1 hcall] at hheld
          cases request <;> cases hheld
  | advance i ok dead =>
      obtain ⟨call, hcall, hadvance⟩ := Option.bind_eq_some_iff.1 h
      simp only [Careful, hcall, Option.mem_some_iff, forall_eq']
      exact (advance_cases hadvance).keeps_iff hinv hone hcall

theorem atMostOne_newManager : AtMostOne newManager := by
  rintro key c c' ⟨⟨conn, hconn, -⟩, -⟩
  cases hconn

/-- **The exact condition**: in every state of a run of the new manager each PLC has at most one
live connection, and no step takes a sound connection from the pool, exactly when every step of the
run is careful. -/
theorem one_live_connection_iff (events : List LiveEvent) :
    (Lts.Always liveStep AtMostOne newManager events ∧
        Lts.Along liveStep KeepsLive newManager events) ↔
      Lts.Along liveStep Careful newManager events := by
  have hdisabled : ∀ s e, liveStep s e = none → KeepsLive s e := by
    intro s e hnone t h
    rw [hnone] at h
    cases h
  rw [Lts.always_and_along_iff (I := LiveInv) (fun s e t hinv h => hinv.step h) hdisabled
    (fun s e t hinv hone h => liveStep_iff hinv hone h) liveInv_newManager atMostOne_newManager]
  refine Lts.along_congr fun s e => or_iff_right_of_imp fun hnone => ?_
  cases e with
  | start request => trivial
  | advance i ok dead =>
      intro call hcall
      rw [Option.mem_def] at hcall
      simp only [liveStep, hcall, Option.bind_some] at hnone
      cases call with
      | attempt key test =>
          intro hok
          simp [LiveState.advance, hok] at hnone
      | remove key tested => simp [LiveState.advance] at hnone
      | _ => trivial

/-- Two reads of one PLC: both find no connection, both connect, and the first stores its own. -/
def twoReads : List LiveEvent :=
  [.start (.transfer "10.0.0.1" 102), .start (.transfer "10.0.0.1" 102), .advance 0 true false,
    .advance 1 true false, .advance 0 true false, .advance 1 true false, .advance 0 true false]

/-- The state after them. -/
def bothConnected : LiveState where
  pool := (∅ : AList fun _ : String => ℕ).insert (poolKey "10.0.0.1" 102) 0
  conns := [⟨poolKey "10.0.0.1" 102, true, false⟩, ⟨poolKey "10.0.0.1" 102, true, false⟩]
  calls := [.transfer (poolKey "10.0.0.1" 102) false 0, .insert (poolKey "10.0.0.1" 102) false 1]

/-- **Two live connections of one PLC**: after the two reads each has one of its own, and the next
step of the second puts its connection in the place of the first. -/
theorem two_live_connections :
    Lts.run liveStep newManager twoReads = some bothConnected ∧ ¬ AtMostOne bothConnected ∧
      ¬ KeepsLive bothConnected (.advance 1 true false) := by
  refine ⟨rfl, fun hone => ?_, fun hkeeps => ?_⟩
  · have hfirst : LiveAt bothConnected (poolKey "10.0.0.1" 102) 0 :=
      ⟨⟨_, rfl, rfl, rfl⟩, Or.inl ⟨poolKey "10.0.0.1" 102, rfl⟩⟩
    have hsecond : LiveAt bothConnected (poolKey "10.0.0.1" 102) 1 :=
      ⟨⟨_, rfl, rfl, rfl⟩, has_of_held (i := 1) rfl rfl⟩
    exact Nat.zero_ne_one (hone _ 0 1 hfirst hsecond)
  · have hkept := hkeeps _ rfl (poolKey "10.0.0.1" 102) 0 rfl ⟨_, rfl, rfl, rfl⟩
    exact Nat.one_ne_zero (Option.some.inj hkept)

end S7Manager

end FillingPilot
