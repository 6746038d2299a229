/-
**Transfers between the device and the PLCs.**

A read or a write of a client is a call of the S7 manager: it looks a connection up by its key, or
makes one with the host and the port that it was given, and transfers its data over it.  Calls go on
side by side, and the pool hands one call the connection of another.  A connection does not know the
call that uses it: which PLC the data reach is decided by the configuration that the connection was
made with.  What a transfer comes to is decided by the connector and the PLCs, which are parameters
here; the PLCs also go on by themselves.

Main definitions:

* `FillingPilot.Connector`, `FillingPilot.Connector.Transfers` — the connector with the PLCs behind
  it, and what is relied on of it;
* `FillingPilot.S7Manager.Job` — what a call is for;
* `FillingPilot.S7Manager.PlcState`, `FillingPilot.S7Manager.plcStep` — the calls of `liveStep`, the
  configurations of the connections and the PLCs;
* `FillingPilot.S7Manager.transferOf` — the transfer of a step, and the configuration it goes by;
* `FillingPilot.S7Manager.answer` — what the transfer of a step comes to.

Main results:

* `FillingPilot.S7Manager.poolKey_inj` — a key of the pool belongs to one host and one port;
* `FillingPilot.S7Manager.transfers_reach` — **every transfer goes to the PLC that its call names**;
* `FillingPilot.S7Manager.written_is_read` — **what was written is read**, as long as nothing touches
  it.
-/

import FillingPilot.CellMemory
import FillingPilot.PlcCommands
import FillingPilot.S7Live

set_option relaxedAutoImplicit false
set_option autoImplicit false

namespace FillingPilot

/-- The host and the port of a configuration. -/
structure Endpoint where
  host : String
  port : UInt16
  deriving DecidableEq

/-- Its key in the pool. -/
def Endpoint.key (e : Endpoint) : String := poolKey e.host e.port

/-- The PLC that an operation names. -/
def PlcCall.endpoint : PlcCall → Endpoint
  | read ip port _ _ _ => ⟨ip, port⟩
  | write ip port _ _ _ => ⟨ip, port⟩

/-! ### The connector -/

/-- The data blocks of the PLCs. -/
abbrev PlcMemory (δ : Type) := CellMemory (δ × UInt16) UInt8

/-- What `read_db` and `write_db` of the connector come to for a PLC, in a state of all that is
behind the connections. -/
structure Connector (δ ω : Type) where
  readDb : δ → UInt16 → UInt16 → UInt16 → ω → Except String (List UInt8) × ω
  writeDb : δ → UInt16 → UInt16 → List UInt8 → ω → Except String Unit × ω

/-- What is relied on of the connector and the PLCs, where `content` is what the data blocks have: a
read that succeeds gives what is there and changes nothing, a write that succeeds is there, and none
changes what it was not given. -/
structure Connector.Transfers {δ ω : Type} (s7 : Connector δ ω) (content : ω → PlcMemory δ) :
    Prop where
  read_ok : ∀ plc db offset size w bytes, (s7.readDb plc db offset size w).1 = .ok bytes →
    bytes = (content w).read (plc, db) offset.toNat size.toNat
  read_keeps : ∀ plc db offset size w, content (s7.readDb plc db offset size w).2 = content w
  write_ok : ∀ plc db offset data w, (s7.writeDb plc db offset data w).1 = .ok () →
    (content (s7.writeDb plc db offset data w).2).Holds (plc, db) offset.toNat data
  write_keeps : ∀ plc db offset data w, ((content w).SameApart
    (content (s7.writeDb plc db offset data w).2) (plc, db) offset.toNat data.length)

/-- A connector whose PLCs are a memory, and which always succeeds. -/
def memoryConnector (δ : Type) [DecidableEq δ] : Connector δ (PlcMemory δ) where
  readDb plc db offset size m := (.ok (m.read (plc, db) offset.toNat size.toNat), m)
  writeDb plc db offset data m := (.ok (), m.write (plc, db) offset.toNat data)

theorem memoryConnector_transfers (δ : Type) [DecidableEq δ] :
    (memoryConnector δ).Transfers id where
  read_ok _ _ _ _ _ _ h := (Except.ok.inj h).symm
  read_keeps _ _ _ _ _ := rfl
  write_ok _ _ _ data m _ := CellMemory.holds_write_self m _ _ data
  write_keeps _ _ _ data m := CellMemory.sameApart_write m _ _ data

namespace S7Manager

/-! ### Keys -/

/-- Texts that end in a colon and digits have the same parts. -/
theorem append_colon_inj {xs ys ds es : List Char} (hds : ∀ c ∈ ds, c.isDigit = true)
    (hes : ∀ c ∈ es, c.isDigit = true) (h : xs ++ ':' :: ds = ys ++ ':' :: es) :
    xs = ys ∧ ds = es := by
  have hcolon : ∀ {cs : List Char}, (∀ c ∈ cs, c.isDigit = true) → ':' ∉ cs := by
    intro cs hcs hmem
    exact absurd (hcs _ hmem) (by decide)
  rcases List.append_eq_append_iff.1 h with ⟨rest, rfl, hrest⟩ | ⟨rest, rfl, hrest⟩
  · cases rest with
    | nil => simpa using hrest
    | cons c rest =>
        -- the colon of the second text would stand among the digits of the first
        rw [List.cons_append, List.cons.injEq] at hrest
        exact absurd (hrest.2 ▸ by simp : ':' ∈ ds) (hcolon hds)
  · cases rest with
    | nil => simpa [eq_comm] using hrest
    | cons c rest =>
        rw [List.cons_append, List.cons.injEq] at hrest
        exact absurd (hrest.2 ▸ by simp : ':' ∈ es) (hcolon hes)

/-- **A key of the pool belongs to one host and one port.** -/
theorem poolKey_inj {e e' : Endpoint} (h : e.key = e'.key) : e = e' := by
  have hdigits : ∀ n : ℕ, ∀ c ∈ Nat.toDigits 10 n, c.isDigit = true :=
    fun _ _ hc => Rust.isDigit_of_mem_toDigits hc
  have hlists := congrArg String.toList h
  simp only [Endpoint.key, poolKey, String.toList_append, List.append_assoc,
    Nat.toString_eq_repr, Nat.toList_repr] at hlists
  obtain ⟨hhost, hport⟩ := append_colon_inj (hdigits _) (hdigits _) hlists
  have hnumber := congrArg (fun ds => Nat.ofDigitChars 10 ds 0) hport
  simp only [Nat.ofDigitChars_ten_toDigits] at hnumber
  obtain ⟨host, port⟩ := e
  obtain ⟨host', port'⟩ := e'
  rw [Endpoint.mk.injEq]
  exact ⟨String.toList_inj.1 hhost, UInt16.toNat_inj.1 hnumber⟩

/-! ### Calls and their connections -/

/-- What a call is for. -/
inductive Job
  | plc (call : PlcCall)
  | testConnection (host : String) (port : UInt16)
  | updatePlcList (plcs : List PlcConfig)

/-- The call of a job. -/
def Job.request : Job → LiveRequest
  | plc call => .transfer call.endpoint.host call.endpoint.port
  | testConnection host port => .testConnection host port
  | updatePlcList plcs => .updatePlcList plcs

/-- The configurations that a job makes connections with. -/
def Job.configs : Job → List Endpoint
  | plc call => [call.endpoint]
  | testConnection host port => [⟨host, port⟩]
  | updatePlcList plcs => plcs.map fun plc => ⟨plc.ip, plc.port⟩

/-- The configuration of the connection that the next step of the call makes, if it makes one. -/
def Job.created (job : Job) (live : LiveState) (ok : Bool) : LiveCall → Option Endpoint
  | .attempt _ _ => if ok then job.configs.head? else none
  | .preCreate [] => none
  | .preCreate (key :: keys) =>
      if key ∈ live.pool then none else job.configs[job.configs.length - (keys.length + 1)]?
  | _ => none

section Transfers

variable {δ ω : Type}

/-- The calls of the manager, the configuration of each connection, the job of each call, and what
is behind the connections. -/
structure PlcState (ω : Type) where
  live : LiveState
  configs : List Endpoint
  jobs : List Job
  world : ω

/-- What the world decides in a step of a call. -/
structure Io where
  ok : Bool
  /-- Failed I/O ends the connection. -/
  dead : Bool

/-- Everything goes well. -/
def Io.good : Io := ⟨true, false⟩

/-- A call starts, a call takes its next step, or the PLCs go on by themselves. -/
inductive PlcEvent (ω : Type)
  | start (job : Job)
  | advance (i : ℕ) (io : Io)
  | elsewhere (world : ω)

/-- The transfer of a step: the operation, and the configuration of the connection it goes over. -/
def transferOf (st : PlcState ω) : PlcEvent ω → Option (PlcCall × Endpoint)
  | .advance i _ =>
      match st.live.calls[i]?, st.jobs[i]? with
      | some (.transfer _ _ c), some (.plc call) => st.configs[c]?.map fun config => (call, config)
      | _, _ => none
  | .start _ | .elsewhere _ => none

/-- The connections after a step of a call. -/
def configsAfter (st : PlcState ω) (i : ℕ) (io : Io) : List Endpoint :=
  match st.live.calls[i]?, st.jobs[i]? with
  | some call, some job => st.configs ++ (job.created st.live io.ok call).toList
  | _, _ => st.configs

variable (s7 : Connector δ ω) (plcAt : Endpoint → δ)

/-- `conn.read_db` in `read_bytes` and `conn.write_db` in `write_bytes`, for a PLC. -/
def perform (plc : δ) (w : ω) : PlcCall → Except String (List UInt8) × ω
  | .read _ _ db offset size =>
      let (result, w) := s7.readDb plc db offset size w
      (result.mapError fun e => "Read failed: " ++ e, w)
  | .write _ _ db offset data =>
      let (result, w) := s7.writeDb plc db offset data w
      ((result.mapError fun e => "Write failed: " ++ e).map fun _ => [], w)

/-- What the transfer of a step comes to, and what it leaves; `plcAt` is the PLC that is reached
with a configuration. -/
def transferred (st : PlcState ω) (e : PlcEvent ω) :
    Option (Except String (List UInt8) × ω) :=
  (transferOf st e).map fun (call, config) => perform s7 (plcAt config) st.world call

/-- What the transfer of a step comes to. -/
def answer (st : PlcState ω) (e : PlcEvent ω) : Option (Except String (List UInt8)) :=
  (transferred s7 plcAt st e).map Prod.fst

/-- One step.  A transfer goes on as the connector says. -/
def plcStep (st : PlcState ω) (e : PlcEvent ω) : Option (PlcState ω) :=
  match e with
  | .start job =>
      (liveStep st.live (.start job.request)).map fun live =>
        { st with live := live, jobs := st.jobs ++ [job] }
  | .advance i io =>
      if ∀ result ∈ answer s7 plcAt st e, result.isOk = io.ok then
        (liveStep st.live (.advance i io.ok io.dead)).map fun live => {
          live := live
          configs := configsAfter st i io
          jobs := st.jobs
          world := ((transferred s7 plcAt st e).map Prod.snd).getD st.world }
      else none
  | .elsewhere world => some { st with world := world }

/-- The steps when the PLCs are a memory, each under its host and port. -/
abbrev memoryStep := plcStep (memoryConnector Endpoint) id

/-- A new manager. -/
def plcStart (world : ω) : PlcState ω := ⟨newManager, [], [], world⟩

variable {s7 plcAt}

/-! ### The invariant -/

/-- The next steps of the call are those of the job. -/
def Serves (job : Job) : LiveCall → Prop
  | .lookUp key _ => job.configs.map Endpoint.key = [key]
  | .attempt key _ => job.configs.map Endpoint.key = [key]
  | .insert key _ _ => job.configs.map Endpoint.key = [key]
  | .transfer key _ _ => job.configs.map Endpoint.key = [key]
  | .remove _ _ => True
  | .preCreate keys => keys <:+ job.configs.map Endpoint.key
  | .done => True

/-- The calls are those of the jobs, and the connections have the keys of their configurations. -/
structure PlcInv (st : PlcState ω) : Prop where
  live : LiveInv st.live
  jobs : st.jobs.length = st.live.calls.length
  keys : st.live.conns.map Conn.key = st.configs.map Endpoint.key
  serves : ∀ (i : ℕ) call job, st.live.calls[i]? = some call → st.jobs[i]? = some job →
    Serves job call

theorem serves_start (job : Job) : Serves job job.request.start := by
  cases job with
  | plc call => rfl
  | testConnection host port => rfl
  | updatePlcList plcs =>
      show plcs.map _ <:+ (plcs.map _).map _
      rw [List.map_map]
      exact List.suffix_rfl

theorem plcInv_plcStart (world : ω) : PlcInv (plcStart world) where
  live := liveInv_newManager
  jobs := rfl
  keys := rfl
  serves i call job h := by cases h

theorem getElem?_of_cons_suffix {α : Type} {x : α} {xs ys : List α} (h : x :: xs <:+ ys) :
    ys[ys.length - (xs.length + 1)]? = some x := by
  obtain ⟨front, rfl⟩ := h
  rw [List.length_append, List.length_cons, Nat.add_sub_cancel_right,
    List.getElem?_append_right (Nat.le_refl _), Nat.sub_self]
  rfl

theorem map_key_fail (live : LiveState) (c : ℕ) (dead : Bool) :
    (live.fail c dead).conns.map Conn.key = live.conns.map Conn.key := by
  refine List.ext_getElem? fun i => ?_
  simp only [LiveState.fail, List.getElem?_map, List.getElem?_modify]
  cases live.conns[i]? with
  | none => rfl
  | some conn => by_cases hi : c = i <;> simp [hi]

/-- **What a step of a call does for its job**: the call goes on with it, and a connection that is
made has the key of its configuration. -/
theorem advance_serves {live live' : LiveState} {i : ℕ} {ok dead : Bool} {call : LiveCall}
    {job : Job} (hjob : Serves job call) (h : live.advance i ok dead call = some live') :
    ∃ call', live'.calls = live.calls.set i call' ∧ Serves job call' ∧
      live'.conns.map Conn.key =
        live.conns.map Conn.key ++ (job.created live ok call).toList.map Endpoint.key := by
  cases call with
  | lookUp key test =>
      simp only [LiveState.advance] at h
      cases hpool : live.pool.lookup key with
      | none =>
          simp only [hpool, Option.some.injEq] at h
          subst h
          exact ⟨.attempt key test, rfl, hjob, by simp [Job.created, LiveState.put]⟩
      | some c =>
          simp only [hpool] at h
          split_ifs at h
          · cases h
            exact ⟨.transfer key test c, rfl, hjob, by simp [Job.created, LiveState.put]⟩
          · cases h
            exact ⟨.attempt key test, rfl, hjob, by simp [Job.created, LiveState.put]⟩
  | attempt key test =>
      cases ok with
      | true =>
          cases h
          refine ⟨.insert key test live.conns.length, rfl, hjob, ?_⟩
          obtain ⟨config, hconfigs, hkey⟩ := List.map_eq_singleton_iff.1 hjob
          simp [Job.created, LiveState.connect, LiveState.create, LiveState.put, hconfigs, hkey]
      | false =>
          cases h
          refine ⟨_, rfl, ?_, by simp [Job.created, LiveState.put]⟩
          cases test <;> trivial
  | insert key test c =>
      cases h
      exact ⟨.transfer key test c, rfl, hjob,
        by simp [Job.created, LiveState.put, LiveState.store]⟩
  | transfer key test c =>
      cases ok with
      | true =>
          cases h
          exact ⟨.done, rfl, trivial, by simp [Job.created, LiveState.put]⟩
      | false =>
          cases h
          refine ⟨_, rfl, ?_, ?_⟩
          · cases test <;> trivial
          · rw [LiveState.put, map_key_fail]
            simp [Job.created]
  | remove key tested =>
      cases h
      exact ⟨.done, rfl, trivial, by simp [Job.created, LiveState.put, LiveState.drop]⟩
  | preCreate keys =>
      cases keys with
      | nil =>
          cases h
          exact ⟨.done, rfl, trivial, by simp [Job.created, LiveState.put]⟩
      | cons key keys =>
          have hrest : Serves job (.preCreate keys) :=
            (List.suffix_cons key keys).trans hjob
          simp only [LiveState.advance] at h
          split_ifs at h with hkey
          · cases h
            exact ⟨.preCreate keys, rfl, hrest, by simp [Job.created, LiveState.put, hkey]⟩
          · cases h
            refine ⟨.preCreate keys, rfl, hrest, ?_⟩
            have hat := getElem?_of_cons_suffix hjob
            rw [List.length_map, List.getElem?_map, Option.map_eq_some_iff] at hat
            obtain ⟨config, hconfig, rfl⟩ := hat
            simp [Job.created, LiveState.put, LiveState.store, LiveState.create, hkey, hconfig]
  | done => cases h

/-- **A transfer goes over a connection that was made for its call.** -/
theorem config_eq_endpoint {st : PlcState ω} (hst : PlcInv st) {e : PlcEvent ω} {call : PlcCall}
    {config : Endpoint} (h : transferOf st e = some (call, config)) : config = call.endpoint := by
  cases e with
  | start job => cases h
  | elsewhere world => cases h
  | advance i io =>
      simp only [transferOf] at h
      split at h
      next key test c job hcall hjob =>
        obtain ⟨config', hconfig, heq⟩ := Option.map_eq_some_iff.1 h
        cases heq
        obtain ⟨conn, hconn, hkey⟩ := hst.live.held _ (List.mem_of_getElem? hcall) key c rfl
        have hkeys := congrArg (fun keys => keys[c]?) hst.keys
        simp only [List.getElem?_map, hconn, hconfig, Option.map_some, Option.some.injEq] at hkeys
        have hserves : [call.endpoint.key] = [key] := hst.serves i _ _ hcall hjob
        rw [List.cons.injEq] at hserves
        exact poolKey_inj (hkeys.symm.trans (hkey.trans hserves.1.symm))
      next => cases h

/-- The operation that the step transfers. -/
def performed (st : PlcState ω) (e : PlcEvent ω) : Option PlcCall := (transferOf st e).map Prod.fst

theorem transferOf_of_performed {st : PlcState ω} (hst : PlcInv st) {e : PlcEvent ω}
    {call : PlcCall} (h : performed st e = some call) :
    transferOf st e = some (call, call.endpoint) := by
  obtain ⟨⟨call', config⟩, htransfer, rfl⟩ := Option.map_eq_some_iff.1 h
  rw [htransfer, config_eq_endpoint hst htransfer]

/-- What an operation comes to, for the PLC that it names. -/
theorem transferred_of_performed {st : PlcState ω} (hst : PlcInv st) {e : PlcEvent ω}
    {call : PlcCall} (h : performed st e = some call) :
    transferred s7 plcAt st e = some (perform s7 (plcAt call.endpoint) st.world call) := by
  rw [transferred, transferOf_of_performed hst h]
  rfl

/-! ### The steps -/

theorem start_eq_some {st st' : PlcState ω} {job : Job}
    (h : plcStep s7 plcAt st (.start job) = some st') :
    ∃ live, liveStep st.live (.start job.request) = some live ∧
      st' = { st with live := live, jobs := st.jobs ++ [job] } := by
  rw [plcStep, Option.map_eq_some_iff] at h
  obtain ⟨live, hlive, rfl⟩ := h
  exact ⟨live, hlive, rfl⟩

theorem advance_eq_some {st st' : PlcState ω} {i : ℕ} {io : Io}
    (h : plcStep s7 plcAt st (.advance i io) = some st') :
    (∀ result ∈ answer s7 plcAt st (.advance i io), result.isOk = io.ok) ∧
      ∃ live, liveStep st.live (.advance i io.ok io.dead) = some live ∧ st' = {
        live := live
        configs := configsAfter st i io
        jobs := st.jobs
        world := ((transferred s7 plcAt st (.advance i io)).map Prod.snd).getD st.world } := by
  simp only [plcStep] at h
  split_ifs at h with hok
  obtain ⟨live, hlive, rfl⟩ := Option.map_eq_some_iff.1 h
  exact ⟨hok, live, hlive, rfl⟩

/-- What is behind the connections after a step. -/
theorem world_of_step {st st' : PlcState ω} {e : PlcEvent ω}
    (h : plcStep s7 plcAt st e = some st') :
    (∃ world, e = .elsewhere world ∧ st'.world = world) ∨
      st'.world = ((transferred s7 plcAt st e).map Prod.snd).getD st.world := by
  cases e with
  | start job =>
      obtain ⟨live, -, rfl⟩ := start_eq_some h
      exact Or.inr rfl
  | advance i io =>
      obtain ⟨-, live, -, rfl⟩ := advance_eq_some h
      exact Or.inr rfl
  | elsewhere world =>
      cases h
      exact Or.inl ⟨world, rfl, rfl⟩

/-- **What a step keeps.** -/
theorem PlcInv.step {st st' : PlcState ω} {e : PlcEvent ω} (hst : PlcInv st)
    (h : plcStep s7 plcAt st e = some st') : PlcInv st' := by
  cases e with
  | start job =>
      obtain ⟨live, hlive, rfl⟩ := start_eq_some h
      cases hlive
      refine ⟨hst.live.start job.request, ?_, hst.keys, ?_⟩
      · simp [hst.jobs]
      · intro i call job' hcall hjob
        rcases getElem?_concat_eq_some hcall with hcall | ⟨hi, rfl⟩
        · refine hst.serves i call job' hcall ?_
          rwa [List.getElem?_append_left] at hjob
          rw [hst.jobs]
          exact (List.getElem?_eq_some_iff.1 hcall).1
        · rw [hi, ← hst.jobs, List.getElem?_concat_length, Option.some.injEq] at hjob
          exact hjob ▸ serves_start job
  | advance i io =>
      obtain ⟨-, live, hlive, rfl⟩ := advance_eq_some h
      obtain ⟨call, hcall, hadvance⟩ := Option.bind_eq_some_iff.1 hlive
      have hi := (List.getElem?_eq_some_iff.1 hcall).1
      obtain ⟨job, hjob⟩ : ∃ job, st.jobs[i]? = some job :=
        ⟨_, List.getElem?_eq_getElem (hst.jobs ▸ hi)⟩
      obtain ⟨call', hcalls, hserves, hkeys⟩ :=
        advance_serves (hst.serves i call _ hcall hjob) hadvance
      refine ⟨hst.live.step hlive, ?_, ?_, ?_⟩
      · show st.jobs.length = live.calls.length
        rw [hcalls, List.length_set, hst.jobs]
      · show live.conns.map Conn.key = (configsAfter st i io).map Endpoint.key
        simp only [configsAfter, hcall, hjob, List.map_append, hkeys, hst.keys]
      · intro j call'' job' hcall' hjob'
        change live.calls[j]? = some call'' at hcall'
        rw [hcalls, List.getElem?_set] at hcall'
        split_ifs at hcall' with hij
        · cases hcall'
          subst hij
          cases hjob.symm.trans hjob'
          exact hserves
        · exact hst.serves j call'' job' hcall' hjob'
  | elsewhere world =>
      cases h
      exact ⟨hst.live, hst.jobs, hst.keys, hst.serves⟩

/-! ### Where the data go -/

/-- **Every transfer goes to the PLC that its call names**, whatever calls go on beside it and
whoever made the connection. -/
theorem transfers_reach (s7 : Connector δ ω) (plcAt : Endpoint → δ) (world : ω)
    (events : List (PlcEvent ω)) :
    Lts.Always (plcStep s7 plcAt)
      (fun st => ∀ e call config, transferOf st e = some (call, config) →
        config = call.endpoint)
      (plcStart world) events :=
  Lts.always_of_invariant (fun _ hst _ _ _ h => config_eq_endpoint hst h)
    (fun _ _ _ hst h => hst.step h) (plcInv_plcStart world)

/-! ### What was written is read -/

/-- The operation writes to the cells. -/
def Touches (plcAt : Endpoint → δ) (plc : δ) (db : UInt16) (start len : ℕ) : PlcCall → Prop
  | .read _ _ _ _ _ => False
  | .write ip port db' offset data =>
      plcAt ⟨ip, port⟩ = plc ∧ db' = db ∧ ¬ CellMemory.Apart start len offset.toNat data.length

/-- The step leaves the cells alone: no write touches them, and the PLC keeps them itself. -/
def Spares (content : ω → PlcMemory δ) (plcAt : Endpoint → δ) (plc : δ) (db : UInt16)
    (start len : ℕ) (st : PlcState ω) (e : PlcEvent ω) : Prop :=
  (∀ call, performed st e = some call → ¬ Touches plcAt plc db start len call) ∧
    ∀ world, e = .elsewhere world → ∀ i, start ≤ i → i < start + len →
      content world (plc, db) i = content st.world (plc, db) i

variable {content : ω → PlcMemory δ}

theorem holds_perform (hs7 : s7.Transfers content) {plc : δ} {db : UInt16} {start : ℕ}
    {data : List UInt8} {w : ω} (h : (content w).Holds (plc, db) start data) {call : PlcCall}
    (hspares : ¬ Touches plcAt plc db start data.length call) :
    (content (perform s7 (plcAt call.endpoint) w call).2).Holds (plc, db) start data := by
  cases call with
  | read ip port db' offset size =>
      rw [show content (perform s7 _ w (.read ip port db' offset size)).2 = content w from
        hs7.read_keeps _ _ _ _ _]
      exact h
  | write ip port db' offset data' =>
      refine CellMemory.Holds.sameApart h (hs7.write_keeps _ db' offset data' w) fun hplace => ?_
      by_contra hapart
      rw [Prod.mk.injEq] at hplace
      exact hspares ⟨hplace.1.symm, hplace.2.symm, hapart⟩

/-- **What a step leaves of the cells.** -/
theorem holds_step (hs7 : s7.Transfers content) {st st' : PlcState ω} (hst : PlcInv st)
    {e : PlcEvent ω} {plc : δ} {db : UInt16} {start : ℕ} {data : List UInt8}
    (h : (content st.world).Holds (plc, db) start data)
    (hspares : Spares content plcAt plc db start data.length st e)
    (hstep : plcStep s7 plcAt st e = some st') :
    (content st'.world).Holds (plc, db) start data := by
  obtain ⟨world, rfl, hworld⟩ | hworld := world_of_step hstep
  · rw [hworld]
    intro i b hb
    obtain ⟨hi, -⟩ := List.getElem?_eq_some_iff.1 hb
    rw [hspares.2 world rfl _ (Nat.le_add_right _ _) (Nat.add_lt_add_left hi _)]
    exact h i b hb
  · rw [hworld]
    cases hcall : performed st e with
    | none =>
        have htransfer : transferOf st e = none := Option.map_eq_none_iff.1 hcall
        rw [transferred, htransfer]
        exact h
    | some call =>
        rw [transferred_of_performed hst hcall]
        exact holds_perform hs7 h (hspares.1 call hcall)

/-- **What was written is read**: in every run, when the transfer of a write has succeeded and no
later step touches its cells, a read of them that succeeds gives the data that were written. -/
theorem written_is_read (hs7 : s7.Transfers content) {world : ω}
    {before between : List (PlcEvent ω)} {s t u : PlcState ω} {w r : PlcEvent ω} {ip ip' : String}
    {port port' db offset offset' size : UInt16} {data bytes : List UInt8}
    (hbefore : Lts.run (plcStep s7 plcAt) (plcStart world) before = some s)
    (hw : performed s w = some (.write ip port db offset data))
    (hwok : answer s7 plcAt s w = some (.ok [])) (hwrite : plcStep s7 plcAt s w = some t)
    (hspares : Lts.Along (plcStep s7 plcAt)
      (Spares content plcAt (plcAt ⟨ip, port⟩) db offset.toNat data.length) t between)
    (hbetween : Lts.run (plcStep s7 plcAt) t between = some u)
    (hr : performed u r = some (.read ip' port' db offset' size))
    (hrok : answer s7 plcAt u r = some (.ok bytes))
    (hplc : plcAt ⟨ip', port'⟩ = plcAt ⟨ip, port⟩) (hstart : offset.toNat ≤ offset'.toNat)
    (hend : offset'.toNat + size.toNat ≤ offset.toNat + data.length) :
    bytes = data.slice (offset'.toNat - offset.toNat) size.toNat := by
  have hs : PlcInv s :=
    Lts.run_invariant' (fun _ _ _ hst h => hst.step h) (plcInv_plcStart world) hbefore
  have ht : (content t.world).Holds (plcAt ⟨ip, port⟩, db) offset.toNat data := by
    have htransfer := @transferred_of_performed δ ω s7 plcAt s hs w _ hw
    obtain ⟨world', rfl, -⟩ | hworld := world_of_step hwrite
    · cases hw
    · rw [hworld, htransfer]
      rw [answer, htransfer] at hwok
      refine hs7.write_ok _ _ _ _ _ ?_
      simp only [perform, Option.map_some, Option.some.injEq, PlcCall.endpoint] at hwok
      cases hresult : (s7.writeDb (plcAt ⟨ip, port⟩) db offset data s.world).1 with
      | ok done => exact hresult
      | error message => rw [hresult] at hwok; cases hwok
  have hu : PlcInv u ∧ (content u.world).Holds (plcAt ⟨ip, port⟩, db) offset.toNat data := by
    refine Lts.run_invariant
      (I := fun st => PlcInv st ∧ (content st.world).Holds (plcAt ⟨ip, port⟩, db) offset.toNat data)
      (fun st e st' hok hst h => ⟨hst.1.step h, holds_step hs7 hst.1 hst.2 hok h⟩)
      ⟨hs.step hwrite, ht⟩ hspares hbetween
  have htransfer := @transferred_of_performed δ ω s7 plcAt u hu.1 r _ hr
  rw [answer, htransfer] at hrok
  simp only [perform, Option.map_some, Option.some.injEq, PlcCall.endpoint, hplc] at hrok
  cases hresult : (s7.readDb (plcAt ⟨ip, port⟩) db offset' size u.world).1 with
  | ok bytes' =>
      rw [hresult] at hrok
      obtain rfl : bytes' = bytes := Except.ok.inj hrok
      rw [hs7.read_ok _ _ _ _ _ _ hresult, CellMemory.Holds.read hu.2 hstart hend]
  | error message => rw [hresult] at hrok; cases hrok

end Transfers

end S7Manager

end FillingPilot
