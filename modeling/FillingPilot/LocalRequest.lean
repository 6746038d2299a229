/-
**The turn of a monitor, with its request.**

What a turn sends to the cloud is posted to the local address of the monitor too, if it has one, with
the fields of the block when the monitor has a type.  The request is built in the turn, by the task
of the monitor loop, and the decoder blocks on the definitions, which a task may not do: for a
monitor with a type and a local address a turn that has something to send panics.  The panic comes
after the state of the monitor was updated.

Main definitions:

* `FillingPilot.MonitorProcessor.sendLocalHttpPost` — the request;
* `FillingPilot.Monitor.Decodes` — a monitor with a type and a local address;
* `FillingPilot.MonitorProcessor.monitorTurn` — the turn with its request, and what it leaves when it
  panics;
* `FillingPilot.MonitorProcessor.NeedsDecoding` — the turn has something to send that has to be
  decoded.

Main results:

* `FillingPilot.MonitorProcessor.sendLocalHttpPost_task` — the request that a task makes;
* `FillingPilot.MonitorProcessor.monitorTurn_through_iff` — **the turns that go through**.
-/

import FillingPilot.Callback
import FillingPilot.MonitorTrigger

set_option relaxedAutoImplicit false
set_option autoImplicit false

namespace FillingPilot

open Json Rust

/-- A monitor with a type and a local address: its data is decoded for a request. -/
def Monitor.Decodes (m : Monitor) : Prop := m.localAddress ≠ "" ∧ m.monitorType ≠ ""

instance (m : Monitor) : Decidable m.Decodes :=
  inferInstanceAs (Decidable (m.localAddress ≠ "" ∧ m.monitorType ≠ ""))

namespace MonitorProcessor

/-! ### Requests -/

/-- A request under way: it was made for a monitor, whose PLC its answer is about. -/
structure LocalPost where
  monitor : Monitor
  body : AList fun _ : String => Value

/-- The members of every request. -/
def requestMembers (monitor : Monitor) (hexData : String) : List (String × Value) :=
  [("id", .string monitor.id), ("merchantId", .string monitor.merchantId),
    ("ip", .string monitor.ip), ("port", .ofInt monitor.port.toNat),
    ("name", .string monitor.name), ("code", .string monitor.code),
    ("dbNumber", .ofInt monitor.dbNumber.toNat), ("offset", .ofInt monitor.offset.toNat),
    ("blockSize", .ofInt monitor.blockSize.toNat), ("type", .string monitor.monitorType),
    ("frequency", .ofInt monitor.frequency), ("resendInterval", .ofInt monitor.resendInterval),
    ("forwardAddress", .string monitor.forwardAddress),
    ("localAddress", .string monitor.localAddress), ("data", .string hexData)]

/-- The cloud is sent what every request has. -/
theorem buildMonitorMessage_eq (monitor : Monitor) (data : String) :
    buildMonitorMessage monitor data = .object (requestMembers monitor data) := rfl

/-- The body of a request without decoded fields. -/
def requestMap (monitor : Monitor) (hexData : String) : AList fun _ : String => Value :=
  (∅ : AList fun _ : String => Value).insertPairs (requestMembers monitor hexData)

section Requests

variable (caller : Caller) (host : Host) (cache : MetaCache)

/-- The fields of the data, when the monitor has a type and the decoder gives some. -/
def decodedFields (monitor : Monitor) (hexData : String) :
    Outcome (AList fun _ : String => Value) :=
  if monitor.monitorType.isEmpty then .ok ∅
  else match hexDecode hexData with
    | none => .ok ∅
    | some bytes =>
        match decodeAsMapBy caller host bytes monitor.monitorType cache with
        | .ok decoded => .ok decoded
        | .err _ => .ok ∅
        | .panic => .panic

/-- `send_local_http_post`: the request, if the monitor has a local address.  Decoded fields take
the place of members of their name. -/
def sendLocalHttpPost (monitor : Monitor) (hexData : String) : Outcome (Option LocalPost) :=
  if monitor.localAddress.isEmpty then .ok none
  else do
    let decoded ← decodedFields caller host cache monitor hexData
    return some ⟨monitor, (requestMap monitor hexData).insertPairs
      (decoded.entries.map fun e => (e.1, e.2))⟩

/-- The request of a turn, which is made when the turn has a message. -/
def postOfTurn (monitor : Monitor) (turn : Turn) : Outcome (Option LocalPost) :=
  match turn.message with
  | none => .ok none
  | some data => sendLocalHttpPost caller host cache monitor data

end Requests

section Task

variable {host : Host} {cache : MetaCache}

/-- From a task data is not decoded that is a hexadecimal text. -/
theorem decodedFields_task (monitor : Monitor) (hexData : String) :
    decodedFields .task host cache monitor hexData =
      if monitor.monitorType = "" ∨ hexDecode hexData = none then .ok ∅ else .panic := by
  rw [decodedFields]
  simp only [String.isEmpty_iff]
  by_cases htype : monitor.monitorType = ""
  · rw [if_pos htype, if_pos (Or.inl htype)]
  · rw [if_neg htype]
    cases hhex : hexDecode hexData with
    | none => exact (if_pos (Or.inr rfl)).symm
    | some bytes => simp [decodeAsMapBy, htype]

/-- **The request that a task makes**: none without a local address, none when the data has to be
decoded, which panics, and else one with the members that every request has. -/
theorem sendLocalHttpPost_task (monitor : Monitor) (hexData : String) :
    sendLocalHttpPost .task host cache monitor hexData =
      if monitor.localAddress = "" then .ok none
      else if monitor.monitorType = "" ∨ hexDecode hexData = none then
        .ok (some ⟨monitor, requestMap monitor hexData⟩)
      else .panic := by
  rw [sendLocalHttpPost, decodedFields_task]
  simp only [String.isEmpty_iff]
  split_ifs
  · rfl
  · rfl
  · rfl

/-- The requests that can be made. -/
theorem postOfTurn_task_ok_iff {monitor : Monitor} {turn : Turn} :
    (∃ post, postOfTurn .task host cache monitor turn = .ok post) ↔
      ∀ data ∈ turn.message, monitor.Decodes → hexDecode data = none := by
  rw [postOfTurn]
  cases turn.message with
  | none => simp
  | some data =>
      simp only [sendLocalHttpPost_task, Option.mem_some_iff, forall_eq', Monitor.Decodes]
      split_ifs with hlocal hplain
      · simp [hlocal]
      · simp only [Outcome.ok.injEq, exists_eq', true_iff]
        exact fun hdecodes => hplain.resolve_left hdecodes.2
      · simp only [exists_false, false_iff]
        exact fun h => hplain (Or.inr (h ⟨hlocal, fun htype => hplain (Or.inl htype)⟩))

end Task

/-! ### Turns and their data -/

/-- A turn keeps hexadecimal texts, and sends them. -/
theorem turn_hex {plc : S7Read → Option (List UInt8)} {now : ℕ} {monitor : Monitor}
    {state : MonitorState} {turn : Turn} (hstate : ∃ bytes, state.data = hexEncode bytes)
    (h : triggerMonitor plc now monitor state = .ok turn) :
    (∃ bytes, turn.state.data = hexEncode bytes) ∧
      ∀ data ∈ turn.message, ∃ bytes, data = hexEncode bytes := by
  have hend {state' : MonitorState} {block : Option (List UInt8)}
      (hending : Ending now monitor state' block turn) (hdata : state'.data = state.data) :
      (∃ bytes, turn.state.data = hexEncode bytes) ∧
        ∀ data ∈ turn.message, ∃ bytes, data = hexEncode bytes := by
    cases hending with
    | quiet => exact ⟨hdata ▸ hstate, by simp⟩
    | again t hlast hdue hne =>
        refine ⟨hdata ▸ hstate, fun data hsent => ?_⟩
        obtain rfl := Option.some.inj hsent
        exact hdata ▸ hstate
  by_cases hrunning : state.running = true
  · rw [triggerMonitor, if_pos hrunning, Outcome.ok.injEq] at h
    subst h
    exact ⟨hstate, by simp⟩
  · cases triggerMonitor_cases (Bool.eq_false_of_not_eq_true hrunning) h with
    | changed full hdue hdata =>
        refine ⟨⟨full, rfl⟩, fun data hsent => ?_⟩
        obtain rfl := Option.some.inj hsent
        exact ⟨full, rfl⟩
    | unchanged full _ hdue hdata hending => exact hend hending rfl
    | unread _ hending => exact hend hending rfl

theorem turn_notAfter {plc : S7Read → Option (List UInt8)} {now : ℕ} {monitor : Monitor}
    {state : MonitorState} {turn : Turn} (hread : ∀ t ∈ state.lastReadTime, t ≤ now)
    (hsend : ∀ t ∈ state.lastSendTime, t ≤ now)
    (h : triggerMonitor plc now monitor state = .ok turn) :
    (∀ t ∈ turn.state.lastReadTime, t ≤ now) ∧ ∀ t ∈ turn.state.lastSendTime, t ≤ now := by
  have hnow : ∀ t ∈ some now, t ≤ now := fun t ht => (Option.some.inj ht).symm.le
  have hend {state' : MonitorState} {block : Option (List UInt8)}
      (hending : Ending now monitor state' block turn)
      (hread' : ∀ t ∈ state'.lastReadTime, t ≤ now) (hsend' : ∀ t ∈ state'.lastSendTime, t ≤ now) :
      (∀ t ∈ turn.state.lastReadTime, t ≤ now) ∧ ∀ t ∈ turn.state.lastSendTime, t ≤ now := by
    cases hending with
    | quiet => exact ⟨hread', hsend'⟩
    | again t hlast hdue hne => exact ⟨hread', hnow⟩
  by_cases hrunning : state.running = true
  · rw [triggerMonitor, if_pos hrunning, Outcome.ok.injEq] at h
    subst h
    exact ⟨hread, hsend⟩
  · cases triggerMonitor_cases (Bool.eq_false_of_not_eq_true hrunning) h with
    | changed full hdue hdata => exact ⟨hnow, hnow⟩
    | unchanged full _ hdue hdata hending => exact hend hending hnow hsend
    | unread _ hending => exact hend hending hread hsend

section Posts

variable {host : Host} {cache : MetaCache} {monitor : Monitor} {turn : Turn}

/-- The requests that a task makes are for monitors without a type, and have no decoded fields. -/
def Undecoded (post : LocalPost) : Prop :=
  post.monitor.monitorType = "" ∧ ∃ data, post.body = requestMap post.monitor data

/-- **What a turn that goes on has sent**: nothing for a monitor that decodes. -/
theorem postOfTurn_task_ok (hhex : ∀ data ∈ turn.message, ∃ bytes, data = hexEncode bytes)
    {post : Option LocalPost} (h : postOfTurn .task host cache monitor turn = .ok post) :
    (turn.message ≠ none → ¬ monitor.Decodes) ∧ ∀ p ∈ post, Undecoded p := by
  rw [postOfTurn] at h
  cases hmessage : turn.message with
  | none =>
      rw [hmessage] at h
      cases h
      exact ⟨fun hne => absurd rfl hne, by simp⟩
  | some data =>
      obtain ⟨bytes, rfl⟩ := hhex data hmessage
      rw [hmessage] at h
      simp only [sendLocalHttpPost_task, hexDecode_hexEncode, reduceCtorEq, or_false] at h
      split_ifs at h with hlocal htype
      · cases h
        exact ⟨fun _ hdecodes => hdecodes.1 hlocal, by simp⟩
      · cases h
        refine ⟨fun _ hdecodes => hdecodes.2 htype, fun p hp => ?_⟩
        obtain rfl := Option.some.inj hp
        exact ⟨htype, _, rfl⟩

end Posts

/-! ### The turn with its request -/

/-- What a turn comes to: it goes through, with its request, or it panics and leaves the state and
the block of a successful read. -/
inductive TurnResult
  | through (turn : Turn) (post : Option LocalPost)
  | panic (state : MonitorState) (block : Option (List UInt8))

/-- The state that a turn leaves when it panics before its request: an interval cannot be computed,
or the block of the answer cannot be made. -/
def stateAtPanic (plc : S7Read → Option (List UInt8)) (now : ℕ) (monitor : Monitor)
    (state : MonitorState) : MonitorState :=
  match isDue true now state.lastReadTime monitor.frequency with
  | .ok true =>
      match plc (readOf monitor) with
      | some data =>
          match fullBlock monitor data with
          | .ok _ => { state with lastReadTime := some now, running := false }
          | _ => { state with lastReadTime := some now, running := true }
      | none => { state with running := false }
  | _ => state

/-- The turn of a monitor, with the request of its message: the state is updated before the request
is built. -/
def monitorTurn (host : Host) (cache : MetaCache) (plc : S7Read → Option (List UInt8)) (now : ℕ)
    (monitor : Monitor) (state : MonitorState) : TurnResult :=
  match triggerMonitor plc now monitor state with
  | .ok turn =>
      match postOfTurn .task host cache monitor turn with
      | .ok post => .through turn post
      | _ => .panic turn.state turn.block
  | _ => .panic (stateAtPanic plc now monitor state) none

theorem monitorTurn_eq_through {host : Host} {cache : MetaCache}
    {plc : S7Read → Option (List UInt8)} {now : ℕ} {monitor : Monitor} {state : MonitorState}
    {turn : Turn} {post : Option LocalPost}
    (h : monitorTurn host cache plc now monitor state = .through turn post) :
    triggerMonitor plc now monitor state = .ok turn ∧
      postOfTurn .task host cache monitor turn = .ok post := by
  rw [monitorTurn] at h
  split at h
  · rename_i turn' hturn
    split at h
    · rename_i post' hpost
      cases h
      exact ⟨hturn, hpost⟩
    · cases h
  · cases h

/-- The read is due and is answered with a block that differs from the data kept. -/
def HasChanged (plc : S7Read → Option (List UInt8)) (now : ℕ) (monitor : Monitor)
    (state : MonitorState) : Prop :=
  (∀ t ∈ state.lastReadTime, t + monitor.frequency ≤ now) ∧
    ∃ data ∈ plc (readOf monitor), hexEncode (plcBlock monitor data) ≠ state.data

/-- There is data that was last sent a resend interval ago. -/
def ResendDue (now : ℕ) (monitor : Monitor) (state : MonitorState) : Prop :=
  (∃ t ∈ state.lastSendTime, t + monitor.resendInterval ≤ now) ∧ state.data ≠ ""

/-- The turn has data to send that has to be decoded for the request: a block that has changed, or
data that is sent again. -/
def NeedsDecoding (plc : S7Read → Option (List UInt8)) (now : ℕ) (monitor : Monitor)
    (state : MonitorState) : Prop :=
  monitor.Decodes ∧ state.running = false ∧
    (HasChanged plc now monitor state ∨
      ResendDue now monitor state ∧ hexDecode state.data ≠ none)

section TurnOfMonitor

variable {plc : S7Read → Option (List UInt8)} {now : ℕ} {monitor : Monitor} {state : MonitorState}

instance : Decidable (HasChanged plc now monitor state) :=
  inferInstanceAs (Decidable (_ ∧ _))

instance : Decidable (ResendDue now monitor state) := inferInstanceAs (Decidable (_ ∧ _))

instance : Decidable (NeedsDecoding plc now monitor state) :=
  inferInstanceAs (Decidable (_ ∧ _ ∧ _))

theorem isDue_true_eq {last : Option ℕ} (h : ∀ t ∈ last, t ≤ now) (interval : ℕ) :
    isDue true now last interval = .ok (decide (∀ t ∈ last, t + interval ≤ now)) := by
  cases last with
  | none => simp [isDue]
  | some t =>
      have ht : t ≤ now := h t rfl
      simp [isDue, elapsed, ht, Nat.le_sub_iff_add_le ht, Nat.add_comm]

theorem isDue_false_eq {last : Option ℕ} (h : ∀ t ∈ last, t ≤ now) (interval : ℕ) :
    isDue false now last interval = .ok (decide (∃ t ∈ last, t + interval ≤ now)) := by
  cases last with
  | none => simp [isDue]
  | some t =>
      have ht : t ≤ now := h t rfl
      simp [isDue, elapsed, ht, Nat.le_sub_iff_add_le ht, Nat.add_comm]

theorem resend_eq (hsend : ∀ t ∈ state.lastSendTime, t ≤ now) (block : Option (List UInt8)) :
    resend now monitor state block =
      .ok (if ResendDue now monitor state then
        ⟨{ state with lastSendTime := some now }, block, some state.data⟩
      else ⟨state, block, none⟩) := by
  simp only [resend, isDue_false_eq hsend, Outcome.ok_bind, Outcome.pure_eq, decide_eq_true_eq]
  by_cases hdue : ResendDue now monitor state
  · rw [if_pos hdue]
    exact if_pos hdue
  · rw [if_neg hdue]
    exact if_neg hdue

theorem triggerMonitor_of_hasChanged (hidle : state.running = false)
    (hoffset : monitor.offset ≤ monitor.blockSize) (hread : ∀ t ∈ state.lastReadTime, t ≤ now)
    (h : HasChanged plc now monitor state) :
    ∃ turn bytes, triggerMonitor plc now monitor state = .ok turn ∧
      turn.message = some (hexEncode bytes) := by
  obtain ⟨hdue, data, hdata, hne⟩ := h
  rw [Option.mem_def] at hdata
  refine ⟨⟨{ state with
    data := hexEncode (plcBlock monitor data), lastReadTime := some now,
    lastSendTime := some now, running := false }, some (plcBlock monitor data),
    some (hexEncode (plcBlock monitor data))⟩, plcBlock monitor data, ?_, rfl⟩
  simp only [triggerMonitor, hidle, Bool.false_eq_true, if_false, isDue_true_eq hread,
    Outcome.ok_bind, hdata, fullBlock_eq_plcBlock hoffset, hne, ne_eq, not_false_eq_true, if_true,
    Outcome.pure_eq]
  exact if_pos (decide_eq_true hdue)

theorem triggerMonitor_of_not_hasChanged (hidle : state.running = false)
    (hoffset : monitor.offset ≤ monitor.blockSize) (hread : ∀ t ∈ state.lastReadTime, t ≤ now)
    (h : ¬ HasChanged plc now monitor state) :
    ∃ state' block, state'.data = state.data ∧ state'.lastSendTime = state.lastSendTime ∧
      triggerMonitor plc now monitor state = resend now monitor state' block := by
  simp only [triggerMonitor, hidle, Bool.false_eq_true, if_false, isDue_true_eq hread,
    Outcome.ok_bind, decide_eq_true_eq]
  by_cases hdue : ∀ t ∈ state.lastReadTime, t + monitor.frequency ≤ now
  · rw [if_pos hdue]
    cases hplc : plc (readOf monitor) with
    | none => exact ⟨{ state with running := false }, none, rfl, rfl, rfl⟩
    | some data =>
        have hsame : hexEncode (plcBlock monitor data) = state.data := by
          by_contra hne
          exact h ⟨hdue, data, hplc, hne⟩
        simp only [fullBlock_eq_plcBlock hoffset, Outcome.ok_bind, hsame, ne_eq,
          not_true_eq_false, if_false]
        exact ⟨{ state with lastReadTime := some now, running := false }, _, rfl, rfl, rfl⟩
  · rw [if_neg hdue]
    exact ⟨state, none, rfl, rfl, rfl⟩

/-- **The turns that go through**: those without data that has to be decoded. -/
theorem monitorTurn_through_iff {host : Host} {cache : MetaCache}
    (hoffset : monitor.offset ≤ monitor.blockSize) (hread : ∀ t ∈ state.lastReadTime, t ≤ now)
    (hsend : ∀ t ∈ state.lastSendTime, t ≤ now) :
    (∃ turn post, monitorTurn host cache plc now monitor state = .through turn post) ↔
      ¬ NeedsDecoding plc now monitor state := by
  obtain ⟨turn, hturn⟩ := triggerMonitor_of_le hoffset hread hsend plc
  have hthrough : (∃ turn post, monitorTurn host cache plc now monitor state =
      .through turn post) ↔ ∀ data ∈ turn.message, monitor.Decodes → hexDecode data = none := by
    rw [← @postOfTurn_task_ok_iff host cache, monitorTurn, hturn]
    dsimp only
    cases postOfTurn .task host cache monitor turn with
    | ok post => simp
    | err message => simp
    | panic => simp
  rw [hthrough]
  by_cases hidle : state.running = false
  · by_cases hchanged : HasChanged plc now monitor state
    · obtain ⟨turn', bytes, hturn', hmessage⟩ :=
        triggerMonitor_of_hasChanged hidle hoffset hread hchanged
      obtain rfl : turn = turn' := Outcome.ok.inj (hturn.symm.trans hturn')
      simp [hmessage, NeedsDecoding, hidle, hchanged, hexDecode_hexEncode]
    · obtain ⟨state', block, hdata, htime, hend⟩ :=
        triggerMonitor_of_not_hasChanged hidle hoffset hread hchanged
      have hresend : ResendDue now monitor state' ↔ ResendDue now monitor state := by
        rw [ResendDue, ResendDue, hdata, htime]
      rw [hturn, resend_eq (htime ▸ hsend) block, Outcome.ok.injEq] at hend
      subst hend
      by_cases hdue : ResendDue now monitor state
      · rw [if_pos (hresend.2 hdue)]
        simp [NeedsDecoding, hidle, hchanged, hdue, hdata]
      · rw [if_neg (hresend.not.2 hdue)]
        simp [NeedsDecoding, hidle, hchanged, hdue]
  · rw [triggerMonitor, if_pos (Bool.eq_true_of_not_eq_false hidle), Outcome.ok.injEq] at hturn
    subst hturn
    simp [NeedsDecoding, hidle]

/-- **What a turn leaves that panics**: the state as it was updated, for data that has to be
decoded. -/
theorem monitorTurn_eq_panic {host : Host} {cache : MetaCache}
    (hoffset : monitor.offset ≤ monitor.blockSize) (hread : ∀ t ∈ state.lastReadTime, t ≤ now)
    (hsend : ∀ t ∈ state.lastSendTime, t ≤ now) {state' : MonitorState}
    {block : Option (List UInt8)}
    (h : monitorTurn host cache plc now monitor state = .panic state' block) :
    NeedsDecoding plc now monitor state ∧
      ∃ turn, triggerMonitor plc now monitor state = .ok turn ∧ state' = turn.state ∧
        block = turn.block := by
  constructor
  · by_contra hnot
    obtain ⟨turn, post, hthrough⟩ := (monitorTurn_through_iff hoffset hread hsend).2 hnot
    rw [hthrough] at h
    cases h
  · obtain ⟨turn, hturn⟩ := triggerMonitor_of_le hoffset hread hsend plc
    refine ⟨turn, hturn, ?_⟩
    rw [monitorTurn, hturn] at h
    dsimp only at h
    split at h
    · cases h
    · cases h
      exact ⟨rfl, rfl⟩

end TurnOfMonitor

end MonitorProcessor

end FillingPilot
