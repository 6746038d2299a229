/-
**One trigger of a monitor.**

The monitor loop goes through the active monitors.  For each of them it takes the lock of the
states, reads the PLC when the last read is a `frequency` ago, sends the block when it differs from
the data kept under the monitor's id, and otherwise sends the kept data again when the last message
is a `resendInterval` ago.  The body of one turn of the loop is one lock section, since the lock is
held while the PLC is read.

Main definitions:

* `FillingPilot.MonitorProcessor.fullBlock` — the block of a read, with zeros before the offset;
* `FillingPilot.MonitorProcessor.triggerMonitor` — one turn of the loop;
* `FillingPilot.MonitorProcessor.buildMonitorMessage` — the message the data is sent as.

Main results:

* `FillingPilot.MonitorProcessor.triggerMonitor_cases` — **what a turn can do**;
* `FillingPilot.MonitorProcessor.triggerMonitor_of_le` — a turn goes through when the offset is in
  the block and the clock has not gone back;
* `FillingPilot.MonitorProcessor.reads_block_iff` — **the monitors whose block is that of the PLC**.
-/

import FillingPilot.Monitor
import FillingPilot.Outcome
import FillingPilot.RustStd

set_option relaxedAutoImplicit false
set_option autoImplicit false

namespace FillingPilot

open Json Rust

namespace MonitorProcessor

/-! ### The turn -/

/-- A read asked of a PLC: the start and the size are cut to 16 bits. -/
structure S7Read where
  ip : String
  port : UInt16
  dbNumber : UInt16
  start : UInt16
  size : UInt16
  deriving DecidableEq

/-- The read of a monitor: from its offset to the end of its block. -/
def readOf (monitor : Monitor) : S7Read where
  ip := monitor.ip
  port := monitor.port
  dbNumber := monitor.dbNumber
  start := UInt16.ofNat monitor.offset.toNat
  size := UInt16.ofNat (monitor.blockSize.toNat - monitor.offset.toNat)

/-- The state of a monitor that was not triggered yet. -/
def newState : MonitorState where
  lastReadTime := none
  lastSendTime := none
  data := ""
  running := false

/-- What is kept under an id: `or_default`. -/
def stateAt (states : States) (id : String) : MonitorState := (states.lookup id).getD newState

/-- `now - last`, on a clock that has not gone back. -/
def elapsed (now last : ℕ) : Outcome ℕ := if last ≤ now then .ok (now - last) else .panic

/-- The interval since `last` is over; `never` stands for a `last` that is not there. -/
def isDue (never : Bool) (now : ℕ) (last : Option ℕ) (interval : ℕ) : Outcome Bool :=
  match last with
  | none => .ok never
  | some last => do
      let passed ← elapsed now last
      return interval ≤ passed

/-- The block of a read: zeros, with the answer at the offset, as much of it as fits. -/
def fullBlock (monitor : Monitor) (data : List UInt8) : Outcome (List UInt8) :=
  let full := List.replicate monitor.blockSize.toNat 0
  let offset := monitor.offset.toNat
  let dataLen := min data.length (full.length - offset)
  copyFromSlice offset (offset + dataLen) (data.take dataLen) full

/-- What a turn leaves: the state, the block of a successful read, and the data of a message. -/
structure Turn where
  state : MonitorState
  block : Option (List UInt8)
  message : Option String
  deriving DecidableEq

/-- The end of a turn: the kept data is sent again when the interval is over. -/
def resend (now : ℕ) (monitor : Monitor) (state : MonitorState) (block : Option (List UInt8)) :
    Outcome Turn := do
  let shouldResend ← isDue false now state.lastSendTime monitor.resendInterval
  if shouldResend ∧ state.data ≠ "" then
    return ⟨{ state with lastSendTime := some now }, block, some state.data⟩
  else return ⟨state, block, none⟩

/-- One turn of the loop: `plc` answers the read, with `none` for an error.  A message goes to the
cloud and, when the monitor has one, to its local address. -/
def triggerMonitor (plc : S7Read → Option (List UInt8)) (now : ℕ) (monitor : Monitor)
    (state : MonitorState) : Outcome Turn :=
  if state.running then .ok ⟨state, none, none⟩
  else do
    let shouldRead ← isDue true now state.lastReadTime monitor.frequency
    if shouldRead then
      let state := { state with running := true }
      let oldData := state.data
      match plc (readOf monitor) with
      | some data =>
          let state := { state with lastReadTime := some now }
          let full ← fullBlock monitor data
          let newData := hexEncode full
          if newData ≠ oldData then
            return ⟨{ state with data := newData, lastSendTime := some now, running := false },
              some full, some newData⟩
          else resend now monitor { state with running := false } (some full)
      | none => resend now monitor { state with running := false } none
    else resend now monitor state none

/-- The message the data of a monitor is sent as. -/
def buildMonitorMessage (monitor : Monitor) (data : String) : Value :=
  .object [("id", .string monitor.id), ("merchantId", .string monitor.merchantId),
    ("ip", .string monitor.ip), ("port", .ofInt monitor.port.toNat),
    ("name", .string monitor.name), ("code", .string monitor.code),
    ("dbNumber", .ofInt monitor.dbNumber.toNat), ("offset", .ofInt monitor.offset.toNat),
    ("blockSize", .ofInt monitor.blockSize.toNat), ("type", .string monitor.monitorType),
    ("frequency", .ofInt monitor.frequency), ("resendInterval", .ofInt monitor.resendInterval),
    ("forwardAddress", .string monitor.forwardAddress),
    ("localAddress", .string monitor.localAddress), ("data", .string data)]

/-! ### What a turn can do -/

theorem isDue_eq_ok {never : Bool} {now interval : ℕ} {last : Option ℕ} {b : Bool}
    (h : isDue never now last interval = .ok b) :
    (last = none ∧ b = never) ∨ ∃ t, last = some t ∧ (b = true ↔ t + interval ≤ now) := by
  cases last with
  | none =>
      cases h
      exact Or.inl ⟨rfl, rfl⟩
  | some t =>
      refine Or.inr ⟨t, rfl, ?_⟩
      by_cases ht : t ≤ now
      · simp only [isDue, elapsed, if_pos ht, Outcome.ok_bind, Outcome.pure_eq,
          Outcome.ok.injEq] at h
        subst h
        simp only [decide_eq_true_eq]
        omega
      · simp [isDue, elapsed, ht] at h

theorem isDue_of_le {now : ℕ} {last : Option ℕ} (h : ∀ t ∈ last, t ≤ now) (never : Bool)
    (interval : ℕ) : ∃ b, isDue never now last interval = .ok b := by
  cases last with
  | none => exact ⟨never, rfl⟩
  | some t => exact ⟨decide (interval ≤ now - t), by simp [isDue, elapsed, h t rfl]⟩

/-- The end of a turn: nothing, or the kept data once more, after the interval. -/
inductive Ending (now : ℕ) (monitor : Monitor) (state : MonitorState)
    (block : Option (List UInt8)) : Turn → Prop
  | quiet : Ending now monitor state block ⟨state, block, none⟩
  | again (t : ℕ) (hlast : state.lastSendTime = some t) (hdue : t + monitor.resendInterval ≤ now)
      (hdata : state.data ≠ "") : Ending now monitor state block
        ⟨{ state with lastSendTime := some now }, block, some state.data⟩

/-- What a turn of an idle monitor can do: send a block that differs from the kept data, read the
kept data once more, or not read. -/
inductive TurnOf (now : ℕ) (monitor : Monitor) (state : MonitorState) : Turn → Prop
  | changed (full : List UInt8)
      (hdue : ∀ t ∈ state.lastReadTime, t + monitor.frequency ≤ now)
      (hdata : hexEncode full ≠ state.data) : TurnOf now monitor state
        ⟨{ state with data := hexEncode full, lastReadTime := some now, lastSendTime := some now },
          some full, some (hexEncode full)⟩
  | unchanged (full : List UInt8) (turn : Turn)
      (hdue : ∀ t ∈ state.lastReadTime, t + monitor.frequency ≤ now)
      (hdata : hexEncode full = state.data)
      (hend : Ending now monitor { state with lastReadTime := some now } (some full) turn) :
      TurnOf now monitor state turn
  | unread (turn : Turn) (hend : Ending now monitor state none turn) :
      TurnOf now monitor state turn

theorem resend_cases {now : ℕ} {monitor : Monitor} {state : MonitorState}
    {block : Option (List UInt8)} {turn : Turn} (h : resend now monitor state block = .ok turn) :
    Ending now monitor state block turn := by
  unfold resend at h
  cases hdue : isDue false now state.lastSendTime monitor.resendInterval with
  | err message => rw [hdue] at h; cases h
  | panic => rw [hdue] at h; cases h
  | ok b =>
      rw [hdue, Outcome.ok_bind] at h
      split_ifs at h with hb
      · cases h
        rcases isDue_eq_ok hdue with ⟨-, rfl⟩ | ⟨t, hlast, hiff⟩
        · exact absurd hb.1 (by decide)
        · exact Ending.again t hlast (hiff.1 hb.1) hb.2
      · cases h
        exact Ending.quiet

/-- **What a turn can do.** -/
theorem triggerMonitor_cases {plc : S7Read → Option (List UInt8)} {now : ℕ} {monitor : Monitor}
    {state : MonitorState} {turn : Turn} (hidle : state.running = false)
    (h : triggerMonitor plc now monitor state = .ok turn) : TurnOf now monitor state turn := by
  obtain ⟨lastReadTime, lastSendTime, data, running⟩ := state
  subst hidle
  simp only [triggerMonitor, Bool.false_eq_true, if_false] at h
  cases hread : isDue true now lastReadTime monitor.frequency with
  | err message => rw [hread] at h; cases h
  | panic => rw [hread] at h; cases h
  | ok b =>
      rw [hread, Outcome.ok_bind] at h
      split_ifs at h with hb
      · have hdue : ∀ t ∈ lastReadTime, t + monitor.frequency ≤ now := by
          rintro t rfl
          rcases isDue_eq_ok hread with ⟨hnone, -⟩ | ⟨t', hlast, hiff⟩
          · cases hnone
          · cases hlast
            exact hiff.1 hb
        split at h
        · rename_i answer _
          cases hfull : fullBlock monitor answer with
          | err message => rw [hfull] at h; cases h
          | panic => rw [hfull] at h; cases h
          | ok full =>
              rw [hfull, Outcome.ok_bind] at h
              split_ifs at h with hdata
              · cases h
                exact TurnOf.changed full hdue hdata
              · exact TurnOf.unchanged full turn hdue (not_not.1 hdata) (resend_cases h)
        · exact TurnOf.unread turn (resend_cases h)
      · exact TurnOf.unread turn (resend_cases h)

/-! ### Panics -/

theorem fullBlock_of_le {monitor : Monitor} (h : monitor.offset ≤ monitor.blockSize)
    (data : List UInt8) : ∃ full, fullBlock monitor data = .ok full := by
  have hle : monitor.offset.toNat ≤ monitor.blockSize.toNat := h
  refine ⟨_, if_pos ⟨Nat.le_add_right _ _, ?_, ?_⟩⟩
  · simp only [List.length_replicate]
    omega
  · simp only [List.length_take, List.length_replicate]
    omega

theorem resend_of_le {now : ℕ} {state : MonitorState} (h : ∀ t ∈ state.lastSendTime, t ≤ now)
    (monitor : Monitor) (block : Option (List UInt8)) :
    ∃ turn, resend now monitor state block = .ok turn := by
  obtain ⟨b, hb⟩ := isDue_of_le h false monitor.resendInterval
  simp only [resend, hb, Outcome.ok_bind]
  split_ifs
  · exact ⟨_, rfl⟩
  · exact ⟨_, rfl⟩

theorem triggerMonitor_of_le {monitor : Monitor} (hoffset : monitor.offset ≤ monitor.blockSize)
    {now : ℕ} {state : MonitorState} (hread : ∀ t ∈ state.lastReadTime, t ≤ now)
    (hsend : ∀ t ∈ state.lastSendTime, t ≤ now) (plc : S7Read → Option (List UInt8)) :
    ∃ turn, triggerMonitor plc now monitor state = .ok turn := by
  unfold triggerMonitor
  split_ifs
  · exact ⟨_, rfl⟩
  · obtain ⟨b, hb⟩ := isDue_of_le hread true monitor.frequency
    simp only [hb, Outcome.ok_bind]
    split_ifs
    · split
      · rename_i answer _
        obtain ⟨full, hfull⟩ := fullBlock_of_le hoffset answer
        simp only [hfull, Outcome.ok_bind]
        split_ifs
        · exact ⟨_, rfl⟩
        · refine resend_of_le ?_ monitor _
          exact hsend
      · refine resend_of_le ?_ monitor _
        exact hsend
    · exact resend_of_le hsend monitor _

/-! ### The block of the PLC -/

/-- The positions of the bytes a read asks for. -/
def S7Read.positions (read : S7Read) : List ℕ := List.range' read.start.toNat read.size.toNat

/-- The positions from the offset of a monitor to the end of its block; there is none when the
offset is not in the block. -/
def blockPositions (monitor : Monitor) : List ℕ :=
  List.range' monitor.offset.toNat (monitor.blockSize.toNat - monitor.offset.toNat)

/-- The block an answer stands for: zeros before the offset, the answer as far as it lies in the
block, and zeros. -/
def plcBlock (monitor : Monitor) (data : List UInt8) : List UInt8 :=
  let room := monitor.blockSize.toNat - monitor.offset.toNat
  List.replicate monitor.offset.toNat 0 ++ data.take room ++
    List.replicate (room - data.length) 0

theorem length_plcBlock {monitor : Monitor} (h : monitor.offset ≤ monitor.blockSize)
    (data : List UInt8) : (plcBlock monitor data).length = monitor.blockSize.toNat := by
  have hle : monitor.offset.toNat ≤ monitor.blockSize.toNat := h
  simp only [plcBlock, List.length_append, List.length_replicate, List.length_take]
  omega

/-- The block of a read is the one its answer stands for, as long as the offset is in it. -/
theorem fullBlock_eq_plcBlock {monitor : Monitor} (h : monitor.offset ≤ monitor.blockSize)
    (data : List UInt8) : fullBlock monitor data = .ok (plcBlock monitor data) := by
  have hle : monitor.offset.toNat ≤ monitor.blockSize.toNat := h
  obtain ⟨full, hfull⟩ := fullBlock_of_le h data
  rw [hfull, Outcome.ok.injEq]
  simp only [fullBlock, copyFromSlice] at hfull
  split_ifs at hfull
  cases hfull
  simp only [List.splice, plcBlock, List.length_replicate, List.take_replicate,
    List.drop_replicate, List.length_take]
  have htake : data.take (min data.length (monitor.blockSize.toNat - monitor.offset.toNat)) =
      data.take (monitor.blockSize.toNat - monitor.offset.toNat) := by
    rw [Nat.min_comm, ← List.take_take, List.take_length]
  rw [htake, Nat.min_eq_left hle]
  congr 2
  omega

theorem fullBlock_of_lt {monitor : Monitor} (h : monitor.blockSize < monitor.offset)
    (data : List UInt8) : fullBlock monitor data = .panic := by
  have hlt : monitor.blockSize.toNat < monitor.offset.toNat := h
  refine if_neg fun hbounds => ?_
  have hend := hbounds.2.1
  rw [List.length_replicate] at hend
  omega

/-- The turn of an idle monitor whose read is due panics when the block of the answer cannot be
made. -/
theorem triggerMonitor_panic {plc : S7Read → Option (List UInt8)} {now : ℕ} {monitor : Monitor}
    {state : MonitorState} {data : List UInt8} (hidle : state.running = false)
    (hdue : isDue true now state.lastReadTime monitor.frequency = .ok true)
    (hplc : plc (readOf monitor) = some data) (hfull : fullBlock monitor data = .panic) :
    triggerMonitor plc now monitor state = .panic := by
  simp only [triggerMonitor, hidle, hdue, hplc, hfull, Bool.false_eq_true, if_false, if_true,
    Outcome.ok_bind, Outcome.panic_bind]

/-- The monitor asks for exactly the bytes of its block, and the block of the answer can be made,
has the size of the block, and is the one the answer stands for. -/
def ReadsBlock (monitor : Monitor) (data : List UInt8) : Prop :=
  (readOf monitor).positions = blockPositions monitor ∧
    fullBlock monitor data = .ok (plcBlock monitor data) ∧
      (plcBlock monitor data).length = monitor.blockSize.toNat

/-- The numbers of a read are cut to 16 bits, which changes the bytes asked for unless both fit or
there is none. -/
theorem positions_readOf_iff (monitor : Monitor) :
    (readOf monitor).positions = blockPositions monitor ↔
      monitor.blockSize.toNat ≤ monitor.offset.toNat ∨
        (monitor.offset.toNat < 2 ^ 16 ∧
          monitor.blockSize.toNat - monitor.offset.toNat < 2 ^ 16) := by
  simp only [S7Read.positions, blockPositions, readOf, List.range'_inj, UInt16.toNat_ofNat']
  omega

/-- **The monitors whose block is that of the PLC**, whatever it answers: the offset is the end of
the block, or it lies in the block and, like the bytes after it, fits 16 bits. -/
theorem reads_block_iff (monitor : Monitor) (data : List UInt8) :
    ReadsBlock monitor data ↔
      monitor.offset = monitor.blockSize ∨
        (monitor.offset < monitor.blockSize ∧ monitor.offset.toNat < 2 ^ 16 ∧
          monitor.blockSize.toNat - monitor.offset.toNat < 2 ^ 16) := by
  rw [ReadsBlock, positions_readOf_iff, ← UInt32.toNat_inj, UInt32.lt_iff_toNat_lt]
  constructor
  · rintro ⟨hread, hfull, -⟩
    have hle : monitor.offset.toNat ≤ monitor.blockSize.toNat := by
      by_contra hgt
      rw [fullBlock_of_lt (UInt32.lt_iff_toNat_lt.2 (not_le.1 hgt))] at hfull
      cases hfull
    omega
  · intro h
    have hle : monitor.offset ≤ monitor.blockSize := by
      rw [UInt32.le_iff_toNat_le]
      omega
    exact ⟨by omega, fullBlock_eq_plcBlock hle data, length_plcBlock hle data⟩

/-- A PLC with one monitor, of which only the id and the place of its block are configured. -/
def plcWith (offset blockSize : ℤ) : Value :=
  .object [("ipAddress", .string "10.0.0.1"), ("portNumber", .ofInt 102),
    ("monitorList", .array [.object [("id", .string "M1"), ("offset", .ofInt offset),
      ("blockSize", .ofInt blockSize)]])]

/-- The monitor of such a PLC. -/
def monitorWith (offset blockSize : UInt32) : Monitor where
  id := "M1"
  merchantId := ""
  ip := "10.0.0.1"
  port := 102
  name := ""
  code := ""
  dbNumber := 0
  offset := offset
  blockSize := blockSize
  monitorType := ""
  frequency := 50
  resendInterval := 1000
  forwardAddress := ""
  localAddress := ""

/-- The monitor of the bytes 65536 to 65539 asks for the bytes 0 to 3, and the one of a block that
ends before its offset panics. -/
theorem reads_block_fails :
    Monitor.parseFromPlcInfo [plcWith 65536 65540, plcWith 4 2] =
        [monitorWith 65536 65540, monitorWith 4 2] ∧
      (readOf (monitorWith 65536 65540)).positions = [0, 1, 2, 3] ∧
      ¬ ReadsBlock (monitorWith 65536 65540) [1, 2, 3, 4] ∧
      triggerMonitor (fun _ => some []) 0 (monitorWith 4 2) newState = .panic ∧
      ¬ ReadsBlock (monitorWith 4 2) [] := by
  have hpanic : fullBlock (monitorWith 4 2) [] = .panic := fullBlock_of_lt (by decide) []
  refine ⟨rfl, rfl, fun h => ?_, triggerMonitor_panic rfl rfl rfl hpanic, fun h => ?_⟩
  · exact absurd ((positions_readOf_iff _).1 h.1) (by decide)
  · exact absurd (hpanic.symm.trans h.2.1) (by decide)

end MonitorProcessor

end FillingPilot
