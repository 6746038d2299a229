/-
**What a deployment writes.**

A deployment names a content, a data block and a window of the block: the encoded content is cut to
the window and written to the PLC of a filling station or of the monitor that called back.  The
bounds of the window are not compared with the block before the cut, and the number of the block and
the offset are cut to 16 bits when they are handed to the PLC.

Main definitions:

* `FillingPilot.deploy` — a deployment: the writes it makes, and how it ends;
* `FillingPilot.writeEnd` — where the window ends;
* `FillingPilot.WritesWindow` — no write and an error, or the one write of the window;
* `FillingPilot.WindowFits` — the window is in the block, and the numbers have 16 bits.

Main results:

* `FillingPilot.cutWindow_eq` — what the cut comes to;
* `FillingPilot.deploy_writesWindow_iff` — **the exact condition** under which a deployment writes
  its window or nothing;
* `FillingPilot.deploy_writes_elsewhere` — a deployment to data block 65537 that writes to data
  block 1.
-/

import FillingPilot.Deploy

set_option relaxedAutoImplicit false
set_option autoImplicit false

namespace FillingPilot

open Json Rust

/-! ### Writes -/

/-- A write to a PLC. -/
structure PlcWrite where
  ip : String
  port : UInt16
  dbNumber : UInt16
  start : UInt16
  data : List UInt8
  deriving DecidableEq

/-- What becomes of a write: the connection fails and nothing is written, the write fails, or it is
done. -/
inductive WriteAnswer
  | unreachable (message : String)
  | failed (message : String)
  | written

/-- `S7Manager::write_bytes`: the writes that are made, and the result. -/
def S7Manager.writeBytes (answer : WriteAnswer) (write : PlcWrite) : List PlcWrite × Outcome Unit :=
  match answer with
  | .unreachable message => ([], .err message)
  | .failed message => ([write], .err ("Write failed: " ++ message))
  | .written => ([write], .ok ())

/-! ### Deployments -/

/-- A deployment.  The numbers are `usize`s; its own address is not used. -/
structure Deployment where
  fillStationId : Option String
  dbNumber : ℕ
  offset : ℕ
  /-- 0 stands for everything from the offset on. -/
  length : ℕ
  contentType : String
  content : Value

/-- The PLC of a deployment: of its station, or else of the monitor. -/
def resolvePlc (fillStations : AList fun _ : String => String × UInt16)
    (monitorIp : Option String) (monitorPort : Option UInt16) (d : Deployment) :
    Except String (String × UInt16) :=
  match d.fillStationId with
  | some fsId =>
      match fillStations.lookup fsId with
      | some address => .ok address
      | none => .error ("FillStation " ++ fsId ++ " not found")
  | none =>
      match monitorIp, monitorPort with
      | some ip, some port => .ok (ip, port)
      | _, _ => .error "Cannot resolve PLC IP/port for deploy"

/-- `a + b` on `usize`, which panics beyond 64 bits. -/
def addUsize (a b : ℕ) : Outcome ℕ := if a + b < 2 ^ 64 then .ok (a + b) else .panic

/-- The part of the block that is written. -/
def cutWindow (d : Deployment) (encoded : List UInt8) : Outcome (List UInt8) := do
  let stop ←
    if 0 < d.length then do
      let sum ← addUsize d.offset d.length
      Outcome.ok (min sum encoded.length)
    else Outcome.ok encoded.length
  slice d.offset stop encoded

section Deploy

variable (host : Host) (cache : MetaCache) (fillStations : AList fun _ : String => String × UInt16)
  (monitorIp : Option String) (monitorPort : Option UInt16)

/-- `deploy`: the writes that are made, and the result. -/
def deploy (answer : WriteAnswer) (d : Deployment) : List PlcWrite × Outcome Unit :=
  match resolvePlc fillStations monitorIp monitorPort d with
  | .error message => ([], .err message)
  | .ok (ip, port) =>
      let toWrite := do
        let encoded ← encode host d.content d.contentType cache
        cutWindow d encoded
      match toWrite with
      | .err message => ([], .err message)
      | .panic => ([], .panic)
      | .ok data =>
          let (writes, result) := S7Manager.writeBytes answer
            { ip, port, data
              dbNumber := UInt16.ofNat d.dbNumber
              start := UInt16.ofNat d.offset }
          match result with
          | .err message => (writes, .err ("S7 write failed: " ++ message))
          | other => (writes, other)

/-! ### Windows -/

/-- Where the window ends in a block of `size` bytes. -/
def writeEnd (d : Deployment) (size : ℕ) : ℕ :=
  if 0 < d.length then min (d.offset + d.length) size else size

/-- The write goes to the numbers of the deployment, and has the bytes of its window. -/
structure WritesTo (d : Deployment) (address : String × UInt16) (encoded : List UInt8)
    (write : PlcWrite) : Prop where
  ip : write.ip = address.1
  port : write.port = address.2
  dbNumber : write.dbNumber.toNat = d.dbNumber
  start : write.start.toNat = d.offset
  data : write.data = encoded.slice d.offset (writeEnd d encoded.length - d.offset)

/-- The deployment does not panic, and makes no write and an error, or the one write of its
window. -/
def WritesWindow (d : Deployment) (made : List PlcWrite × Outcome Unit) : Prop :=
  made.2 ≠ .panic ∧
    ((made.1 = [] ∧ ∃ message, made.2 = .err message) ∨
      ∃ address encoded write, resolvePlc fillStations monitorIp monitorPort d = .ok address ∧
        encode host d.content d.contentType cache = .ok encoded ∧ made.1 = [write] ∧
          WritesTo d address encoded write)

/-- The window begins in the block, its end is a `usize`, and the numbers have 16 bits. -/
structure WindowFits (d : Deployment) (size : ℕ) : Prop where
  offset : d.offset ≤ size
  stop : 0 < d.length → d.offset + d.length < 2 ^ 64
  dbNumber16 : d.dbNumber < 2 ^ 16
  offset16 : d.offset < 2 ^ 16

/-- **What the cut comes to**: the window, or a panic when it begins after the block or its end is
no `usize`. -/
theorem cutWindow_eq (d : Deployment) (encoded : List UInt8) :
    cutWindow d encoded =
      if d.offset ≤ encoded.length ∧ (0 < d.length → d.offset + d.length < 2 ^ 64) then
        .ok (encoded.slice d.offset (writeEnd d encoded.length - d.offset))
      else .panic := by
  unfold cutWindow addUsize slice writeEnd
  -- the end is in the block in any case, so that the slice fails by its start alone
  by_cases hlength : 0 < d.length
  · by_cases hsum : d.offset + d.length < 2 ^ 64
    · simp only [hlength, hsum, if_true, Outcome.ok_bind, and_true, imp_self]
      by_cases hoffset : d.offset ≤ encoded.length
      · rw [if_pos (by omega), if_pos hoffset]
      · rw [if_neg (by omega), if_neg hoffset]
    · simp only [hlength, hsum, if_true, if_false, Outcome.panic_bind, forall_const, and_false]
  · simp only [hlength, if_false, Outcome.ok_bind, false_imp_iff, and_true, le_refl]

variable {host cache fillStations monitorIp monitorPort}

/-- A write is the one of the window when the numbers of the deployment have 16 bits. -/
theorem writesTo_of_fits {d : Deployment} {size : ℕ} (h : WindowFits d size)
    (address : String × UInt16) (encoded : List UInt8) :
    WritesTo d address encoded
      { ip := address.1
        port := address.2
        dbNumber := UInt16.ofNat d.dbNumber
        start := UInt16.ofNat d.offset
        data := encoded.slice d.offset (writeEnd d encoded.length - d.offset) } where
  ip := rfl
  port := rfl
  dbNumber := by rw [UInt16.toNat_ofNat', Nat.mod_eq_of_lt h.dbNumber16]
  start := by rw [UInt16.toNat_ofNat', Nat.mod_eq_of_lt h.offset16]
  data := rfl

theorem deploy_of_ok {d : Deployment} {address : String × UInt16} {encoded : List UInt8}
    (haddress : resolvePlc fillStations monitorIp monitorPort d = .ok address)
    (hencode : encode host d.content d.contentType cache = .ok encoded) (answer : WriteAnswer) :
    deploy host cache fillStations monitorIp monitorPort answer d =
      match cutWindow d encoded with
      | .err message => ([], .err message)
      | .panic => ([], .panic)
      | .ok data =>
          let (writes, result) := S7Manager.writeBytes answer
            { ip := address.1
              port := address.2
              data
              dbNumber := UInt16.ofNat d.dbNumber
              start := UInt16.ofNat d.offset }
          match result with
          | .err message => (writes, .err ("S7 write failed: " ++ message))
          | other => (writes, other) := by
  simp only [deploy, haddress, hencode, Outcome.ok_bind]

theorem writesWindow_of_fits {d : Deployment} {address : String × UInt16} {encoded : List UInt8}
    (haddress : resolvePlc fillStations monitorIp monitorPort d = .ok address)
    (hencode : encode host d.content d.contentType cache = .ok encoded)
    (hfits : WindowFits d encoded.length) (answer : WriteAnswer) :
    WritesWindow host cache fillStations monitorIp monitorPort d
      (deploy host cache fillStations monitorIp monitorPort answer d) := by
  have hwrite := writesTo_of_fits hfits address encoded
  rw [deploy_of_ok haddress hencode, cutWindow_eq, if_pos ⟨hfits.offset, hfits.stop⟩]
  cases answer with
  | unreachable message => exact ⟨by simp [S7Manager.writeBytes], Or.inl ⟨rfl, _, rfl⟩⟩
  | failed message =>
      exact ⟨by simp [S7Manager.writeBytes],
        Or.inr ⟨address, encoded, _, haddress, hencode, rfl, hwrite⟩⟩
  | written =>
      exact ⟨by simp [S7Manager.writeBytes],
        Or.inr ⟨address, encoded, _, haddress, hencode, rfl, hwrite⟩⟩

theorem fits_of_writesWindow {d : Deployment} {address : String × UInt16} {encoded : List UInt8}
    (haddress : resolvePlc fillStations monitorIp monitorPort d = .ok address)
    (hencode : encode host d.content d.contentType cache = .ok encoded)
    (h : WritesWindow host cache fillStations monitorIp monitorPort d
      (deploy host cache fillStations monitorIp monitorPort .written d)) :
    WindowFits d encoded.length := by
  rw [deploy_of_ok haddress hencode, cutWindow_eq] at h
  split_ifs at h with hcut
  · obtain ⟨-, ⟨hnone, -⟩ | ⟨_, _, write, -, -, hone, hwrite⟩⟩ := h
    · cases hnone
    · obtain rfl := (List.cons.inj hone).1
      refine ⟨hcut.1, hcut.2, ?_, ?_⟩
      · rw [← hwrite.dbNumber]
        exact UInt16.toNat_lt _
      · rw [← hwrite.start]
        exact UInt16.toNat_lt _
  · exact absurd rfl h.1

/-- **The exact condition**: a deployment whose content is encoded without a panic writes its window
or nothing, whatever the PLC answers, exactly when it has no PLC, its content no block, or its
window fits. -/
theorem deploy_writesWindow_iff {d : Deployment}
    (hencode : encode host d.content d.contentType cache ≠ .panic) :
    (∀ answer, WritesWindow host cache fillStations monitorIp monitorPort d
        (deploy host cache fillStations monitorIp monitorPort answer d)) ↔
      ∀ address encoded, resolvePlc fillStations monitorIp monitorPort d = .ok address →
        encode host d.content d.contentType cache = .ok encoded → WindowFits d encoded.length := by
  constructor
  · intro h address encoded haddress hok
    exact fits_of_writesWindow haddress hok (h .written)
  · intro h answer
    cases haddress : resolvePlc fillStations monitorIp monitorPort d with
    | error message =>
        have hmade : deploy host cache fillStations monitorIp monitorPort answer d =
            ([], .err message) := by simp only [deploy, haddress]
        exact hmade ▸ ⟨by simp, Or.inl ⟨rfl, message, rfl⟩⟩
    | ok address =>
        cases hok : encode host d.content d.contentType cache with
        | ok encoded => exact writesWindow_of_fits haddress hok (h address encoded haddress hok) answer
        | err message =>
            have hmade : deploy host cache fillStations monitorIp monitorPort answer d =
                ([], .err message) := by simp only [deploy, haddress, hok, Outcome.err_bind]
            exact hmade ▸ ⟨by simp, Or.inl ⟨rfl, message, rfl⟩⟩
        | panic => exact absurd hok hencode

end Deploy

/-- A block of two zeros. -/
def twoZeros : MetaCache := AList.singleton "Zeros" ⟨"Zeros", 2, []⟩

/-- A deployment of two zeros to a data block beyond 16 bits. -/
def farDeployment : Deployment where
  fillStationId := none
  dbNumber := 65537
  offset := 0
  length := 0
  contentType := "Zeros"
  content := .object []

theorem deploy_writesWindow_iff_far :
    ¬ ∀ answer, WritesWindow bareHost twoZeros ∅ (some "10.0.0.1") (some 102) farDeployment
        (deploy bareHost twoZeros ∅ (some "10.0.0.1") (some 102) answer farDeployment) := by
  have hencode : encode bareHost farDeployment.content farDeployment.contentType twoZeros =
      .ok [0, 0] := rfl
  rw [deploy_writesWindow_iff (by rw [hencode]; simp)]
  intro h
  exact absurd (h ("10.0.0.1", 102) [0, 0] rfl hencode).dbNumber16 (by decide)

/-- **A deployment to data block 65537 writes to data block 1.** -/
theorem deploy_writes_elsewhere :
    deploy bareHost twoZeros ∅ (some "10.0.0.1") (some 102) .written farDeployment =
        ([⟨"10.0.0.1", 102, 1, 0, [0, 0]⟩], .ok ()) ∧
      ¬ WritesWindow bareHost twoZeros ∅ (some "10.0.0.1") (some 102) farDeployment
        (deploy bareHost twoZeros ∅ (some "10.0.0.1") (some 102) .written farDeployment) := by
  refine ⟨rfl, fun h => ?_⟩
  have haddress : resolvePlc ∅ (some "10.0.0.1") (some 102) farDeployment =
      .ok ("10.0.0.1", 102) := rfl
  have hencode : encode bareHost farDeployment.content farDeployment.contentType twoZeros =
      .ok [0, 0] := rfl
  have hfits := fits_of_writesWindow haddress hencode h
  exact absurd hfits.dbNumber16 (by decide)

end FillingPilot
