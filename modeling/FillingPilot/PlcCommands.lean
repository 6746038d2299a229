/-
The `read` and `write` commands, and how they are answered.

A command names a place in a PLC; the session reads or writes there and sends one response with the
outcome.  The same protocol is written a second time, in processors that take a request and give a
response.  The two differ in one case: content that is no hexadecimal text is answered by the
processor, and only logged by the session.

The readers of JSON texts, the PLC, the signature and the texts of `hex` errors are parameters.  A
message is kept as the JSON value whose text it is.

Main definitions:

* `FillingPilot.ReadRequest`, `FillingPilot.WriteRequest`, `FillingPilot.ReadResponse`,
  `FillingPilot.WriteResponse`, `FillingPilot.PlcResponse` — what is received and sent;
* `FillingPilot.ReadProcessor.handle`, `FillingPilot.WriteProcessor.handle` — the processors;
* `FillingPilot.CloudSession.handlePlcCommand` — the session;
* `FillingPilot.Answered` — a command is answered once, and correctly.

Main results:

* `FillingPilot.handleRead_answered`, `FillingPilot.handleWrite_answered_iff` — one command of each
  type;
* `FillingPilot.answered_iff` — **the exact condition**.
-/

import FillingPilot.CommandText
import FillingPilot.RustStd

set_option relaxedAutoImplicit false
set_option autoImplicit false

namespace FillingPilot

open Json Rust

/-! ### Requests and responses -/

/-- A request to read. -/
structure ReadRequest where
  requestId : Option String
  plcId : String
  ip : String
  port : UInt16
  dbIndex : UInt16
  offset : UInt16
  size : UInt16

/-- A request to write. -/
structure WriteRequest where
  requestId : Option String
  plcId : String
  ip : String
  port : UInt16
  dbIndex : UInt16
  offset : UInt16
  hexContent : String

/-- The outcome of a read. -/
structure ReadResponse where
  requestId : Option String
  plcId : String
  ip : String
  port : UInt16
  dbIndex : UInt16
  offset : UInt16
  success : Bool
  message : String
  hexContent : Option String

/-- The outcome of a write. -/
structure WriteResponse where
  requestId : Option String
  plcId : String
  ip : String
  port : UInt16
  dbIndex : UInt16
  offset : UInt16
  success : Bool
  message : String

/-- A text, or `null`. -/
def optionText : Option String → Value
  | some s => .string s
  | none => .null

/-- A number of 16 bits. -/
def ofUInt16 (n : UInt16) : Value := .ofInt n.toNat

/-- The response as JSON. -/
def ReadResponse.toJson (r : ReadResponse) : Value :=
  .object [("requestId", optionText r.requestId), ("plcId", .string r.plcId), ("ip", .string r.ip),
    ("port", ofUInt16 r.port), ("dbIndex", ofUInt16 r.dbIndex), ("offset", ofUInt16 r.offset),
    ("success", .bool r.success), ("message", .string r.message),
    ("hexContent", optionText r.hexContent)]

/-- The response as JSON. -/
def WriteResponse.toJson (r : WriteResponse) : Value :=
  .object [("requestId", optionText r.requestId), ("plcId", .string r.plcId), ("ip", .string r.ip),
    ("port", ofUInt16 r.port), ("dbIndex", ofUInt16 r.dbIndex), ("offset", ofUInt16 r.offset),
    ("success", .bool r.success), ("message", .string r.message)]

/-- A message to the server. -/
structure PlcResponse where
  id : String
  plcId : String
  type : String
  randomNumber : ℤ
  sign : String
  message : Value

/-- An operation on a PLC. -/
inductive PlcCall
  | read (ip : String) (port dbIndex offset size : UInt16)
  | write (ip : String) (port dbIndex offset : UInt16) (data : List UInt8)

/-- What the operations on the PLCs come to: data or success, or the text of an error. -/
structure Plc where
  readBytes : String → UInt16 → UInt16 → UInt16 → UInt16 → Except String (List UInt8)
  writeBytes : String → UInt16 → UInt16 → UInt16 → List UInt8 → Except String Unit

/-! ### The processors -/

/-- `ReadProcessor::handle`. -/
def ReadProcessor.handle (plc : Plc) (request : ReadRequest) : ReadResponse :=
  let response : ReadResponse := {
    requestId := request.requestId
    plcId := request.plcId
    ip := request.ip
    port := request.port
    dbIndex := request.dbIndex
    offset := request.offset
    success := false
    message := ""
    hexContent := none }
  match plc.readBytes request.ip request.port request.dbIndex request.offset request.size with
  | .ok data =>
      { response with success := true, message := "OK", hexContent := some (hexEncode data) }
  | .error e => { response with message := e }

/-- `WriteProcessor::handle`. -/
def WriteProcessor.handle (hexError : String → String) (plc : Plc) (request : WriteRequest) :
    WriteResponse :=
  let response : WriteResponse := {
    requestId := request.requestId
    plcId := request.plcId
    ip := request.ip
    port := request.port
    dbIndex := request.dbIndex
    offset := request.offset
    success := false
    message := "" }
  match hexDecode request.hexContent with
  | none => { response with message := "Invalid hex: " ++ hexError request.hexContent }
  | some data =>
      match plc.writeBytes request.ip request.port request.dbIndex request.offset data with
      | .ok () => { response with success := true, message := "OK" }
      | .error e => { response with message := e }

/-! ### The session -/

/-- What the commands use of a session, and of the code around it. -/
structure CloudSession where
  id : String
  randomNumber : ℤ
  sign : ℤ → String
  plc : Plc
  /-- `serde_json::from_str` for a request, or the text of the error. -/
  fromStrRead : String → Except String ReadRequest
  fromStrWrite : String → Except String WriteRequest
  /-- The text of the error of `hex::decode`. -/
  hexError : String → String

/-- What a command leads to: operations on PLCs, messages to the server, lines of the log. -/
structure Effects where
  calls : List PlcCall
  responses : List PlcResponse
  log : List LogLine

namespace CloudSession

variable (session : CloudSession)

/-- `send_plc_response`, with a client. -/
def sendPlcResponse (plcId type : String) (message : Value) : PlcResponse where
  id := session.id
  plcId := plcId
  type := type
  randomNumber := session.randomNumber
  sign := session.sign session.randomNumber
  message := message

/-- The `read` command. -/
def handleRead (detail : String) : Effects :=
  let received : LogLine := ("READ", "detail_len=" ++ toString (byteLen detail))
  match session.fromStrRead detail with
  | .error e => ⟨[], [], [received, ("READ", "Failed to parse read request: " ++ e)]⟩
  | .ok readReq =>
      let calls : List PlcCall :=
        [.read readReq.ip readReq.port readReq.dbIndex readReq.offset readReq.size]
      match session.plc.readBytes readReq.ip readReq.port readReq.dbIndex readReq.offset
          readReq.size with
      | .ok data =>
          let resp : ReadResponse := {
            requestId := readReq.requestId
            plcId := readReq.plcId
            ip := readReq.ip
            port := readReq.port
            dbIndex := readReq.dbIndex
            offset := readReq.offset
            success := true
            message := "OK"
            hexContent := some (hexEncode data) }
          ⟨calls, [session.sendPlcResponse readReq.plcId "read" resp.toJson], [received]⟩
      | .error e =>
          let resp : ReadResponse := {
            requestId := readReq.requestId
            plcId := readReq.plcId
            ip := readReq.ip
            port := readReq.port
            dbIndex := readReq.dbIndex
            offset := readReq.offset
            success := false
            message := e
            hexContent := none }
          ⟨calls, [session.sendPlcResponse readReq.plcId "read" resp.toJson], [received]⟩

/-- The `write` command. -/
def handleWrite (detail : String) : Effects :=
  let received : LogLine := ("WRITE", "detail_len=" ++ toString (byteLen detail))
  match session.fromStrWrite detail with
  | .error e => ⟨[], [], [received, ("WRITE", "Failed to parse write request: " ++ e)]⟩
  | .ok writeReq =>
      match hexDecode writeReq.hexContent with
      | none =>
          -- no response is sent here
          ⟨[], [], [received,
            ("WRITE", "Invalid hex content: " ++ session.hexError writeReq.hexContent)]⟩
      | some data =>
          let calls : List PlcCall :=
            [.write writeReq.ip writeReq.port writeReq.dbIndex writeReq.offset data]
          match session.plc.writeBytes writeReq.ip writeReq.port writeReq.dbIndex writeReq.offset
              data with
          | .ok () =>
              let resp : WriteResponse := {
                requestId := writeReq.requestId
                plcId := writeReq.plcId
                ip := writeReq.ip
                port := writeReq.port
                dbIndex := writeReq.dbIndex
                offset := writeReq.offset
                success := true
                message := "OK" }
              ⟨calls, [session.sendPlcResponse writeReq.plcId "write" resp.toJson], [received]⟩
          | .error e =>
              let resp : WriteResponse := {
                requestId := writeReq.requestId
                plcId := writeReq.plcId
                ip := writeReq.ip
                port := writeReq.port
                dbIndex := writeReq.dbIndex
                offset := writeReq.offset
                success := false
                message := e }
              ⟨calls, [session.sendPlcResponse writeReq.plcId "write" resp.toJson], [received]⟩

/-- The two commands in the handler. -/
def handlePlcCommand (cmd : ServerCommand) : Effects :=
  match cmd.type with
  | "read" => session.handleRead cmd.detail
  | "write" => session.handleWrite cmd.detail
  | _ => ⟨[], [], []⟩

end CloudSession

/-! ### Answers -/

/-- A read is answered once: by a response of the type `read` for the PLC, which repeats the
request, has success exactly when the PLC was read and gave data, and has the text of the error
otherwise. It is the response of the processor. -/
structure AnsweredRead (session : CloudSession) (request : ReadRequest) (resp : ReadResponse)
    (effects : Effects) : Prop where
  once : effects.responses = [session.sendPlcResponse request.plcId "read" resp.toJson]
  repeated : resp.requestId = request.requestId ∧ resp.plcId = request.plcId ∧
    resp.ip = request.ip ∧ resp.port = request.port ∧ resp.dbIndex = request.dbIndex ∧
    resp.offset = request.offset
  performed : effects.calls =
    [.read request.ip request.port request.dbIndex request.offset request.size]
  success : resp.success = true ↔ ∃ data, session.plc.readBytes request.ip request.port
    request.dbIndex request.offset request.size = .ok data
  failure : resp.success = false → session.plc.readBytes request.ip request.port request.dbIndex
    request.offset request.size = .error resp.message
  processor : resp = ReadProcessor.handle session.plc request

/-- A write is answered once: by a response of the type `write` for the PLC, which repeats the
request, has success exactly when the content was hexadecimal and was written to the PLC, and has
the text of the error otherwise.  It is the response of the processor. -/
structure AnsweredWrite (session : CloudSession) (request : WriteRequest) (resp : WriteResponse)
    (effects : Effects) : Prop where
  once : effects.responses = [session.sendPlcResponse request.plcId "write" resp.toJson]
  repeated : resp.requestId = request.requestId ∧ resp.plcId = request.plcId ∧
    resp.ip = request.ip ∧ resp.port = request.port ∧ resp.dbIndex = request.dbIndex ∧
    resp.offset = request.offset
  success : resp.success = true ↔ ∃ data, hexDecode request.hexContent = some data ∧
    effects.calls = [.write request.ip request.port request.dbIndex request.offset data] ∧
    session.plc.writeBytes request.ip request.port request.dbIndex request.offset data = .ok ()
  failure : resp.success = false →
    (hexDecode request.hexContent = none ∧
      resp.message = "Invalid hex: " ++ session.hexError request.hexContent) ∨
    ∃ data, hexDecode request.hexContent = some data ∧
      session.plc.writeBytes request.ip request.port request.dbIndex request.offset data =
        .error resp.message
  processor : resp = WriteProcessor.handle session.hexError session.plc request

/-- A command of the type `read` or `write` that can be parsed is answered once, and correctly. -/
structure Answered (session : CloudSession) (cmd : ServerCommand) : Prop where
  read : ∀ request, cmd.type = "read" → session.fromStrRead cmd.detail = .ok request →
    ∃ resp, AnsweredRead session request resp (session.handlePlcCommand cmd)
  write : ∀ request, cmd.type = "write" → session.fromStrWrite cmd.detail = .ok request →
    ∃ resp, AnsweredWrite session request resp (session.handlePlcCommand cmd)

variable {session : CloudSession}

/-- **Every read is answered.** -/
theorem handleRead_answered {detail : String} {request : ReadRequest}
    (hparse : session.fromStrRead detail = .ok request) :
    AnsweredRead session request (ReadProcessor.handle session.plc request)
      (session.handleRead detail) := by
  unfold CloudSession.handleRead ReadProcessor.handle
  simp only [hparse]
  cases hread : session.plc.readBytes request.ip request.port request.dbIndex request.offset
      request.size with
  | ok data =>
      exact {
        once := rfl
        repeated := ⟨rfl, rfl, rfl, rfl, rfl, rfl⟩
        performed := rfl
        success := ⟨fun _ => ⟨data, hread⟩, fun _ => rfl⟩
        failure := fun h => by cases h
        processor := by rw [ReadProcessor.handle, hread] }
  | error e =>
      exact {
        once := rfl
        repeated := ⟨rfl, rfl, rfl, rfl, rfl, rfl⟩
        performed := rfl
        success := by
          refine ⟨(nomatch ·), ?_⟩
          rintro ⟨data, hok⟩
          rw [hread] at hok
          cases hok
        failure := fun _ => hread
        processor := by rw [ReadProcessor.handle, hread] }

/-- **A write is answered** exactly when its content is a hexadecimal text. -/
theorem handleWrite_answered_iff {detail : String} {request : WriteRequest}
    (hparse : session.fromStrWrite detail = .ok request) :
    (∃ resp, AnsweredWrite session request resp (session.handleWrite detail)) ↔
      (hexDecode request.hexContent).isSome := by
  unfold CloudSession.handleWrite
  simp only [hparse]
  cases hhex : hexDecode request.hexContent with
  | none =>
      refine iff_of_false ?_ Bool.false_ne_true
      rintro ⟨resp, h⟩
      cases h.once
  | some data =>
      refine iff_of_true ?_ rfl
      refine ⟨WriteProcessor.handle session.hexError session.plc request, ?_⟩
      simp only [WriteProcessor.handle, hhex]
      cases hwrite : session.plc.writeBytes request.ip request.port request.dbIndex
          request.offset data with
      | ok _ =>
          exact {
            once := rfl
            repeated := ⟨rfl, rfl, rfl, rfl, rfl, rfl⟩
            success := ⟨fun _ => ⟨data, hhex, rfl, hwrite⟩, fun _ => rfl⟩
            failure := fun h => by cases h
            processor := by simp only [WriteProcessor.handle, hhex, hwrite] }
      | error e =>
          exact {
            once := rfl
            repeated := ⟨rfl, rfl, rfl, rfl, rfl, rfl⟩
            success := by
              refine ⟨(nomatch ·), ?_⟩
              rintro ⟨data', hdata', -, hok⟩
              cases hhex.symm.trans hdata'
              rw [hwrite] at hok
              cases hok
            failure := fun _ => Or.inr ⟨data, hhex, hwrite⟩
            processor := by simp only [WriteProcessor.handle, hhex, hwrite] }

/-- **The exact condition**: a command is answered once, and correctly, unless it is a write whose
content is no hexadecimal text. -/
theorem answered_iff (session : CloudSession) (cmd : ServerCommand) :
    Answered session cmd ↔ ∀ request, cmd.type = "write" →
      session.fromStrWrite cmd.detail = .ok request →
        (hexDecode request.hexContent).isSome := by
  obtain ⟨type, detail⟩ := cmd
  constructor
  · rintro h request rfl hparse
    exact (handleWrite_answered_iff hparse).1 (h.write request rfl hparse)
  · intro h
    refine ⟨?_, ?_⟩
    · rintro request rfl hparse
      exact ⟨_, handleRead_answered hparse⟩
    · rintro request rfl hparse
      exact (handleWrite_answered_iff hparse).2 (h request rfl hparse)

/-- A request to write a text to a PLC. -/
def hexRequest (hexContent : String) : WriteRequest where
  requestId := some "7"
  plcId := "P1"
  ip := "10.0.0.1"
  port := 102
  dbIndex := 1
  offset := 0
  hexContent := hexContent

/-- A session that reads every detail as a request to write that text, and whose PLCs answer. -/
def hexSession : CloudSession where
  id := "E1"
  randomNumber := 1
  sign := fun _ => ""
  plc := ⟨fun _ _ _ _ _ => .ok [], fun _ _ _ _ _ => .ok ()⟩
  fromStrRead := fun _ => .error ""
  fromStrWrite := fun detail => .ok (hexRequest detail)
  hexError := fun _ => "Odd number of digits"

/-- **A write without an answer**: three digits are no bytes. -/
theorem odd_hex_not_answered : ¬ Answered hexSession ⟨"write", "abc"⟩ := by
  intro h
  obtain ⟨resp, hresp⟩ := h.write (hexRequest "abc") rfl rfl
  cases hresp.once

end FillingPilot
