/-
**What the clients of a PLC see of each other.**

A PLC is read and written over two ways: by the `read` and `write` commands of the server, and by
the local HTTP interface.  Either takes its content as a hexadecimal text and gives it as one.  Both
end in the same calls, so that what one writes the other reads.

Main definitions:

* `FillingPilot.Client` — a command of the server or a body of the local interface;
* `FillingPilot.Client.calls` — the operations it leads to;
* `FillingPilot.Client.content` — the content it is answered with.

Main results:

* `FillingPilot.Client.calls_eq` — the operations do not depend on what they come to;
* `FillingPilot.content_comes_back` — **what one client wrote another reads**, in lower case.
-/

import FillingPilot.HttpApi
import FillingPilot.PlcTransfers

set_option relaxedAutoImplicit false
set_option autoImplicit false

namespace FillingPilot

open Json Rust S7Manager

/-! ### Clients -/

/-- Who asks for an operation on a PLC. -/
inductive Client
  | command (cmd : ServerCommand)
  /-- A body of `POST /read`. -/
  | readBody (body : Value)
  /-- A body of `POST /write`. -/
  | writeBody (body : Value)

/-- What a transfer comes to, for a handler. -/
def plcOf (result : Except String (List UInt8)) : Plc where
  readBytes _ _ _ _ _ := result
  writeBytes _ _ _ _ _ := result.map fun _ => ()

/-- The session, when its transfer comes to `result`. -/
def CloudSession.over (session : CloudSession) (result : Except String (List UInt8)) :
    CloudSession :=
  { session with plc := plcOf result }

namespace Client

variable (session : CloudSession) (result : Except String (List UInt8))

/-- The operations on the PLCs. -/
def calls : Client → List PlcCall
  | command cmd => ((session.over result).handlePlcCommand cmd).calls
  | readBody body => (readHandler (plcOf result) body).2
  | writeBody body => (writeHandler session.hexError (plcOf result) body).2

/-- The content in the answer. -/
def content : Client → Option String
  | command cmd =>
      (((session.over result).handlePlcCommand cmd).responses.head?.bind fun response =>
        response.message.get "hexContent").bind Value.asStr
  | readBody body => ((readHandler (plcOf result) body).1.get "hex").bind Value.asStr
  | writeBody body =>
      ((writeHandler session.hexError (plcOf result) body).1.get "hex").bind Value.asStr

/-- The content that the client gives. -/
def Gives (s : String) : Client → Prop
  | command cmd => ∃ request, session.fromStrWrite cmd.detail = .ok request ∧ request.hexContent = s
  | readBody _ => False
  | writeBody body => requestText body "hex" "" = s

variable {session result}

/-! ### Operations -/

theorem handlePlcCommand_other {cmd : ServerCommand} (hread : cmd.type ≠ "read")
    (hwrite : cmd.type ≠ "write") : session.handlePlcCommand cmd = ⟨[], [], []⟩ := by
  unfold CloudSession.handlePlcCommand
  split
  next h => exact absurd h hread
  next h => exact absurd h hwrite
  next => rfl

theorem calls_handleRead (detail : String) :
    ((session.over result).handleRead detail).calls =
      match session.fromStrRead detail with
      | .error _ => []
      | .ok request =>
          [.read request.ip request.port request.dbIndex request.offset request.size] := by
  unfold CloudSession.handleRead
  cases hparse : session.fromStrRead detail with
  | error e => simp only [CloudSession.over, hparse]
  | ok request => cases result <;> simp only [CloudSession.over, plcOf, hparse]

theorem calls_handleWrite (detail : String) :
    ((session.over result).handleWrite detail).calls =
      match session.fromStrWrite detail with
      | .error _ => []
      | .ok request =>
          match hexDecode request.hexContent with
          | none => []
          | some data => [.write request.ip request.port request.dbIndex request.offset data] := by
  unfold CloudSession.handleWrite
  cases hparse : session.fromStrWrite detail with
  | error e => simp only [CloudSession.over, hparse]
  | ok request =>
      cases hhex : hexDecode request.hexContent with
      | none => simp only [CloudSession.over, hparse, hhex]
      | some data =>
          cases result <;> simp only [CloudSession.over, plcOf, hparse, hhex, Except.map]

/-- **The operations do not depend on what they come to.** -/
theorem calls_eq (client : Client) (result' : Except String (List UInt8)) :
    client.calls session result = client.calls session result' := by
  cases client with
  | command cmd =>
      show ((session.over result).handlePlcCommand cmd).calls =
        ((session.over result').handlePlcCommand cmd).calls
      by_cases hread : cmd.type = "read"
      · simp only [CloudSession.handlePlcCommand, hread, calls_handleRead]
      · by_cases hwrite : cmd.type = "write"
        · simp only [CloudSession.handlePlcCommand, hwrite, calls_handleWrite]
        · rw [handlePlcCommand_other hread hwrite, handlePlcCommand_other hread hwrite]
  | readBody body => rfl
  | writeBody body =>
      simp only [calls, writeHandler]
      cases hexDecode (requestText body "hex" "") <;> rfl

/-- **A client that writes gives the content** as a hexadecimal text. -/
theorem gives_of_calls {client : Client} {ip : String} {port db offset : UInt16}
    {data : List UInt8} (h : client.calls session result = [.write ip port db offset data]) :
    ∃ s, client.Gives session s ∧ hexDecode s = some data := by
  cases client with
  | command cmd =>
      change ((session.over result).handlePlcCommand cmd).calls = _ at h
      by_cases hread : cmd.type = "read"
      · simp only [CloudSession.handlePlcCommand, hread, calls_handleRead] at h
        split at h <;> simp at h
      · by_cases hwrite : cmd.type = "write"
        · simp only [CloudSession.handlePlcCommand, hwrite, calls_handleWrite] at h
          cases hparse : session.fromStrWrite cmd.detail with
          | error e => simp [hparse] at h
          | ok request =>
              cases hhex : hexDecode request.hexContent with
              | none => simp [hparse, hhex] at h
              | some data' =>
                  simp only [hparse, hhex, List.cons.injEq, PlcCall.write.injEq] at h
                  exact ⟨request.hexContent, ⟨request, hparse, rfl⟩, by rw [hhex, h.1.2.2.2.2]⟩
        · rw [handlePlcCommand_other hread hwrite] at h
          cases h
  | readBody body => simp [calls, readHandler] at h
  | writeBody body =>
      simp only [calls, writeHandler] at h
      cases hhex : hexDecode (requestText body "hex" "") with
      | none => simp [hhex] at h
      | some data' =>
          simp only [hhex, List.cons.injEq, PlcCall.write.injEq] at h
          exact ⟨_, rfl, by rw [hhex, h.1.2.2.2.2]⟩

/-- **A client that reads is answered with the content** in hexadecimal. -/
theorem content_of_calls {client : Client} {ip : String} {port db offset size : UInt16}
    {data : List UInt8}
    (h : client.calls session (.ok data) = [.read ip port db offset size]) :
    client.content session (.ok data) = some (hexEncode data) := by
  cases client with
  | command cmd =>
      change ((session.over (.ok data)).handlePlcCommand cmd).calls = _ at h
      by_cases hread : cmd.type = "read"
      · simp only [CloudSession.handlePlcCommand, hread, calls_handleRead] at h
        cases hparse : session.fromStrRead cmd.detail with
        | error e => simp [hparse] at h
        | ok request =>
            simp only [content, CloudSession.handlePlcCommand, hread, CloudSession.handleRead,
              CloudSession.over, plcOf, hparse]
            rfl
      · by_cases hwrite : cmd.type = "write"
        · simp only [CloudSession.handlePlcCommand, hwrite, calls_handleWrite] at h
          split at h
          next => simp at h
          next => split at h <;> simp at h
        · rw [handlePlcCommand_other hread hwrite] at h
          cases h
  | readBody body => rfl
  | writeBody body =>
      simp only [calls, writeHandler] at h
      split at h <;> simp at h

end Client

/-! ### Writes and reads -/

section Runs

variable {δ ω : Type} {s7 : Connector δ ω} {plcAt : Endpoint → δ} {content : ω → PlcMemory δ}
  {session : CloudSession}

/-- **What one client wrote another reads**: in every run of the calls, when the transfer of a
client's write has succeeded and no later step touches its cells, a client that reads these cells
with success is answered with the content that the first one gave, in lower case, over whichever way
each of them came. -/
theorem content_comes_back (hs7 : s7.Transfers content) {world : ω}
    {before between : List (PlcEvent ω)} {s t u : PlcState ω} {w r : PlcEvent ω}
    {writer reader : Client} {ip ip' : String} {port port' db offset size : UInt16}
    {data bytes : List UInt8}
    (hwriter : writer.calls session (.ok []) = [.write ip port db offset data])
    (hreader : reader.calls session (.ok []) = [.read ip' port' db offset size])
    (hplc : plcAt ⟨ip', port'⟩ = plcAt ⟨ip, port⟩) (hsize : size.toNat = data.length)
    (hbefore : Lts.run (plcStep s7 plcAt) (plcStart world) before = some s)
    (hw : performed s w = some (.write ip port db offset data))
    (hwok : answer s7 plcAt s w = some (.ok [])) (hwrite : plcStep s7 plcAt s w = some t)
    (hspares : Lts.Along (plcStep s7 plcAt)
      (Spares content plcAt (plcAt ⟨ip, port⟩) db offset.toNat data.length) t between)
    (hbetween : Lts.run (plcStep s7 plcAt) t between = some u)
    (hr : performed u r = some (.read ip' port' db offset size))
    (hrok : answer s7 plcAt u r = some (.ok bytes)) :
    ∃ text, writer.Gives session text ∧
      reader.content session (.ok bytes) = some (toLowercase text) := by
  obtain ⟨text, hgives, hhex⟩ := Client.gives_of_calls hwriter
  have hbytes := written_is_read hs7 hbefore hw hwok hwrite hspares hbetween hr hrok hplc
    (Nat.le_refl _) (by omega)
  rw [Nat.sub_self, hsize, List.slice, List.drop_zero, List.take_length] at hbytes
  subst hbytes
  have hcontent : reader.content session (.ok bytes) = some (hexEncode bytes) :=
    Client.content_of_calls ((reader.calls_eq (.ok [])).trans hreader)
  exact ⟨text, hgives, by rw [hcontent, hexEncode_of_hexDecode hhex]⟩

end Runs

/-- A session that reads every detail as the content of a write to a PLC. -/
def labelSession : CloudSession where
  id := "E1"
  randomNumber := 1
  sign _ := ""
  plc := plcOf (.ok [])
  fromStrRead _ := .error ""
  fromStrWrite detail := .ok ⟨none, "P1", "10.0.0.1", 102, 1, 4, detail⟩
  hexError _ := ""

/-- A body that names the two bytes of the label. -/
def labelBody : Value :=
  .object [("ip", .string "10.0.0.1"), ("offset", .ofInt 4), ("size", .ofInt 2)]

/-- The write of the server goes on until it has its connection. -/
def labelWrite : List (PlcEvent (PlcMemory Endpoint)) :=
  [.start (.plc (.write "10.0.0.1" 102 1 4 [10, 11])), .advance 0 .good, .advance 0 .good,
    .advance 0 .good]

/-- The PLC changes a byte behind the label; the read of the local interface finds the connection.
-/
def labelRead : List (PlcEvent (PlcMemory Endpoint)) :=
  [.elsewhere fun _ i => if i = 4 then 10 else if i = 5 then 11 else 1,
    .start (.plc (.read "10.0.0.1" 102 1 4 2)), .advance 1 .good]

theorem content_comes_back_label :
    ∃ s t u, Lts.run memoryStep (plcStart fun _ _ => 0) labelWrite = some s ∧
      memoryStep s (.advance 0 .good) = some t ∧ Lts.run memoryStep t labelRead = some u ∧
      ∃ text, Client.Gives labelSession text (.command ⟨"write", "0A0b"⟩) ∧
        Client.content labelSession (.ok [10, 11]) (.readBody labelBody) =
          some (toLowercase text) := by
  have hwriter : Client.calls labelSession (.ok []) (.command ⟨"write", "0A0b"⟩) =
      [.write "10.0.0.1" 102 1 4 [10, 11]] := rfl
  have hreader : Client.calls labelSession (.ok []) (.readBody labelBody) =
      [.read "10.0.0.1" 102 1 4 2] := rfl
  obtain ⟨s, hbefore, hw, hwok, t, hwrite, hspares, u, hbetween, hr, hrok⟩ :
      ∃ s, Lts.run memoryStep (plcStart fun _ _ => 0) labelWrite = some s ∧
        performed s (.advance 0 .good) = some (.write "10.0.0.1" 102 1 4 [10, 11]) ∧
        answer (memoryConnector Endpoint) id s (.advance 0 .good) = some (.ok []) ∧
        ∃ t, memoryStep s (.advance 0 .good) = some t ∧
          Lts.Along memoryStep (Spares id id ⟨"10.0.0.1", 102⟩ 1 4 2) t labelRead ∧
          ∃ u, Lts.run memoryStep t labelRead = some u ∧
            performed u (.advance 1 .good) = some (.read "10.0.0.1" 102 1 4 2) ∧
            answer (memoryConnector Endpoint) id u (.advance 1 .good) = some (.ok [10, 11]) := by
    refine ⟨_, rfl, rfl, rfl, _, rfl, ?_, _, rfl, rfl, rfl⟩
    -- nothing transfers before the read has its connection, and the PLC keeps the label
    refine .of_step ⟨fun _ h => ?_, fun world hworld i hle hlt => ?_⟩ rfl <|
      .of_step ⟨fun _ h => ?_, fun _ h => ?_⟩ rfl <|
        .of_step ⟨fun _ h => ?_, fun _ h => ?_⟩ rfl trivial
    · cases h
    · cases hworld
      obtain rfl | rfl : i = 4 ∨ i = 5 := by omega
      · rfl
      · rfl
    all_goals cases h
  exact ⟨s, t, u, hbefore, hwrite, hbetween,
    content_comes_back (memoryConnector_transfers Endpoint) hwriter hreader rfl rfl hbefore hw hwok
      hwrite hspares hbetween hr hrok⟩

end FillingPilot
