/-
**Callbacks of the local server.**

A monitor's data is posted to a local address, and the answer may ask for deployments: blocks of a
content, written to PLCs.  The definitions that a content is encoded with stand behind an
asynchronous lock, and the encoder blocks on it.  It is called from tasks of the runtime only, where
this panics, so that of all that a callback can ask for nothing is ever written.

Main definitions:

* `FillingPilot.encodeBy`, `FillingPilot.deployBy`, `FillingPilot.deployAll` — the encoder and the
  deployments, from a task or from a thread;
* `FillingPilot.Deployment.fromJson` — the derived reader;
* `FillingPilot.tryCallBack` — what an answer of the local server leads to.

Main results:

* `FillingPilot.deployBy_thread` — from a thread a deployment is the one of `FillingPilot.deploy`;
* `FillingPilot.deployBy_task` — how a deployment ends that is made from a task;
* `FillingPilot.tryCallBack_task` — **a callback writes nothing.**
-/

import FillingPilot.DeployWrite
import FillingPilot.MetaStore

set_option relaxedAutoImplicit false
set_option autoImplicit false

namespace FillingPilot

open Json Rust

/-! ### The callers of the codecs -/

section Codecs

variable (caller : Caller) (host : Host)

/-- `encode`, which blocks on the definitions once the content is an object. -/
def encodeBy (content : Value) (javaType : String) (cache : MetaCache) : Outcome (List UInt8) :=
  match content with
  | .object contentMap => caller.blockOn (encode host (.object contentMap) javaType cache)
  | _ => .err "Content must be a JSON object"

/-- `decode_as_map`, which blocks on the definitions first. -/
def decodeAsMapBy (data : List UInt8) (javaType : String) (cache : MetaCache) :
    Outcome (AList fun _ : String => Value) :=
  caller.blockOn (decodeAsMap host data javaType cache)

end Codecs

@[simp] theorem encodeBy_thread (host : Host) (content : Value) (javaType : String)
    (cache : MetaCache) : encodeBy .thread host content javaType cache =
      encode host content javaType cache := by
  cases content with
  | object contentMap => rfl
  | null | bool | number | string | array => rfl

theorem encodeBy_task_ne_ok (host : Host) (content : Value) (javaType : String) (cache : MetaCache)
    (encoded : List UInt8) : encodeBy .task host content javaType cache ≠ .ok encoded := by
  cases content with
  | object contentMap => exact nofun
  | null | bool | number | string | array => exact nofun

/-! ### Deployments -/

section Deployments

variable (caller : Caller) (host : Host) (cache : MetaCache)
  (fillStations : AList fun _ : String => String × UInt16)
  (monitorIp : Option String) (monitorPort : Option UInt16)

/-- `deploy`: the writes that are made, and the result. -/
def deployBy (answer : WriteAnswer) (d : Deployment) : List PlcWrite × Outcome Unit :=
  match resolvePlc fillStations monitorIp monitorPort d with
  | .ok address =>
      match encodeBy caller host d.content d.contentType cache >>= cutWindow d with
      | .ok data =>
          let made := S7Manager.writeBytes answer
            { data
              ip := address.1
              port := address.2
              dbNumber := UInt16.ofNat d.dbNumber
              start := UInt16.ofNat d.offset }
          (made.1, made.2.mapErr ("S7 write failed: " ++ ·))
      | .err message => ([], .err message)
      | .panic => ([], .panic)
  | .error message => ([], .err message)

/-- `deploy_all`: an error is passed over, a panic is not. -/
def deployAll (answers : ℕ → WriteAnswer) : List (Deployment × ℕ) → List PlcWrite × Outcome Unit
  | [] => ([], .ok ())
  | (d, i) :: rest =>
      match deployBy caller host cache fillStations monitorIp monitorPort (answers i) d with
      | (writes, .panic) => (writes, .panic)
      | (writes, _) =>
          let made := deployAll answers rest
          (writes ++ made.1, made.2)

end Deployments

section Task

variable {host : Host} {cache : MetaCache}
  {fillStations : AList fun _ : String => String × UInt16}
  {monitorIp : Option String} {monitorPort : Option UInt16}

theorem deployBy_thread (answer : WriteAnswer) (d : Deployment) :
    deployBy .thread host cache fillStations monitorIp monitorPort answer d =
      deploy host cache fillStations monitorIp monitorPort answer d := by
  simp only [deployBy, deploy, encodeBy_thread]
  cases resolvePlc fillStations monitorIp monitorPort d with
  | error message => rfl
  | ok address =>
      cases encode host d.content d.contentType cache >>= cutWindow d with
      | err message => rfl
      | panic => rfl
      | ok data =>
          cases answer with
          | unreachable message => rfl
          | failed message => rfl
          | written => rfl

/-- **How a deployment ends that is made from a task**: without a write, and not well. -/
theorem deployBy_task (answer : WriteAnswer) (d : Deployment) :
    (deployBy .task host cache fillStations monitorIp monitorPort answer d).1 = [] ∧
      (deployBy .task host cache fillStations monitorIp monitorPort answer d).2 ≠ .ok () := by
  rw [deployBy]
  cases resolvePlc fillStations monitorIp monitorPort d with
  | error message => exact ⟨rfl, nofun⟩
  | ok address =>
      cases hencode : encodeBy .task host d.content d.contentType cache with
      | ok encoded => exact absurd hencode (encodeBy_task_ne_ok host _ _ cache encoded)
      | err message => exact ⟨rfl, nofun⟩
      | panic => exact ⟨rfl, nofun⟩

theorem deployAll_task (answers : ℕ → WriteAnswer) (deployments : List (Deployment × ℕ)) :
    (deployAll .task host cache fillStations monitorIp monitorPort answers deployments).1 = [] := by
  induction deployments with
  | nil => rfl
  | cons deployment rest ih =>
      obtain ⟨d, i⟩ := deployment
      have hwrites : (deployBy .task host cache fillStations monitorIp monitorPort
          (answers i) d).1 = [] := (deployBy_task (answers i) d).1
      rw [deployAll]
      split
      · rename_i writes heq
        rw [heq] at hwrites
        exact hwrites
      · rename_i writes result _ heq
        rw [heq] at hwrites
        show writes ++ (deployAll .task host cache fillStations monitorIp monitorPort answers
          rest).1 = []
        rw [ih, List.append_nil]
        exact hwrites

end Task

/-! ### Answers of the local server -/

/-- The callback an answer names: `none` inside for an answer without one. -/
def pilotCallback (v : Value) : Option (Option String) := do
  guard (isRecord 1 v)
  optional 0 "pilotCallback" Value.asStr v

/-- The derived reader of a deployment; its address is read and not used. -/
def Deployment.fromJson (v : Value) : Option Deployment := do
  guard (isRecord 8 v)
  let fillStationId ← optional 0 "fillStationId" Value.asStr v
  let _ ← optional 1 "ip" Value.asStr v
  let _ ← optional 2 "port" readU16 v
  let dbNumber ← required 3 "dbNumber" (readUnsigned 64) v
  let offset ← required 4 "offset" (readUnsigned 64) v
  let length ← required 5 "length" (readUnsigned 64) v
  let contentType ← required 6 "contentType" Value.asStr v
  let content ← required 7 "content" some v
  return { fillStationId, dbNumber, offset, length, contentType, content }

/-- The derived reader of several deployments. -/
def deploymentsFromJson (v : Value) : Option (List Deployment) := do
  guard (isRecord 1 v)
  required 0 "deployments" (readVec Deployment.fromJson) v

section Answers

variable (caller : Caller) (host : Host) (fromStr : String → Option Value) (cache : MetaCache)
  (fillStations : AList fun _ : String => String × UInt16)

/-- `try_call_back`: the writes an answer leads to, and how the function ends; errors are logged. -/
def tryCallBack (answers : ℕ → WriteAnswer) (monitorIp : Option String)
    (monitorPort : Option UInt16) (result : String) : List PlcWrite × Outcome Unit :=
  let result := trim result
  if result.isEmpty then ([], .ok ())
  else
    let document := fromStr result
    match document.bind pilotCallback with
    | some (some "pilotService/deploy") =>
        match document.bind Deployment.fromJson with
        | some d =>
            match deployBy caller host cache fillStations monitorIp monitorPort (answers 0) d with
            | (writes, .panic) => (writes, .panic)
            | (writes, _) => (writes, .ok ())
        | none => ([], .ok ())
    | some (some "pilotService/deployAll") =>
        match document.bind deploymentsFromJson with
        | some deployments =>
            deployAll caller host cache fillStations monitorIp monitorPort answers
              deployments.zipIdx
        | none => ([], .ok ())
    | _ => ([], .ok ())

/-- **A callback writes nothing**, whatever the answer says, and whatever the definitions and the
stations are. -/
theorem tryCallBack_task (answers : ℕ → WriteAnswer) (monitorIp : Option String)
    (monitorPort : Option UInt16) (result : String) :
    (tryCallBack .task host fromStr cache fillStations answers monitorIp monitorPort result).1 =
      [] := by
  rw [tryCallBack]
  simp only
  split_ifs
  · rfl
  · split
    · split
      · rename_i d _
        have hwrites : (deployBy .task host cache fillStations monitorIp monitorPort
            (answers 0) d).1 = [] := (deployBy_task (answers 0) d).1
        split
        · rename_i writes heq
          rw [heq] at hwrites
          exact hwrites
        · rename_i writes _ _ heq
          rw [heq] at hwrites
          exact hwrites
      · rfl
    · split
      · exact deployAll_task answers _
      · rfl
    · rfl

end Answers

end FillingPilot
