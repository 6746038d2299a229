/-
**The configuration of a device.**

At its start the process reads two files of its directory: `id.key` says who the device is, and
`server.conf` which server it has and how often it talks to it.  What `id.key` says of the server
and of the intervals does not count.

Main definitions:

* `FillingPilot.Context`, `FillingPilot.Context.ServerConf` — the two records;
* `FillingPilot.Context.fromJson`, `FillingPilot.Context.ServerConf.fromJson` — the derived readers;
* `FillingPilot.ContextError` — what ends a load;
* `FillingPilot.Context.loadWithPaths` — the load.

Main results:

* `FillingPilot.Context.loadWithPaths_eq_ok` — **when a load succeeds, and what it gives**.
-/

import FillingPilot.CommandText
import FillingPilot.RustStd
import FillingPilot.Serde

set_option relaxedAutoImplicit false
set_option autoImplicit false

namespace FillingPilot

open Json Rust

/-- What the files say, put together. -/
structure Context where
  serverAddress : String
  port : ℕ
  upgradeUrl : Option String
  serverConfUrl : Option String
  version : String
  id : String
  privateKey : Option String
  heartBeat : ℕ
  reportInterval : ℕ
  statusInterval : ℕ
  localPort : ℕ

namespace Context

/-- What `server.conf` says, and the detail of a `config` command. -/
structure ServerConf where
  serverAddress : String
  port : ℕ
  heartBeat : ℕ
  reportInterval : ℕ
  statusInterval : ℕ
  localPort : ℕ

/-! ### The readers -/

/-- The derived reader of the configuration of the server. -/
def ServerConf.fromJson (v : Value) : Option ServerConf := do
  guard (isRecord 6 v)
  let serverAddress ← required 0 "serverAddress" Value.asStr v
  let port ← required 1 "port" (readUnsigned 16) v
  let heartBeat ← defaulted 2 "heartBeat" (readUnsigned 64) 5000 v
  let reportInterval ← defaulted 3 "reportInterval" (readUnsigned 64) 5000 v
  let statusInterval ← defaulted 4 "statusInterval" (readUnsigned 64) 1000 v
  let localPort ← defaulted 5 "localPort" (readUnsigned 16) 22222 v
  return { serverAddress, port, heartBeat, reportInterval, statusInterval, localPort }

/-- The derived reader of the context. -/
def fromJson (v : Value) : Option Context := do
  guard (isRecord 11 v)
  let serverAddress ← defaulted 0 "server_address" Value.asStr "192.168.0.1" v
  let port ← defaulted 1 "port" (readUnsigned 16) 9999 v
  let upgradeUrl ← optional 2 "upgrade_url" Value.asStr v
  let serverConfUrl ← optional 3 "server_conf_url" Value.asStr v
  let version ← defaulted 4 "version" Value.asStr "1.0" v
  let id ← required 5 "id" Value.asStr v
  let privateKey ← optional 6 "privateKey" Value.asStr v
  let heartBeat ← defaulted 7 "heart_beat" (readUnsigned 64) 5000 v
  let reportInterval ← defaulted 8 "report_interval" (readUnsigned 64) 5000 v
  let statusInterval ← defaulted 9 "status_interval" (readUnsigned 64) 1000 v
  let localPort ← defaulted 10 "local_port" (readUnsigned 16) 22222 v
  return { serverAddress, port, upgradeUrl, serverConfUrl, version, id, privateKey, heartBeat,
           reportInterval, statusInterval, localPort }

/-- The part of the configuration that the loops use. -/
def ServerConf.intervals (conf : ServerConf) : Intervals where
  heartBeatMs := conf.heartBeat
  reportIntervalMs := conf.reportInterval
  statusIntervalMs := conf.statusInterval

/-- The intervals of a new session. -/
def intervals (ctx : Context) : Intervals where
  heartBeatMs := ctx.heartBeat
  reportIntervalMs := ctx.reportInterval
  statusIntervalMs := ctx.statusInterval

end Context

/-! ### The load -/

/-- What ends a load, with the path it names, the directory, and the start of the file. -/
inductive ContextError
  | idFileNotFound (idPath cwd : String)
  | idFileInvalidJson (idPath cwd preview : String)
  | missingField (field idPath cwd : String)
  | serverConfNotFound (confPath cwd : String)
  | serverConfFileInvalid (confPath cwd preview : String)
  deriving DecidableEq

namespace Context

/-- `merge_server_conf` -/
def mergeServerConf (ctx : Context) (conf : ServerConf) : Context :=
  { ctx with
    serverAddress := conf.serverAddress
    port := conf.port
    heartBeat := conf.heartBeat
    reportInterval := conf.reportInterval
    statusInterval := conf.statusInterval
    localPort := conf.localPort }

/-- The first 200 characters of a file. -/
def preview (content : String) : String := String.ofList (content.toList.take 200)

section Load

variable (fromStr : String → Option Value) (cwd : String)

/-- What `id.key` gives.  The texts of the errors name a file `id`, which is not the one read. -/
def readId (idKey : Option String) : Except ContextError Context :=
  let idPath := cwd ++ "/id"
  match idKey with
  | none => .error (.idFileNotFound idPath cwd)
  | some content =>
      match fromStr content with
      | none => .error (.idFileInvalidJson idPath cwd (preview content))
      | some document =>
          match fromJson document with
          | none => .error (.missingField "id.key" idPath cwd)
          | some ctx =>
              if ctx.id = "" then .error (.missingField "id.key" idPath cwd) else .ok ctx

/-- What `server.conf` gives. -/
def readServerConf (serverConf : Option String) : Except ContextError ServerConf :=
  let confPath := cwd ++ "/serverConf"
  match serverConf with
  | none => .error (.serverConfNotFound confPath cwd)
  | some content =>
      match (fromStr content).bind ServerConf.fromJson with
      | none => .error (.serverConfFileInvalid confPath cwd (preview content))
      | some conf => .ok conf

/-- `load_with_paths`: a file is a text, or none when it cannot be read. -/
def loadWithPaths (idKey serverConf : Option String) : Except ContextError Context := do
  let ctx ← readId fromStr cwd idKey
  let conf ← readServerConf fromStr cwd serverConf
  return ctx.mergeServerConf conf

variable {fromStr cwd} {idKey serverConf : Option String}

/-- **When a load succeeds, and what it gives**: both files are there and can be read, the identity
is not empty, and the server and the intervals are those of `server.conf`. -/
theorem loadWithPaths_eq_ok {ctx : Context} :
    loadWithPaths fromStr cwd idKey serverConf = .ok ctx ↔
      ∃ own conf, readId fromStr cwd idKey = .ok own ∧
        readServerConf fromStr cwd serverConf = .ok conf ∧ ctx = own.mergeServerConf conf := by
  unfold loadWithPaths
  constructor
  · intro h
    obtain ⟨own, hown, h⟩ := bind_eq_ok.1 h
    obtain ⟨conf, hconf, h⟩ := bind_eq_ok.1 h
    cases h
    exact ⟨own, conf, hown, hconf, rfl⟩
  · rintro ⟨own, conf, hown, hconf, rfl⟩
    rw [hown, hconf]
    rfl

end Load

end Context

end FillingPilot
