/-
**The texts of a server command.**

A session logs each command that it receives, with the addresses of the PLCs in its detail or, when
there are none, with the first 50 bytes of the detail.  The `config` command is logged with the
first 100 bytes of a detail that is no configuration.  The texts are cut at a byte, and a cut inside
a character panics.

The readers of JSON texts are parameters.

Main definitions:

* `FillingPilot.extractPlcSummary` — the text a detail is logged as;
* `FillingPilot.handleConfig` — the `config` command;
* `FillingPilot.registerCommand`, `FillingPilot.heartbeatResponse` — what the two sessions do with a
  command;
* `FillingPilot.SummarySplits`, `FillingPilot.ConfigSplits` — the cut is inside a character.

Main results:

* `FillingPilot.commands_ne_panic_iff` — **the exact condition** under which a command does not
  panic;
* `FillingPilot.command_panics` — a detail of 51 bytes that ends with `é`.
-/

import FillingPilot.Json
import FillingPilot.Utf8

set_option relaxedAutoImplicit false
set_option autoImplicit false

namespace FillingPilot

open Json Rust

/-! ### Commands -/

/-- A command of the server. -/
structure ServerCommand where
  type : String
  detail : String

/-- What a detail of the `config` command is read as, as far as the handler uses it. -/
structure ServerConf where
  heartBeat : ℕ
  reportInterval : ℕ
  statusInterval : ℕ

/-- The intervals of the loops, in milliseconds. -/
structure Intervals where
  heartBeatMs : ℕ
  reportIntervalMs : ℕ
  statusIntervalMs : ℕ
  deriving DecidableEq

/-- A line of the log: its name and its text. -/
abbrev LogLine := String × String

/-- The address of a PLC object. -/
def plcAddressText (item : Value) : Option String := do
  let ip ← (item.get "ipAddress").bind Value.asStr
  let port ← (item.get "portNumber").bind Value.asU64
  return ip ++ ":" ++ toString port

/-- The addresses of a detail: of its objects, or else of the objects of its `dataMeta`. -/
def plcAddressTexts (json : Value) : List String :=
  let plcs := (json.asArray.getD []).filterMap plcAddressText
  if plcs.isEmpty then
    (((json.get "dataMeta").bind Value.asArray).getD []).filterMap plcAddressText
  else plcs

section Commands

variable (fromStr : String → Option Value) (fromStrConf : String → Option ServerConf)

/-- The addresses a detail is logged with. -/
def detailAddresses (detail : String) : List String :=
  ((fromStr detail).map plcAddressTexts).getD []

/-- The text a detail is logged as: its addresses, or its first 50 bytes. -/
def extractPlcSummary (detail : String) : Outcome String :=
  let plcs := detailAddresses fromStr detail
  if !plcs.isEmpty then .ok (String.intercalate ", " plcs)
  else if 50 < byteLen detail then do
    let head ← sliceTo 50 detail
    return head ++ "..."
  else .ok detail

/-- The `config` command: each interval that is not 0 is taken. -/
def handleConfig (detail : String) (intervals : Intervals) : Outcome (Intervals × List LogLine) :=
  let received : LogLine := ("CMD", "Received config command")
  if detail = "" then .ok (intervals, [received])
  else
    match fromStrConf detail with
    | some conf =>
        let text := "heartBeat=" ++ toString conf.heartBeat ++ ", reportInterval=" ++
          toString conf.reportInterval ++ ", statusInterval=" ++ toString conf.statusInterval
        let taken (new old : ℕ) : ℕ := if 0 < new then new else old
        .ok ({ heartBeatMs := taken conf.heartBeat intervals.heartBeatMs
               reportIntervalMs := taken conf.reportInterval intervals.reportIntervalMs
               statusIntervalMs := taken conf.statusInterval intervals.statusIntervalMs },
          [received, ("CONFIG", text)])
    | none => do
        let head ← sliceTo (min (byteLen detail) 100) detail
        return (intervals, [received, ("CONFIG", "Failed to parse config detail: " ++ head)])

/-- The handler, as far as it cuts texts: the other commands take their detail as a whole. -/
def handleCommand (cmd : ServerCommand) (intervals : Intervals) :
    Outcome (Intervals × List LogLine) :=
  if cmd.type = "config" then handleConfig fromStrConf cmd.detail intervals
  else .ok (intervals, [])

/-- The text a non-empty detail is logged as, after `label`. -/
def summaryAfter (label detail : String) : Outcome String :=
  if detail ≠ "" then do
    let summary ← extractPlcSummary fromStr detail
    return label ++ summary
  else .ok ""

/-- A command from the stream of the registration. -/
def registerCommand (cmd : ServerCommand) (intervals : Intervals) :
    Outcome (Intervals × List LogLine) := do
  let plcSummary ← summaryAfter fromStr " plc=" cmd.detail
  let (intervals, lines) ← handleCommand fromStrConf cmd intervals
  return (intervals, ("CMD", "type=" ++ cmd.type ++ plcSummary) :: lines)

/-- A command in the answer to a heartbeat. -/
def heartbeatResponse (cmd : ServerCommand) (intervals : Intervals) :
    Outcome (Intervals × List LogLine) := do
  let detailLine ← summaryAfter fromStr "detail=" cmd.detail
  let summaryLines := if cmd.detail ≠ "" then [("HB_RECV", detailLine)] else []
  if cmd.type ≠ "" then
    let (intervals, lines) ← handleCommand fromStrConf cmd intervals
    return (intervals, summaryLines ++ lines)
  else return (intervals, summaryLines)

/-! ### Cuts -/

/-- The detail is logged without addresses, and byte 50 is inside a character. -/
def SummarySplits (detail : String) : Prop :=
  detailAddresses fromStr detail = [] ∧ Splits 50 detail

/-- The command is a `config` with a detail that is no configuration, and byte 100 of it is inside a
character. -/
def ConfigSplits (cmd : ServerCommand) : Prop :=
  cmd.type = "config" ∧ fromStrConf cmd.detail = none ∧ Splits 100 cmd.detail

theorem extractPlcSummary_panicsIff (detail : String) :
    (extractPlcSummary fromStr detail).PanicsIff (SummarySplits fromStr detail) := by
  unfold extractPlcSummary SummarySplits
  cases hplcs : detailAddresses fromStr detail with
  | cons plc plcs => exact (Outcome.panicsIff_ok _).congr (by simp)
  | nil =>
      simp only [List.isEmpty_nil, Bool.not_true, Bool.false_eq_true, if_false, true_and]
      split_ifs with hlong
      · exact ((sliceTo_panicsIff hlong.le).bind fun _ => Outcome.panicsIff_ok _).congr (by simp)
      · exact (Outcome.panicsIff_ok _).congr ⟨False.elim, fun hsplits => hlong hsplits.1⟩

theorem summaryAfter_panicsIff (label detail : String) :
    (summaryAfter fromStr label detail).PanicsIff (SummarySplits fromStr detail) := by
  unfold summaryAfter
  split_ifs with hdetail
  · exact ((extractPlcSummary_panicsIff fromStr detail).bind fun _ =>
      Outcome.panicsIff_ok _).congr (by simp)
  · rw [not_not] at hdetail
    subst hdetail
    exact (Outcome.panicsIff_ok _).congr ⟨False.elim, fun hsplits => absurd hsplits.2.1 (by decide)⟩

/-- The first 100 bytes of a text, or all of a shorter one. -/
theorem sliceTo_min_panicsIff (n : ℕ) (s : String) :
    (sliceTo (min (byteLen s) n) s).PanicsIff (Splits n s) := by
  rcases Nat.lt_or_ge n (byteLen s) with hlong | hshort
  · rw [Nat.min_eq_right hlong.le]
    exact sliceTo_panicsIff hlong.le
  · rw [Nat.min_eq_left hshort, sliceTo_byteLen]
    exact (Outcome.panicsIff_ok s).congr
      ⟨False.elim, fun hsplits => absurd hsplits.1 (Nat.not_lt.2 hshort)⟩

theorem handleConfig_panicsIff (detail : String) (intervals : Intervals) :
    (handleConfig fromStrConf detail intervals).PanicsIff
      (fromStrConf detail = none ∧ Splits 100 detail) := by
  unfold handleConfig
  split_ifs with hdetail
  · subst hdetail
    exact (Outcome.panicsIff_ok _).congr ⟨False.elim, fun hsplits => absurd hsplits.2.1 (by decide)⟩
  · cases hconf : fromStrConf detail with
    | some conf => exact (Outcome.panicsIff_ok _).congr (by simp)
    | none =>
        exact ((sliceTo_min_panicsIff 100 detail).bind fun _ =>
          Outcome.panicsIff_ok _).congr (by simp)

theorem handleCommand_panicsIff (cmd : ServerCommand) (intervals : Intervals) :
    (handleCommand fromStrConf cmd intervals).PanicsIff (ConfigSplits fromStrConf cmd) := by
  unfold handleCommand ConfigSplits
  split_ifs with htype
  · exact (handleConfig_panicsIff fromStrConf cmd.detail intervals).congr (by simp [htype])
  · exact (Outcome.panicsIff_ok _).congr ⟨False.elim, fun hsplits => htype hsplits.1⟩

theorem registerCommand_panicsIff (cmd : ServerCommand) (intervals : Intervals) :
    (registerCommand fromStr fromStrConf cmd intervals).PanicsIff
      (SummarySplits fromStr cmd.detail ∨ ConfigSplits fromStrConf cmd) := by
  refine (summaryAfter_panicsIff fromStr " plc=" cmd.detail).bind fun plcSummary => ?_
  exact ((handleCommand_panicsIff fromStrConf cmd intervals).bind fun _ =>
    Outcome.panicsIff_ok _).congr (by simp)

theorem heartbeatResponse_panicsIff (cmd : ServerCommand) (intervals : Intervals) :
    (heartbeatResponse fromStr fromStrConf cmd intervals).PanicsIff
      (SummarySplits fromStr cmd.detail ∨ ConfigSplits fromStrConf cmd) := by
  refine (summaryAfter_panicsIff fromStr "detail=" cmd.detail).bind fun detailLine => ?_
  by_cases htype : cmd.type = ""
  · -- an answer without a type is no `config`
    have hconfig : ¬ ConfigSplits fromStrConf cmd := fun hsplits =>
      absurd (htype.symm.trans hsplits.1) (by decide)
    simp only [htype, ne_eq, not_true_eq_false, if_false]
    exact (Outcome.panicsIff_ok _).congr (by simp [hconfig])
  · simp only [ne_eq, htype, not_false_eq_true, if_true]
    exact ((handleCommand_panicsIff fromStrConf cmd intervals).bind fun _ =>
      Outcome.panicsIff_ok _).congr (by simp)

/-- **The exact condition**: neither session panics on a command exactly when its detail yields an
address or byte 50 of it is not inside a character, and, for a `config` with a detail that is no
configuration, byte 100 is not inside a character either. -/
theorem commands_ne_panic_iff (cmd : ServerCommand) (intervals : Intervals) :
    (registerCommand fromStr fromStrConf cmd intervals ≠ .panic ∧
        heartbeatResponse fromStr fromStrConf cmd intervals ≠ .panic) ↔
      ¬ SummarySplits fromStr cmd.detail ∧ ¬ ConfigSplits fromStrConf cmd := by
  rw [(registerCommand_panicsIff fromStr fromStrConf cmd intervals).ne_panic_iff,
    (heartbeatResponse_panicsIff fromStr fromStrConf cmd intervals).ne_panic_iff, and_self, not_or]

end Commands

/-- A command with a detail of 49 letters and a character of two bytes. -/
def accentCommand : ServerCommand where
  type := "clientInfo"
  detail := String.ofList (List.replicate 49 'a' ++ ['é'])

/-- The intervals of a configuration file that gives none. -/
def defaultIntervals : Intervals where
  heartBeatMs := 5000
  reportIntervalMs := 5000
  statusIntervalMs := 1000

/-- **A command panics** in both sessions; its detail is nothing that can be read. -/
theorem command_panics :
    registerCommand (fun _ => none) (fun _ => none) accentCommand defaultIntervals = .panic ∧
      heartbeatResponse (fun _ => none) (fun _ => none) accentCommand defaultIntervals = .panic :=
  ⟨rfl, rfl⟩

end FillingPilot
