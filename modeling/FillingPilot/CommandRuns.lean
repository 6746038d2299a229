/-
**Runs of commands.**

Commands of every type come one after the other, and some of them panic.  Each part of the device
follows the commands of its own type.  Every response carries the number that the session has when
it is sent, and the signature of it.

The file of definitions is read by a thread of its own, and takes away what came before.  A
configuration that is repeated is not looked at again, so that it does not bring back what is gone.

Main definitions:

* `FillingPilot.plcDetails`, `FillingPilot.changedDetails` — the details of a run;
* `FillingPilot.repliesTo`, `FillingPilot.expectedHeaders` — **what a run sends**;
* `FillingPilot.DeviceTracks` — **what a run leaves**.

Main results:

* `FillingPilot.device_tracks` — **each part follows the commands of its own type**;
* `FillingPilot.responses_expected` — **the responses of a run**: to which commands, in which order
  and with which number;
* `FillingPilot.definition_returns_iff` — **the exact condition** under which a definition comes
  back that a late file has taken away.
-/

import FillingPilot.CommandHandler
import FillingPilot.LoopIntervals

set_option relaxedAutoImplicit false
set_option autoImplicit false

namespace FillingPilot

open Json Rust Replica

/-! ### Commands of a run -/

section Runs

variable (term : Terminal)

/-- The detail of a `plcInfo` command. -/
def plcDetail (r : Received) : Option String :=
  if r.1.kind = .plcInfo then some r.1.detail else none

/-- The details of the `plcInfo` commands. -/
def plcDetails (received : List Received) : List String := received.filterMap plcDetail

/-- The definitions that a detail brings; none without a PLC. -/
def definitionPairs (fromStr : String → Option Value) (detail : String) :
    List (String × DataBlockDefinition) :=
  if (parsePlcList fromStr detail).isEmpty then [] else savedPairs (plcArray fromStr detail)

/-- The addresses that a detail brings, by the ids of the stations; none without a PLC. -/
def addressPairs (fromStr : String → Option Value) (detail : String) :
    List (String × String × UInt16) :=
  if (parsePlcList fromStr detail).isEmpty then []
  else (stationsIn fromStr detail).map fun f => (f.id, f.ip, f.port)

theorem definitionPairs_of_isEmpty {fromStr : String → Option Value} (detail : String)
    (h : (parsePlcList fromStr detail).isEmpty = true) : definitionPairs fromStr detail = [] :=
  if_pos h

theorem addressPairs_of_isEmpty {fromStr : String → Option Value} (detail : String)
    (h : (parsePlcList fromStr detail).isEmpty = true) : addressPairs fromStr detail = [] :=
  if_pos h

/-- The details with a PLC that differ from the one before. -/
def changedDetails (fromStr : String → Option Value) : String → List String → List String
  | _, [] => []
  | last, detail :: details =>
      if (parsePlcList fromStr detail).isEmpty ∨ detail = last then
        changedDetails fromStr last details
      else detail :: changedDetails fromStr detail details

/-- The interval of a loop that a command sets. -/
def intervalSetBy (l : IntervalLoop) (r : Received) : Option ℕ :=
  if r.1.kind = .config ∧ term.sumsUp r.1 = true then setBy term.fromStrConf l r.1.detail else none

/-- The number after a command. -/
def numberAfter (randomNumber : ℤ) (r : Received) : ℤ :=
  if r.1.kind = .reConnect ∧ term.sumsUp r.1 = true then
    match Registration.newRandom r.2.now r.1.detail randomNumber with
    | .ok newRandom => newRandom
    | .err _ | .panic => randomNumber
  else randomNumber

/-- The PLC ids and the types of the responses to a `plcInfo` command. -/
def plcInfoReplies (w : Surroundings) (detail : String) : List (String × String) :=
  let plcs := parsePlcList term.text.fromStr detail
  if plcs.isEmpty then []
  else
    (plcs.mapIdx fun i plc => (plc.id, if w.connects i then "plcInfo" else "plcInfoFail")) ++
      [("plcInfo", "plcInfo")]

/-- The PLC ids and the types of the responses to a command. -/
def repliesTo (r : Received) : List (String × String) :=
  if term.sumsUp r.1 = false then []
  else match r.1.kind with
    | .plcInfo => plcInfoReplies term r.2 r.1.detail
    | .read =>
        match term.fromStrRead r.1.detail with
        | .ok readReq => [(readReq.plcId, "read")]
        | .error _ => []
    | .write =>
        match term.fromStrWrite r.1.detail with
        | .ok writeReq =>
            if (hexDecode writeReq.hexContent).isSome then [(writeReq.plcId, "write")] else []
        | .error _ => []
    | .status => [("status", "status")]
    | .clientInfo => [("", "clientInfo")]
    | .reConnect | .upgrade | .restart | .reportSubmitted | .config | .empty | .unknown => []

/-- A response without its message. -/
structure Header where
  id : String
  plcId : String
  type : String
  randomNumber : ℤ
  sign : String
  deriving DecidableEq

/-- The header of a response. -/
def Response.header (r : Response) : Header := ⟨r.id, r.plcId, r.type, r.randomNumber, r.sign⟩

/-- The header of a response that is sent when the session has a number. -/
def headerOf (randomNumber : ℤ) (reply : String × String) : Header :=
  ⟨term.id, reply.1, reply.2, randomNumber, term.sign randomNumber⟩

/-- The headers of the responses to commands, from a number on. -/
def expectedHeaders : ℤ → List Received → List Header
  | _, [] => []
  | randomNumber, r :: received =>
      (repliesTo term r).map (headerOf term randomNumber) ++
        expectedHeaders (numberAfter term randomNumber r) received

section Steps

variable {term}

/-! ### The number and the responses -/

/-- **What a command leaves of the number.** -/
theorem randomNumber_receive (d : Device) (r : Received) :
    (d.receive term r).state.randomNumber = numberAfter term d.state.randomNumber r := by
  obtain ⟨cmd, w⟩ := r
  have hother (hkind : cmd.kind ≠ .reConnect) :
      numberAfter term d.state.randomNumber (cmd, w) = d.state.randomNumber :=
    if_neg fun h => hkind h.1
  rcases receive_cases term d cmd w with ⟨heq, hlost⟩ | ⟨handled, heq, hsum, hhandle⟩
  · rw [heq]
    -- the number is only set when the command does not panic
    unfold numberAfter
    split_ifs with hre
    · split
      · rename_i newRandom hnew
        have hok : d.state.handle term w cmd =
            .ok ⟨{ d.state with randomNumber := newRandom }, [], [], true⟩ := by
          simp only [CommandState.handle, hre.1, hnew, Outcome.ok_bind, Outcome.pure_eq]
        exact absurd hok (hlost hre.2 _)
      · rfl
      · rfl
    · rfl
  · rw [heq]
    cases hhandle with
    | reConnect hkind newRandom hnew =>
        simp only [numberAfter, hkind, hsum, hnew, and_self, if_true]
    | plcInfo hkind =>
        rw [hother (by simp [hkind])]
        rfl
    | plc hkind effects heffects =>
        rw [hother (by rcases hkind with hkind | hkind <;> simp [hkind])]
    | status hkind message => rw [hother (by simp [hkind])]
    | submitted hkind reportId => rw [hother (by simp [hkind])]
    | clientInfo hkind message => rw [hother (by simp [hkind])]
    | config hkind intervals log hconfig => rw [hother (by simp [hkind])]
    | ignored hkind =>
        rw [hother fun hre => by rw [hre] at hkind; simp at hkind]

theorem headers_plcInfo (st : CommandState) (w : Surroundings) (detail : String) :
    (st.handlePlcInfo term w detail).responses.map Response.header =
      (plcInfoReplies term w detail).map (headerOf term st.randomNumber) := by
  simp only [CommandState.handlePlcInfo, CommandState.plcInfoResponses, plcInfoReplies]
  split_ifs with hempty
  · rfl
  · rw [List.map_append, List.map_append]
    congr 1
    rw [List.mapIdx_eq_zipIdx_map, List.mapIdx_eq_zipIdx_map, List.map_map, List.map_map]
    refine List.map_congr_left fun e _ => ?_
    cases hconnects : w.connects e.2 with
    | true => simp [hconnects, CommandState.plcResponse, headerOf, Response.header,
        CommandState.respond, CommandState.withPlcInfo]
    | false => simp [hconnects, CommandState.plcResponse, headerOf, Response.header,
        CommandState.respond, CommandState.withPlcInfo]

theorem headers_handleRead (st : CommandState) (plc : Plc) (detail : String) :
    (((st.cloudSession term plc).handleRead detail).responses.map PlcResponse.toResponse).map
        Response.header =
      (match term.fromStrRead detail with
        | .ok readReq => [(readReq.plcId, "read")]
        | .error _ => []).map (headerOf term st.randomNumber) := by
  have hparse : (st.cloudSession term plc).fromStrRead detail = term.fromStrRead detail := rfl
  unfold CloudSession.handleRead
  rw [hparse]
  cases term.fromStrRead detail with
  | error e => rfl
  | ok readReq =>
      dsimp only
      split <;> rfl

theorem headers_handleWrite (st : CommandState) (plc : Plc) (detail : String) :
    (((st.cloudSession term plc).handleWrite detail).responses.map PlcResponse.toResponse).map
        Response.header =
      (match term.fromStrWrite detail with
        | .ok writeReq =>
            if (hexDecode writeReq.hexContent).isSome then [(writeReq.plcId, "write")] else []
        | .error _ => []).map (headerOf term st.randomNumber) := by
  have hparse : (st.cloudSession term plc).fromStrWrite detail = term.fromStrWrite detail := rfl
  unfold CloudSession.handleWrite
  rw [hparse]
  cases term.fromStrWrite detail with
  | error e => rfl
  | ok writeReq =>
      dsimp only
      cases hexDecode writeReq.hexContent with
      | none => rfl
      | some data =>
          dsimp only
          split <;> rfl

theorem type_of_kind_read {cmd : ServerCommand} (h : cmd.kind = .read) : cmd.type = "read" := by
  unfold ServerCommand.kind CommandKind.ofType at h
  split at h <;> first | assumption | cases h

theorem type_of_kind_write {cmd : ServerCommand} (h : cmd.kind = .write) : cmd.type = "write" := by
  unfold ServerCommand.kind CommandKind.ofType at h
  split at h <;> first | assumption | cases h

/-- **The responses to a command**: the session's number and its signature are in each. -/
theorem headers_receive (d : Device) (r : Received) :
    (d.receive term r).sent.map Response.header =
      d.sent.map Response.header ++
        (repliesTo term r).map (headerOf term d.state.randomNumber) := by
  obtain ⟨cmd, w⟩ := r
  have hsummed (hsum : term.sumsUp cmd = true) : ¬ term.sumsUp cmd = false := by simp [hsum]
  rcases receive_cases term d cmd w with ⟨heq, hlost⟩ | ⟨handled, heq, hsum, hhandle⟩
  · rw [heq]
    have hnone : repliesTo term (cmd, w) = [] := by
      unfold repliesTo
      split_ifs with hsum
      · rfl
      · rcases kind_of_not_ok (hlost (by simpa using hsum)) with hkind | hkind
        · simp only [hkind]
        · simp only [hkind]
    rw [hnone, List.map_nil, List.append_nil]
  · rw [heq]
    rw [List.map_append]
    congr 1
    unfold repliesTo
    rw [if_neg (hsummed hsum)]
    cases hhandle with
    | plcInfo hkind =>
        simp only [hkind]
        exact headers_plcInfo d.state w cmd.detail
    | reConnect hkind newRandom hnew =>
        simp only [hkind]
        rfl
    | plc hkind effects heffects =>
        subst heffects
        rcases hkind with hkind | hkind
        · simp only [hkind, CloudSession.handlePlcCommand, type_of_kind_read hkind]
          exact headers_handleRead d.state w.plc cmd.detail
        · simp only [hkind, CloudSession.handlePlcCommand, type_of_kind_write hkind]
          exact headers_handleWrite d.state w.plc cmd.detail
    | status hkind message =>
        simp only [hkind]
        rfl
    | submitted hkind reportId =>
        simp only [hkind]
        rfl
    | clientInfo hkind message =>
        simp only [hkind]
        rfl
    | config hkind intervals log hconfig =>
        simp only [hkind]
        rfl
    | ignored hkind =>
        simp only [List.mem_cons, List.not_mem_nil, or_false] at hkind
        rcases hkind with hkind | hkind | hkind | hkind | hkind <;> simp only [hkind] <;> rfl

/-! ### The stores -/

/-- A PLC that is listed has an address for the log. -/
theorem plcAddressText_of_plcConfig {item : Value} {plc : PlcConfig}
    (h : plcConfig item = some plc) : plcAddressText item ≠ none := by
  obtain ⟨id, -, h⟩ := Option.bind_eq_some_iff.1 h
  obtain ⟨ip, hip, h⟩ := Option.bind_eq_some_iff.1 h
  obtain ⟨port, hport, h⟩ := Option.bind_eq_some_iff.1 h
  simp [plcAddressText, hip, hport]

/-- A detail with a PLC has an address. -/
theorem parsePlcList_eq_nil {fromStr : String → Option Value} {detail : String}
    (h : detailAddresses fromStr detail = []) : parsePlcList fromStr detail = [] := by
  rw [parsePlcList, List.filterMap_eq_nil_iff]
  intro item hitem
  by_contra hplc
  obtain ⟨plc, hplc⟩ := Option.ne_none_iff_exists'.1 hplc
  cases hjson : fromStr detail with
  | none => simp [plcArray, hjson] at hitem
  | some json =>
      have hitem : item ∈ json.asArray.getD [] := by simpa [plcArray, hjson] using hitem
      have hne : (json.asArray.getD []).filterMap plcAddressText ≠ [] := fun hnil =>
        plcAddressText_of_plcConfig hplc (List.filterMap_eq_nil_iff.1 hnil item hitem)
      simp [detailAddresses, hjson, plcAddressTexts, hne] at h

/-- **A command that cannot be summed up has no PLC.** -/
theorem parsePlcList_of_not_sumsUp {cmd : ServerCommand} (h : term.sumsUp cmd = false) :
    parsePlcList term.text.fromStr cmd.detail = [] := by
  rcases summaryAfter_panicsIff term.text.fromStr " plc=" cmd.detail with
    ⟨hsplits, -⟩ | ⟨-, summary, hok⟩
  · exact parsePlcList_eq_nil hsplits.1
  · rw [Terminal.sumsUp, hok] at h
    cases h

/-- Without a PLC a detail is nothing to the stores. -/
theorem withPlcInfo_of_nil {st : CommandState} {detail : String}
    (h : parsePlcList term.text.fromStr detail = []) : st.withPlcInfo term detail = st := by
  simp [CommandState.withPlcInfo, FillingPilot.handlePlcInfo, h]

/-- A `plcInfo` command reaches the stores even where it panics, for then it has no PLC. -/
theorem state_receive_plcInfo (d : Device) {cmd : ServerCommand} (w : Surroundings)
    (hkind : cmd.kind = .plcInfo) :
    (d.receive term (cmd, w)).state = d.state.withPlcInfo term cmd.detail := by
  rcases receive_cases term d cmd w with ⟨heq, hlost⟩ | ⟨handled, heq, hsum, hhandle⟩
  · rw [heq]
    cases hsum : term.sumsUp cmd with
    | false => rw [withPlcInfo_of_nil (parsePlcList_of_not_sumsUp hsum)]
    | true =>
        rcases kind_of_not_ok (hlost hsum) with hkind' | hkind'
        · rw [hkind] at hkind'
          cases hkind'
        · rw [hkind] at hkind'
          cases hkind'
  · rw [heq]
    cases hhandle with
    | plcInfo _ => rfl
    | plc hkind' => rw [hkind] at hkind'; rcases hkind' with hkind' | hkind' <;> cases hkind'
    | ignored hkind' => rw [hkind] at hkind'; simp at hkind'
    | reConnect hkind' => rw [hkind] at hkind'; cases hkind'
    | status hkind' => rw [hkind] at hkind'; cases hkind'
    | submitted hkind' => rw [hkind] at hkind'; cases hkind'
    | clientInfo hkind' => rw [hkind] at hkind'; cases hkind'
    | config hkind' => rw [hkind] at hkind'; cases hkind'

variable (term) in
/-- **The other commands** leave the stores of the configuration alone, but for reports that are
acknowledged. -/
theorem state_receive_other (d : Device) {cmd : ServerCommand} (w : Surroundings)
    (hkind : cmd.kind ≠ .plcInfo) :
    ((d.receive term (cmd, w)).state.session = d.state.session ∨
        ∃ reportId,
          (d.receive term (cmd, w)).state.session = d.state.session.acknowledge reportId) ∧
      (d.receive term (cmd, w)).state.definitions = d.state.definitions := by
  rcases receive_cases term d cmd w with ⟨heq, hlost⟩ | ⟨handled, heq, hsum, hhandle⟩
  · rw [heq]
    exact ⟨Or.inl rfl, rfl⟩
  · rw [heq]
    cases hhandle with
    | plcInfo hkind' => exact absurd hkind' hkind
    | submitted hkind' reportId => exact ⟨Or.inr ⟨reportId, rfl⟩, rfl⟩
    | reConnect | plc | status | clientInfo | config | ignored => exact ⟨Or.inl rfl, rfl⟩

/-- **What a command leaves of the intervals.** -/
theorem ms_receive (d : Device) (r : Received) (l : IntervalLoop) :
    (d.receive term r).state.intervals.ms l =
      (intervalSetBy term l r).getD (d.state.intervals.ms l) := by
  obtain ⟨cmd, w⟩ := r
  have hother (hkind : cmd.kind ≠ .config) : intervalSetBy term l (cmd, w) = none :=
    if_neg fun h => hkind h.1
  rcases receive_cases term d cmd w with ⟨heq, hlost⟩ | ⟨handled, heq, hsum, hhandle⟩
  · rw [heq]
    unfold intervalSetBy
    split_ifs with hset
    · -- the handler has panicked, and the detail is no configuration
      have hpanic : ∀ out,
          handleConfig term.fromStrConf cmd.detail d.state.intervals ≠ .ok out := by
        intro out hout
        refine hlost hset.2 ⟨{ d.state with intervals := out.1 }, [], [], false⟩ ?_
        simp only [CommandState.handle, hset.1, hout, Outcome.ok_bind, Outcome.pure_eq]
      rw [setBy_of_panic hpanic, Option.getD_none]
    · rfl
  · rw [heq]
    cases hhandle with
    | config hkind intervals log hconfig =>
        rw [intervalSetBy, if_pos ⟨hkind, hsum⟩]
        exact handleConfig_ms hconfig l
    | plcInfo hkind =>
        rw [hother (by simp [hkind])]
        rfl
    | reConnect hkind => rw [hother (by simp [hkind])]; rfl
    | plc hkind => rw [hother (by rcases hkind with hkind | hkind <;> simp [hkind])]; rfl
    | status hkind => rw [hother (by simp [hkind])]; rfl
    | submitted hkind => rw [hother (by simp [hkind])]; rfl
    | clientInfo hkind => rw [hother (by simp [hkind])]; rfl
    | ignored hkind =>
        rw [hother fun hconfig => by rw [hconfig] at hkind; simp at hkind]
        rfl

/-! ### Whole runs -/

/-- **The responses of a run**: for each command in turn the PLCs and the types that the command
alone decides, with the id of the device, the number that was set last and its signature. -/
theorem responses_expected (d : Device) (received : List Received) :
    (afterReceived term d received).sent.map Response.header =
      d.sent.map Response.header ++ expectedHeaders term d.state.randomNumber received := by
  induction received generalizing d with
  | nil => rw [expectedHeaders, List.append_nil]; rfl
  | cons r received ih =>
      have hrun : afterReceived term d (r :: received) =
          afterReceived term (d.receive term r) received := rfl
      rw [hrun, ih, headers_receive, randomNumber_receive, expectedHeaders, List.append_assoc]

theorem randomNumber_afterReceived (d : Device) (received : List Received) :
    (afterReceived term d received).state.randomNumber =
      received.foldl (numberAfter term) d.state.randomNumber := by
  induction received generalizing d with
  | nil => rfl
  | cons r received ih =>
      have hrun : afterReceived term d (r :: received) =
          afterReceived term (d.receive term r) received := rfl
      rw [hrun, ih, randomNumber_receive, List.foldl_cons]

theorem ms_afterReceived (d : Device) (received : List Received) (l : IntervalLoop) :
    (afterReceived term d received).state.intervals.ms l =
      (received.filterMap (intervalSetBy term l)).getLast?.getD (d.state.intervals.ms l) := by
  induction received using List.reverseRecOn with
  | nil => rfl
  | append_singleton received r ih =>
      have hrun : afterReceived term d (received ++ [r]) =
          (afterReceived term d received).receive term r := by simp [afterReceived]
      rw [hrun, ms_receive, ih]
      cases hset : intervalSetBy term l r with
      | none => simp [List.filterMap_append, hset]
      | some ms => simp [List.filterMap_append, hset]

variable (term) in
theorem lastPlcDetail_withPlcInfo (st : CommandState) (detail : String) :
    (st.withPlcInfo term detail).session.lastPlcDetail =
      if (parsePlcList term.text.fromStr detail).isEmpty then st.session.lastPlcDetail
      else detail := by
  cases hplcs : (parsePlcList term.text.fromStr detail).isEmpty with
  | true =>
      rw [withPlcInfo_of_nil (List.isEmpty_iff.1 hplcs)]
      simp
  | false =>
      by_cases hchanged : detail = st.session.lastPlcDetail
      · subst hchanged
        simp [CommandState.withPlcInfo, handlePlcInfo]
      · have hlast := (handlePlcInfo_changed hplcs (Ne.symm hchanged)).1
        simpa [CommandState.withPlcInfo] using hlast

variable (term) in
theorem definitions_withPlcInfo (st : CommandState) (detail : String) :
    (fun javaType => (st.withPlcInfo term detail).definitions.lookup javaType) =
      overlay
        (if detail = st.session.lastPlcDetail then []
          else definitionPairs term.text.fromStr detail)
        (fun javaType => st.definitions.lookup javaType) := by
  cases hplcs : (parsePlcList term.text.fromStr detail).isEmpty with
  | true =>
      rw [withPlcInfo_of_nil (List.isEmpty_iff.1 hplcs)]
      simp [definitionPairs, hplcs]
  | false =>
      by_cases hchanged : detail = st.session.lastPlcDetail
      · subst hchanged
        simp [CommandState.withPlcInfo]
      · simp [CommandState.withPlcInfo, hplcs, hchanged, Ne.symm hchanged, definitionPairs,
          saveMeta_eq, lookup_insertPairs_eq_overlay]

variable (term) in
theorem addresses_withPlcInfo (st : CommandState) (detail : String) :
    (fun id => (st.withPlcInfo term detail).session.fillStations.lookup id) =
      overlay
        (if detail = st.session.lastPlcDetail then [] else addressPairs term.text.fromStr detail)
        (fun id => st.session.fillStations.lookup id) := by
  cases hplcs : (parsePlcList term.text.fromStr detail).isEmpty with
  | true =>
      rw [withPlcInfo_of_nil (List.isEmpty_iff.1 hplcs)]
      simp [addressPairs, hplcs]
  | false =>
      by_cases hchanged : detail = st.session.lastPlcDetail
      · subst hchanged
        simp [CommandState.withPlcInfo, handlePlcInfo]
      · have hbefore : ((((st.session.storeDetail detail).updatePlcList
            (parsePlcList term.text.fromStr detail)).updateStations
              (stationsIn term.text.fromStr detail)).updateMonitors
                (monitorsIn term.text.fromStr detail)).fillStations =
            st.session.fillStations := by
          simp only [Session.updateMonitors, Session.updateStations]
          split_ifs <;> rfl
        simp [CommandState.withPlcInfo, handlePlcInfo, hplcs, hchanged, Ne.symm hchanged,
          addressPairs, Session.updateAddresses, hbefore, lookup_insertPairs_eq_overlay]

/-- **A map that only the details change**: after a run it has what the details brought that differ
from the one before. -/
theorem lookup_afterReceived {β : Type} {look : CommandState → String → Option β}
    {pairs : String → List (String × β)}
    (hpairs : ∀ detail, (parsePlcList term.text.fromStr detail).isEmpty = true → pairs detail = [])
    (hplc : ∀ st detail, look (st.withPlcInfo term detail) =
      overlay (if detail = st.session.lastPlcDetail then [] else pairs detail) (look st))
    (hother : ∀ (d : Device) (cmd : ServerCommand) (w : Surroundings), cmd.kind ≠ .plcInfo →
      look (d.receive term (cmd, w)).state = look d.state)
    (d : Device) (received : List Received) :
    look (afterReceived term d received).state =
      overlay ((changedDetails term.text.fromStr d.state.session.lastPlcDetail
        (plcDetails received)).flatMap pairs) (look d.state) := by
  induction received generalizing d with
  | nil => rfl
  | cons r received ih =>
      obtain ⟨cmd, w⟩ := r
      have hrun : afterReceived term d ((cmd, w) :: received) =
          afterReceived term (d.receive term (cmd, w)) received := rfl
      rw [hrun, ih]
      by_cases hkind : cmd.kind = .plcInfo
      · have hdetails : plcDetails ((cmd, w) :: received) = cmd.detail :: plcDetails received :=
          List.filterMap_cons_some (if_pos hkind)
        rw [state_receive_plcInfo d w hkind, hplc, lastPlcDetail_withPlcInfo, hdetails,
          changedDetails]
        by_cases hsame : cmd.detail = d.state.session.lastPlcDetail
        · simp [hsame]
        · cases hplcs : (parsePlcList term.text.fromStr cmd.detail).isEmpty with
          | true => simp [hpairs _ hplcs]
          | false => simp [hsame, overlay_append]
      · have hdetails : plcDetails ((cmd, w) :: received) = plcDetails received :=
          List.filterMap_cons_none (if_neg hkind)
        have hlast : (d.receive term (cmd, w)).state.session.lastPlcDetail =
            d.state.session.lastPlcDetail := by
          rcases (state_receive_other term d w hkind).1 with hsession | ⟨reportId, hsession⟩
          · rw [hsession]
          · rw [hsession]
            rfl
        rw [hdetails, hlast, hother d cmd w hkind]

variable (term) in
/-- **The definitions after a run**: those of the details that differ from the one before. -/
theorem definitions_afterReceived (d : Device) (received : List Received) :
    (fun javaType => (afterReceived term d received).state.definitions.lookup javaType) =
      overlay ((changedDetails term.text.fromStr d.state.session.lastPlcDetail
          (plcDetails received)).flatMap (definitionPairs term.text.fromStr))
        (fun javaType => d.state.definitions.lookup javaType) := by
  refine @lookup_afterReceived term _ (fun st javaType => st.definitions.lookup javaType) _
    definitionPairs_of_isEmpty (definitions_withPlcInfo term) (fun d cmd w hkind => ?_) d received
  rw [(state_receive_other term d w hkind).2]

variable (term) in
/-- **The addresses after a run**: those of the details that differ from the one before. -/
theorem addresses_afterReceived (d : Device) (received : List Received) :
    (fun id => (afterReceived term d received).state.session.fillStations.lookup id) =
      overlay ((changedDetails term.text.fromStr d.state.session.lastPlcDetail
          (plcDetails received)).flatMap (addressPairs term.text.fromStr))
        (fun id => d.state.session.fillStations.lookup id) := by
  refine @lookup_afterReceived term _ (fun st id => st.session.fillStations.lookup id) _
    addressPairs_of_isEmpty (addresses_withPlcInfo term) (fun d cmd w hkind => ?_) d received
  rcases (state_receive_other term d w hkind).1 with hsession | ⟨reportId, hsession⟩
  · rw [hsession]
  · rw [hsession]
    rfl

/-- Details that repeat the one before add nothing. -/
theorem overlay_changedDetails {β : Type} {fromStr : String → Option Value}
    {pairs : String → List (String × β)}
    (hpairs : ∀ detail, (parsePlcList fromStr detail).isEmpty = true → pairs detail = [])
    {last : String} {m : String → Option β} (hlast : overlay (pairs last) m = m)
    (details : List String) :
    overlay ((changedDetails fromStr last details).flatMap pairs) m =
      overlay (details.flatMap pairs) m := by
  induction details generalizing last m with
  | nil => rfl
  | cons detail details ih =>
      rw [changedDetails, List.flatMap_cons, overlay_append]
      split_ifs with hskip
      · have hsame : overlay (pairs detail) m = m := by
          rcases hskip with hnone | rfl
          · rw [hpairs detail hnone, overlay_nil]
          · exact hlast
        rw [hsame]
        exact ih hlast
      · rw [List.flatMap_cons, overlay_append]
        exact ih (overlay_self _ m)

/-- A session without a detail has what all details brought last. -/
theorem overlay_allDetails {β : Type} {fromStr : String → Option Value}
    {pairs : String → List (String × β)}
    (hpairs : ∀ detail, (parsePlcList fromStr detail).isEmpty = true → pairs detail = [])
    (hempty : fromStr "" = none) (m : String → Option β) (details : List String) :
    overlay ((changedDetails fromStr "" details).flatMap pairs) m =
      overlay (details.flatMap pairs) m := by
  have hnone : pairs "" = [] :=
    hpairs "" (List.isEmpty_iff.2 (parsePlcList_of_none fromStr hempty))
  exact overlay_changedDetails hpairs (by rw [hnone, overlay_nil]) details

/-- An acknowledgement changes nothing of what the commands track. -/
theorem tracks_acknowledge {fromStr : String → Option Value} {details : List String} {s : Session}
    (hs : Tracks fromStr details s) (reportId : ℤ) :
    Tracks fromStr details (s.acknowledge reportId) where
  stations f := by
    rw [← hs.stations f]
    exact mem_deleteReport
  monitors := hs.monitors
  stored := hs.stored

/-- **The PLC list follows the latest configuration**, like the other stores. -/
structure ListTracks (fromStr : String → Option Value) (details : List String) (s : Session) :
    Prop where
  latest : s.plcList = latest fromStr (parsePlcList fromStr) details
  stored : parsePlcList fromStr s.lastPlcDetail ≠ [] →
    s.plcList = parsePlcList fromStr s.lastPlcDetail

theorem handlePlcInfo_listTracks {fromStr : String → Option Value} {details : List String}
    {s : Session} (hs : ListTracks fromStr details s) (detail : String) :
    ListTracks fromStr (details ++ [detail]) (handlePlcInfo fromStr s detail) := by
  cases hplcs : (parsePlcList fromStr detail).isEmpty with
  | true =>
      have hrun : handlePlcInfo fromStr s detail = s := by simp [handlePlcInfo, hplcs]
      rw [hrun]
      refine ⟨?_, hs.stored⟩
      rw [latest_concat, hplcs, Bool.true_or, if_pos rfl]
      exact hs.latest
  | false =>
      have hlatest : FillingPilot.latest fromStr (parsePlcList fromStr) (details ++ [detail]) =
          parsePlcList fromStr detail := by simp [latest_concat, hplcs]
      have hlist : (handlePlcInfo fromStr s detail).lastPlcDetail = detail ∧
          (handlePlcInfo fromStr s detail).plcList = parsePlcList fromStr detail := by
        by_cases hchanged : s.lastPlcDetail = detail
        · subst hchanged
          have hrun : handlePlcInfo fromStr s s.lastPlcDetail = s := by simp [handlePlcInfo]
          rw [hrun]
          exact ⟨rfl, hs.stored (List.isEmpty_eq_false_iff.1 hplcs)⟩
        · refine ⟨(handlePlcInfo_changed hplcs hchanged).1, ?_⟩
          have hrun : handlePlcInfo fromStr s detail =
              ((((s.storeDetail detail).updatePlcList (parsePlcList fromStr detail)).updateStations
                (stationsIn fromStr detail)).updateMonitors
                  (monitorsIn fromStr detail)).updateAddresses (stationsIn fromStr detail) := by
            simp [handlePlcInfo, hplcs, hchanged]
          rw [hrun]
          simp only [Session.updateAddresses, Session.updateMonitors, Session.updateStations]
          split_ifs <;> rfl
      exact ⟨hlist.2.trans hlatest.symm, fun _ => by rw [hlist.1, hlist.2]⟩

/-- **The stores after a run.** -/
theorem stores_afterReceived (hempty : term.text.fromStr "" = none) {d : Device}
    (hd : d.state.session = freshSession) (received : List Received) :
    Tracks term.text.fromStr (plcDetails received) (afterReceived term d received).state.session ∧
      ListTracks term.text.fromStr (plcDetails received)
        (afterReceived term d received).state.session := by
  induction received using List.reverseRecOn with
  | nil =>
      have hfresh : (afterReceived term d []).state.session = freshSession := hd
      have hnone := parsePlcList_of_none term.text.fromStr hempty
      rw [hfresh]
      exact ⟨afterCommands_tracks hempty [], ⟨rfl, fun hne => absurd hnone hne⟩⟩
  | append_singleton received r ih =>
      obtain ⟨cmd, w⟩ := r
      have hrun : afterReceived term d (received ++ [(cmd, w)]) =
          (afterReceived term d received).receive term (cmd, w) := by simp [afterReceived]
      rw [hrun]
      by_cases hkind : cmd.kind = .plcInfo
      · have hdetails :
            plcDetails (received ++ [(cmd, w)]) = plcDetails received ++ [cmd.detail] := by
          simp [plcDetails, plcDetail, hkind]
        rw [hdetails, state_receive_plcInfo _ w hkind]
        exact ⟨handlePlcInfo_tracks ih.1 cmd.detail, handlePlcInfo_listTracks ih.2 cmd.detail⟩
      · have hdetails : plcDetails (received ++ [(cmd, w)]) = plcDetails received := by
          simp [plcDetails, plcDetail, hkind]
        rw [hdetails]
        rcases (state_receive_other term (afterReceived term d received) w hkind).1 with
          hsame | ⟨reportId, hacknowledged⟩
        · rw [hsame]
          exact ih
        · rw [hacknowledged]
          exact ⟨tracks_acknowledge ih.1 reportId, ⟨ih.2.latest, ih.2.stored⟩⟩

/-- **What a run leaves**, each part by the commands of its own type: the stores have the latest
configuration, each station the last address that came for its id and each Java type the last
definition, also of earlier details, each loop the interval set last and the session the number set
last; the statuses are only asked for. -/
structure DeviceTracks (term : Terminal) (start : CommandState) (received : List Received)
    (st : CommandState) : Prop where
  stores : Tracks term.text.fromStr (plcDetails received) st.session
  plcList : st.session.plcList =
    latest term.text.fromStr (parsePlcList term.text.fromStr) (plcDetails received)
  addresses : ∀ id, st.session.fillStations.lookup id =
    lastValue id ((plcDetails received).flatMap (addressPairs term.text.fromStr))
  definitions : ∀ javaType, st.definitions.lookup javaType =
    (lastValue javaType ((plcDetails received).flatMap (definitionPairs term.text.fromStr))).or
      (start.definitions.lookup javaType)
  intervals : ∀ l, st.intervals.ms l =
    (received.filterMap (intervalSetBy term l)).getLast?.getD (start.intervals.ms l)
  randomNumber : st.randomNumber = received.foldl (numberAfter term) start.randomNumber
  statuses : st.statuses = start.statuses

theorem statuses_receive (d : Device) (r : Received) :
    (d.receive term r).state.statuses = d.state.statuses := by
  rcases receive_cases term d r.1 r.2 with ⟨heq, -⟩ | ⟨handled, heq, -, hhandle⟩
  · rw [heq]
  · rw [heq]
    cases hhandle <;> rfl

/-- **Each part follows the commands of its own type**, whatever comes in between, and also where
commands panic. -/
theorem device_tracks (hempty : term.text.fromStr "" = none) (definitions : MetaCache)
    (statuses : StatusCache) (intervals : Intervals) (randomNumber : ℤ)
    (received : List Received) :
    DeviceTracks term (freshDevice definitions statuses intervals randomNumber).state received
      (afterReceived term (freshDevice definitions statuses intervals randomNumber)
        received).state := by
  have hstores := stores_afterReceived hempty (d := freshDevice definitions statuses intervals
    randomNumber) rfl received
  have hlast : (freshDevice definitions statuses intervals
      randomNumber).state.session.lastPlcDetail = "" := rfl
  refine ⟨hstores.1, hstores.2.latest, fun id => ?_, fun javaType => ?_,
    fun l => ms_afterReceived _ _ l, randomNumber_afterReceived _ _, ?_⟩
  · have hrun := addresses_afterReceived term
      (freshDevice definitions statuses intervals randomNumber) received
    rw [hlast, overlay_allDetails addressPairs_of_isEmpty hempty] at hrun
    exact (congrFun hrun id).trans (Option.or_none ..)
  · have hrun := definitions_afterReceived term
      (freshDevice definitions statuses intervals randomNumber) received
    rw [hlast, overlay_allDetails definitionPairs_of_isEmpty hempty] at hrun
    exact congrFun hrun javaType
  · induction received using List.reverseRecOn with
    | nil => rfl
    | append_singleton received r ih =>
        have hrun : afterReceived term (freshDevice definitions statuses intervals randomNumber)
            (received ++ [r]) = (afterReceived term (freshDevice definitions statuses intervals
              randomNumber) received).receive term r := by simp [afterReceived]
        rw [hrun, statuses_receive]
        exact ih (stores_afterReceived hempty rfl received)

end Steps

end Runs

/-- A device that reads some texts. -/
def sampleTerminal (fromStr : String → Option Value) : Terminal where
  id := "E1"
  sign n := toString n
  text := ⟨fun _ => none, fromStr⟩
  fromStrConf := slowerConf
  fromStrRead _ := .error "expected value"
  fromStrWrite _ := .error "expected value"
  hexError _ := "Odd number of digits"

/-- Every connection goes through, and no PLC answers. -/
def silentSurroundings : Surroundings where
  now := none
  connects _ := true
  plc := ⟨fun _ _ _ _ _ => .error "timeout", fun _ _ _ _ _ => .error "timeout"⟩

/-- A command, with nothing that answers. -/
def commandOf (type detail : String) : Received := (⟨type, detail⟩, silentSurroundings)

/-- A configuration, another number, and the configuration again. -/
def sampleReceived : List Received :=
  [commandOf "plcInfo" bareText, commandOf "reConnect" "7", commandOf "config" "slower",
    commandOf "plcInfo" bareText]

example : expectedHeaders (sampleTerminal sampleFromStr) 1 sampleReceived =
    [⟨"E1", "P1", "plcInfo", 1, "1"⟩, ⟨"E1", "plcInfo", "plcInfo", 1, "1"⟩,
      ⟨"E1", "P1", "plcInfo", 7, "7"⟩, ⟨"E1", "plcInfo", "plcInfo", 7, "7"⟩] := by decide

theorem device_tracks_sample :
    DeviceTracks (sampleTerminal sampleFromStr)
      (freshDevice ∅ ⟨∅, ∅⟩ ⟨5000, 5000, 1000⟩ 1).state sampleReceived
      (afterReceived (sampleTerminal sampleFromStr) (freshDevice ∅ ⟨∅, ∅⟩ ⟨5000, 5000, 1000⟩ 1)
        sampleReceived).state :=
  device_tracks (rfl : sampleFromStr "" = none) ∅ ⟨∅, ∅⟩ ⟨5000, 5000, 1000⟩ 1 sampleReceived

/-! ### A file that is read late -/

/-- **The exact condition** under which a definition comes back that a file has taken away: a detail
with the definition comes that differs from the one before.  A repeated configuration does not
bring it back. -/
theorem definition_returns_iff {term : Terminal} {d : Device} {file : Option String}
    {loaded : List (String × DataBlockDefinition)}
    (hread : readDocument term.text MetaCache.fromJson file = some loaded) {javaType : String}
    (hmissing : javaType ∉ loaded.map Prod.fst) (received : List Received) :
    (afterReceived term (d.loadDefinitions term file) received).state.definitions.lookup javaType ≠
        none ↔
      ∃ detail ∈ changedDetails term.text.fromStr d.state.session.lastPlcDetail
          (plcDetails received),
        javaType ∈ (definitionPairs term.text.fromStr detail).map Prod.fst := by
  have hrun := congrFun (definitions_afterReceived term (d.loadDefinitions term file) received)
    javaType
  have hloaded : (d.loadDefinitions term file).state.definitions.lookup javaType = none := by
    have hcache : (d.loadDefinitions term file).state.definitions =
        (∅ : MetaCache).insertPairs loaded := by
      simp [Device.loadDefinitions, MetaCache.loadFromDisk, hread]
    rw [hcache, AList.lookup_insertPairs_of_notMem hmissing, AList.lookup_empty]
  have hsession : (d.loadDefinitions term file).state.session = d.state.session := rfl
  simp only [overlay, hloaded, Option.or_none, hsession] at hrun
  rw [hrun, ne_eq, lastValue_eq_none_iff, not_not, List.map_flatMap, List.mem_flatMap]

/-- The parser of a device whose configuration has the definition of a tank. -/
def tankFromStr (detail : String) : Option Value :=
  if detail = "tank" then
    some (.array [.object (plcFields "1" ++ [("dataMeta", .array [tankDefinition.toJson])])])
  else if detail = "labels" then some labelCache.toJson
  else none

/-- A device that has the configuration. -/
def tankDevice : Device :=
  afterReceived (sampleTerminal tankFromStr) (freshDevice ∅ ⟨∅, ∅⟩ ⟨5000, 5000, 1000⟩ 1)
    [commandOf "plcInfo" "tank"]

theorem definition_returns_iff_repeated :
    tankDevice.state.definitions.lookup "Tank" = some tankDefinition ∧
      (afterReceived (sampleTerminal tankFromStr)
        (tankDevice.loadDefinitions (sampleTerminal tankFromStr) (some "labels"))
        [commandOf "plcInfo" "tank", commandOf "plcInfo" "tank"]).state.definitions.lookup
          "Tank" = none := by
  have hread : readDocument (sampleTerminal tankFromStr).text MetaCache.fromJson (some "labels") =
      some (labelCache.entries.map fun e => (e.1, e.2)) := by rfl
  refine ⟨by rfl, ?_⟩
  by_contra hback
  have hmissing : "Tank" ∉ (labelCache.entries.map fun e => (e.1, e.2)).map Prod.fst := by decide
  obtain ⟨detail, hdetail, -⟩ := (definition_returns_iff (d := tankDevice) hread hmissing
    [commandOf "plcInfo" "tank", commandOf "plcInfo" "tank"]).1 hback
  have hnone : changedDetails (sampleTerminal tankFromStr).text.fromStr
      tankDevice.state.session.lastPlcDetail
        (plcDetails [commandOf "plcInfo" "tank", commandOf "plcInfo" "tank"]) = [] := by rfl
  rw [hnone] at hdetail
  cases hdetail

end FillingPilot
