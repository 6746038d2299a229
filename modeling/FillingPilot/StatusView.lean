/-
**What the server knows of the statuses.**

A pass over the stations sends the statuses that have changed, and those whose last message is more
than 30 seconds old, in one message that is not sent again when it is lost.  The command `status` is
answered with everything that is kept; the answer is sent by another task, and may arrive after a
message that is newer.  After a restart nothing is kept, and every status is sent once more.

Main definitions:

* `FillingPilot.getAllStatuses` — the answer to the command;
* `FillingPilot.StatusLink`, `FillingPilot.linkStep` — the passes, the messages and answers under
  way, and the last status of each station id that has reached the server;
* `FillingPilot.FaithfulLink` — a message that is lost has nothing new, and no answer arrives late;
* `FillingPilot.replicaOf` — the link as a copy that is kept by messages.

Main results:

* `FillingPilot.lookup_pass` — what is kept after a pass is what it sends, or was kept before;
* `FillingPilot.linkStep_follows` — a step of the link is a run of the protocol for copies;
* `FillingPilot.view_current` — **the server is up to date** in runs in which no change is lost and
  no answer arrives late;
* `FillingPilot.view_repaired` — **losses are repaired**: whatever was lost before, a message that
  arrives more than 30 seconds after the last one brings the server up to date.
-/

import FillingPilot.Replica
import FillingPilot.Simulation
import FillingPilot.StatusRuns

set_option relaxedAutoImplicit false
set_option autoImplicit false

namespace FillingPilot

open Rust

/-! ### The link -/

/-- `get_all_statuses`. -/
def getAllStatuses (cache : StatusCache) : List StationStatus :=
  cache.statusCache.entries.map fun e => ⟨e.1, e.2⟩

/-- A status as an entry of a map. -/
def StationStatus.entry (s : StationStatus) : String × String := (s.fillStation, s.status)

/-- The passes of the process, what it has sent and not heard about, and the last status of each
station id that the server was told. -/
structure StatusLink where
  status : StatusState
  /-- The message of the last pass. -/
  pending : Option (List StationStatus)
  /-- The answers to `status` commands. -/
  answers : List (List StationStatus)
  view : String → Option String

/-- What can happen on the link. -/
inductive LinkEvent
  /-- A pass at a time, over the stations with their answers. -/
  | pass (now : ℕ) (requests : List StatusRequest)
  /-- The message of the pass arrives, or sending it fails. -/
  | passEnd (delivered : Bool)
  /-- A command `status` has everything read that is kept. -/
  | statusCommand
  | answerEnd (i : ℕ) (delivered : Bool)
  /-- The process starts again. -/
  | restart (clock : ℕ)

/-- The view of the server after a message. -/
def heard (message : List StationStatus) (view : String → Option String) :
    String → Option String :=
  Replica.overlay (message.map StationStatus.entry) view

/-- One step of the link: the loop sends the message of a pass before the next pass. -/
def linkStep (st : StatusLink) : LinkEvent → Option StatusLink
  | .pass now requests =>
      match st.pending with
      | none => (statusStep st.status (now, requests)).map fun status =>
          { st with
            status := status
            pending := (status.passes.getLast?.map StatusPass.changedList).filter (· ≠ []) }
      | some _ => none
  | .passEnd delivered => st.pending.map fun message =>
      { st with pending := none, view := if delivered then heard message st.view else st.view }
  | .statusCommand => some { st with answers := st.answers ++ [getAllStatuses st.status.cache] }
  | .answerEnd i delivered => st.answers[i]?.map fun answer =>
      { st with
        answers := st.answers.eraseIdx i
        view := if delivered then heard answer st.view else st.view }
  | .restart clock => some { st with status := freshStatus clock, pending := none, answers := [] }

/-- A process that starts, and a server with any view. -/
def linkStart (clock : ℕ) (view : String → Option String) : StatusLink :=
  ⟨freshStatus clock, none, [], view⟩

/-! ### Passes -/

/-- The clock does not go back from one pass to the next. -/
def LinkForward (st : StatusLink) : LinkEvent → Prop
  | .pass now _ => st.status.clock ≤ now
  | _ => True

/-- **What a pass does**: it goes through, and keeps what it sends, or what was kept before. -/
theorem lookup_pass {st : StatusState} (h : StatusInv st) {now : ℕ} (hnow : st.clock ≤ now)
    (requests : List StatusRequest) :
    ∃ cache changedList, readStatuses now requests st.cache = .ok (cache, changedList) ∧
      statusStep st (now, requests) =
        some ⟨cache, now, st.passes ++ [⟨now, statusReads requests, changedList⟩]⟩ ∧
      StatusInv ⟨cache, now, st.passes ++ [⟨now, statusReads requests, changedList⟩]⟩ ∧
      ∀ id, cache.statusCache.lookup id =
        (statusesOf id changedList).getLast?.or (st.cache.statusCache.lookup id) := by
  obtain ⟨cache, changedList, hreads, -, -⟩ :=
    readStatuses_tracks requests fun id => (h.tracks id).forward hnow
  have hstep : statusStep st (now, requests) =
      some ⟨cache, now, st.passes ++ [⟨now, statusReads requests, changedList⟩]⟩ := by
    rw [statusStep, hreads]
  have hforward : PassForward st (now, requests) := hnow
  obtain ⟨st', hst', hinv⟩ := statusStep_inv hforward h
  obtain rfl := Option.some.inj (hstep.symm.trans hst')
  refine ⟨cache, changedList, hreads, hstep, hinv, fun id => ?_⟩
  -- what is kept under an id is what its last entry says
  have hbefore := (h.tracks id).cached.trans (h.tracks id).sentStatus.symm
  have hafter := (hinv.tracks id).cached.trans (hinv.tracks id).sentStatus.symm
  have hentries : StatusState.entries
      ⟨cache, now, st.passes ++ [⟨now, statusReads requests, changedList⟩]⟩ id =
        st.entries id ++ entriesAt id now changedList := by
    simp [StatusState.entries]
  have hlast : (entriesAt id now changedList).getLast?.map Prod.snd =
      (statusesOf id changedList).getLast? := by
    rw [entriesAt, List.getLast?_map, Option.map_map]
    exact Option.map_id'
  rw [hentries, List.getLast?_append, Option.map_or, hlast, ← hbefore] at hafter
  exact hafter

theorem readStatus_sent_of_late {now : ℕ} {station : FillStation} {answer : Option (List UInt8)}
    {read : StationStatus} (hread : statusRead station answer = some read) {cache : StatusCache}
    (hlate : ∀ t ∈ cache.lastStatusSentTime.lookup station.id, t + 30000 < now) :
    readStatus now station answer cache =
      .ok (⟨cache.statusCache.insert station.id read.status,
        cache.lastStatusSentTime.insert station.id now⟩, some read) := by
  have hsend : shouldSend now (cache.statusCache.lookup station.id) read.status
      (cache.lastStatusSentTime.lookup station.id) = .ok true := by
    unfold shouldSend
    split_ifs with hchanged
    · rfl
    · cases hlast : cache.lastStatusSentTime.lookup station.id with
      | none => rfl
      | some last =>
          have hpassed : last + 30000 < now := hlate last hlast
          have hle : last ≤ now := by omega
          simp only [MonitorProcessor.elapsed, if_pos hle, Outcome.ok_bind, Outcome.pure_eq,
            Outcome.ok.injEq, decide_eq_true_eq]
          omega
  simp only [readStatus, hread, hsend, Outcome.ok_bind, if_true, Outcome.pure_eq]

theorem fillStation_of_statusRead {station : FillStation} {answer : Option (List UInt8)}
    {read : StationStatus} (h : statusRead station answer = some read) :
    read.fillStation = station.id := by
  unfold statusRead at h
  split_ifs at h
  obtain ⟨statusData, -, rfl⟩ := Option.map_eq_some_iff.1 h
  rfl

theorem lastSent_readStatus_ne {now : ℕ} {station : FillStation} {answer : Option (List UInt8)}
    {cache cache' : StatusCache} {sent : Option StationStatus} {id : String}
    (h : readStatus now station answer cache = .ok (cache', sent))
    (hne : ∀ read, statusRead station answer = some read → station.id ≠ id) :
    cache'.lastStatusSentTime.lookup id = cache.lastStatusSentTime.lookup id := by
  unfold readStatus at h
  cases hread : statusRead station answer with
  | none =>
      simp only [hread, Outcome.ok.injEq, Prod.mk.injEq] at h
      rw [← h.1]
  | some read =>
      simp only [hread] at h
      obtain ⟨send, -, h⟩ := Outcome.bind_eq_ok.1 h
      cases send with
      | true =>
          simp only [if_true, Outcome.pure_eq, Outcome.ok.injEq, Prod.mk.injEq] at h
          rw [← h.1]
          exact AList.lookup_insert_ne (hne read hread).symm
      | false =>
          simp only [Bool.false_eq_true, if_false, Outcome.pure_eq, Outcome.ok.injEq,
            Prod.mk.injEq] at h
          rw [← h.1]

/-- **A pass sends what it reads late**: an id that the pass reads, and whose last message is more
than 30 seconds old, is in its message. -/
theorem statusesOf_ne_nil_of_late {now : ℕ} {id : String} :
    ∀ {requests : List StatusRequest} {cache cache' : StatusCache}
      {changedList : List StationStatus},
      readStatuses now requests cache = .ok (cache', changedList) →
      (∀ t ∈ cache.lastStatusSentTime.lookup id, t + 30000 < now) →
      (∃ read ∈ statusReads requests, read.fillStation = id) →
      statusesOf id changedList ≠ [] := by
  intro requests
  induction requests with
  | nil =>
      rintro cache cache' changedList - - ⟨read, hread, -⟩
      cases hread
  | cons request rest ih =>
      obtain ⟨station, answer⟩ := request
      intro cache cache' changedList h hlate hreads
      obtain ⟨⟨cache₁, sent⟩, hfirst, h⟩ := Outcome.bind_eq_ok.1 h
      obtain ⟨⟨cache₂, changed⟩, hrest, h⟩ := Outcome.bind_eq_ok.1 h
      simp only [Outcome.pure_eq, Outcome.ok.injEq, Prod.mk.injEq] at h
      obtain ⟨rfl, rfl⟩ := h
      rw [statusesOf_append]
      by_cases hself : ∃ read, statusRead station answer = some read ∧ read.fillStation = id
      · -- the station itself is read, and its status is sent
        obtain ⟨read, hread, rfl⟩ := hself
        rw [fillStation_of_statusRead hread] at hlate
        rw [readStatus_sent_of_late hread hlate] at hfirst
        simp only [Outcome.ok.injEq, Prod.mk.injEq] at hfirst
        rw [← hfirst.2, Option.toList_some, statusesOf_self]
        exact List.cons_ne_nil _ _
      · have hother : ∀ read, statusRead station answer = some read → station.id ≠ id :=
          fun read hread heq => hself ⟨read, hread, (fillStation_of_statusRead hread).trans heq⟩
        have hlate₁ : ∀ t ∈ cache₁.lastStatusSentTime.lookup id, t + 30000 < now := by
          rw [lastSent_readStatus_ne hfirst hother]
          exact hlate
        have hreads₁ : ∃ read ∈ statusReads rest, read.fillStation = id := by
          obtain ⟨read, hread, hid⟩ := hreads
          rcases List.mem_append.1 hread with hmem | hmem
          · exact absurd ⟨read, Option.mem_toList.1 hmem, hid⟩ hself
          · exact ⟨read, hmem, hid⟩
        exact List.append_ne_nil_of_right_ne_nil _ (ih hrest hlate₁ hreads₁)

/-! ### The link as a copy -/

/-- The link as a copy that is kept by messages. -/
def replicaOf (st : StatusLink) : Replica.State String String where
  source id := st.status.cache.statusCache.lookup id
  update := st.pending.map (List.map StationStatus.entry)
  answers := st.answers.map (List.map StationStatus.entry)
  copy := st.view

/-- What a step of the link is for the copy: a pass without a message is nothing. -/
def replicaEvents (st : StatusLink) : LinkEvent → List (Replica.Event String String)
  | .pass now requests =>
      (((linkStep st (.pass now requests)).bind StatusLink.pending).map fun changedList =>
        Replica.Event.change (changedList.map StationStatus.entry)).toList
  | .passEnd delivered => [.updateEnd delivered]
  | .statusCommand => [.ask ((getAllStatuses st.status.cache).map StationStatus.entry)]
  | .answerEnd i delivered => [.answerEnd i delivered]
  | .restart _ => [.restart]

/-- A message of a pass that is lost has what the server knows, and an answer that arrives has what
is kept by then. -/
def FaithfulLink (st : StatusLink) : LinkEvent → Prop
  | .passEnd delivered => delivered = false → ∀ message, st.pending = some message →
      ∀ s ∈ message, st.view s.fillStation = some s.status
  | .answerEnd i delivered => delivered = true → ∀ answer, st.answers[i]? = some answer →
      ∀ s ∈ answer, st.status.cache.statusCache.lookup s.fillStation = some s.status
  | _ => True

theorem lastValue_entries (id : String) (message : List StationStatus) :
    Replica.lastValue id (message.map StationStatus.entry) = (statusesOf id message).getLast? := by
  rw [Replica.lastValue, statusesOf, List.filter_map, List.map_map]
  rfl

theorem linkStep_pass {st : StatusLink} (hinv : StatusInv st.status) {now : ℕ}
    (hnow : st.status.clock ≤ now) (requests : List StatusRequest) (hidle : st.pending = none) :
    ∃ status changedList,
      linkStep st (.pass now requests) =
        some { st with
          status := status
          pending := if changedList = [] then none else some changedList } ∧
      StatusInv status ∧
      readStatuses now requests st.status.cache = .ok (status.cache, changedList) ∧
      ∀ id, status.cache.statusCache.lookup id =
        (statusesOf id changedList).getLast?.or (st.status.cache.statusCache.lookup id) := by
  obtain ⟨cache, changedList, hreads, hstep, hafter, hlookup⟩ := lookup_pass hinv hnow requests
  refine ⟨_, changedList, ?_, hafter, hreads, hlookup⟩
  simp only [linkStep, hidle, hstep, Option.map_some, List.getLast?_concat]
  by_cases hnil : changedList = [] <;> simp [hnil]

/-- **A step of the link is a run of the protocol for copies**, and keeps what holds of the passes.
-/
theorem linkStep_follows {st st' : StatusLink} {e : LinkEvent} (hforward : LinkForward st e)
    (hinv : StatusInv st.status) (h : linkStep st e = some st') :
    StatusInv st'.status ∧
      Lts.run Replica.step (replicaOf st) (replicaEvents st e) = some (replicaOf st') := by
  cases e with
  | pass now requests =>
      cases hidle : st.pending with
      | some message =>
          simp only [linkStep, hidle] at h
          cases h
      | none =>
          obtain ⟨status, changedList, hstep, hafter, -, hlookup⟩ :=
            linkStep_pass hinv hforward requests hidle
          obtain rfl := Option.some.inj (hstep.symm.trans h)
          refine ⟨hafter, ?_⟩
          by_cases hnil : changedList = []
          · subst hnil
            have hevents : replicaEvents st (.pass now requests) = [] := by
              rw [replicaEvents, hstep]
              rfl
            have hsource : (fun id => status.cache.statusCache.lookup id) =
                fun id => st.status.cache.statusCache.lookup id :=
              funext fun id => (hlookup id).trans (Option.none_or)
            rw [hevents, Lts.run_nil, replicaOf, replicaOf, hidle, hsource]
            rfl
          · have hevents : replicaEvents st (.pass now requests) =
                [.change (changedList.map StationStatus.entry)] := by
              rw [replicaEvents, hstep, Option.bind_some, if_neg hnil]
              rfl
            have hsource : (fun id => status.cache.statusCache.lookup id) =
                Replica.overlay (changedList.map StationStatus.entry)
                  fun id => st.status.cache.statusCache.lookup id :=
              funext fun id => by rw [hlookup, Replica.overlay, lastValue_entries]
            rw [hevents, Lts.run_cons]
            refine ⟨_, ?_, rfl⟩
            simp only [Replica.step, replicaOf, hidle, Option.map_none, if_neg hnil, hsource,
              Option.map_some]
  | passEnd delivered =>
      obtain ⟨message, hmessage, rfl⟩ := Option.map_eq_some_iff.1 h
      refine ⟨hinv, Lts.run_cons.2 ⟨_, ?_, rfl⟩⟩
      simp only [Replica.step, replicaOf, hmessage, Option.map_some, Option.map_none, heard]
  | statusCommand =>
      cases h
      refine ⟨hinv, Lts.run_cons.2 ⟨_, ?_, rfl⟩⟩
      simp only [Replica.step, replicaOf, List.map_append, List.map_cons, List.map_nil]
  | answerEnd i delivered =>
      obtain ⟨answer, hanswer, rfl⟩ := Option.map_eq_some_iff.1 h
      refine ⟨hinv, Lts.run_cons.2 ⟨_, ?_, rfl⟩⟩
      simp only [Replica.step, replicaOf, List.getElem?_map, hanswer, Option.map_some, heard,
        List.eraseIdx_map]
  | restart clock =>
      cases h
      exact ⟨statusInv_fresh clock, rfl⟩

/-- What the condition on a step of the link says of the steps of the protocol. -/
theorem replicaEvents_faithful {st : StatusLink} {e : LinkEvent} (hok : FaithfulLink st e) :
    Lts.Along Replica.step Replica.Faithful (replicaOf st) (replicaEvents st e) := by
  cases e with
  | pass now requests =>
      simp only [replicaEvents]
      cases (linkStep st (.pass now requests)).bind StatusLink.pending with
      | none => trivial
      | some changedList => exact ⟨trivial, fun _ _ => trivial⟩
  | passEnd delivered =>
      refine ⟨fun hlost message hmessage => ?_, fun _ _ => trivial⟩
      obtain ⟨message, hpending, rfl⟩ := Option.map_eq_some_iff.1 hmessage
      intro e he
      obtain ⟨s, hs, rfl⟩ := List.mem_map.1 he
      exact hok hlost message hpending s hs
  | statusCommand => exact ⟨trivial, fun _ _ => trivial⟩
  | answerEnd i delivered =>
      refine ⟨fun hdelivered answer hanswer => ?_, fun _ _ => trivial⟩
      simp only [replicaOf, List.getElem?_map, Option.map_eq_some_iff] at hanswer
      obtain ⟨answer, hanswer, rfl⟩ := hanswer
      intro e he
      obtain ⟨s, hs, rfl⟩ := List.mem_map.1 he
      exact hok hdelivered answer hanswer s hs
  | restart clock => exact ⟨trivial, fun _ _ => trivial⟩

/-! ### What the server knows -/

/-- **The server is up to date**: in a run in which the messages that are lost have nothing that it
does not know and no answer arrives late, it knows the status that is kept of every station id that
is not in a message under way.  The run may have any number of restarts, and the server may have
known anything before. -/
theorem view_current {clock : ℕ} {view : String → Option String} {events : List LinkEvent}
    {st : StatusLink}
    (hforward : Lts.Along linkStep LinkForward (linkStart clock view) events)
    (hfaithful : Lts.Along linkStep FaithfulLink (linkStart clock view) events)
    (hrun : Lts.run linkStep (linkStart clock view) events = some st) {id status : String}
    (hkept : st.status.cache.statusCache.lookup id = some status)
    (hidle : ∀ message, st.pending = some message → statusesOf id message = []) :
    st.view id = some status := by
  have hstart : Replica.Current (replicaOf (linkStart clock view)) := ⟨nofun, nofun⟩
  have hinv : StatusInv (linkStart clock view).status := statusInv_fresh clock
  have hboth : Lts.Along linkStep (fun st e => LinkForward st e ∧ FaithfulLink st e)
      (linkStart clock view) events := hforward.and hfaithful
  have hfollows := Lts.run_trace (fun _ _ _ hok hI h => linkStep_follows hok.1 hI h) hinv hboth hrun
  have halong : Lts.Along Replica.step Replica.Faithful (replicaOf (linkStart clock view))
      (Lts.trace linkStep replicaEvents (linkStart clock view) events) := by
    refine Lts.along_trace (I := fun st => StatusInv st.status) (fun st e st' hok hI h => ?_)
      hinv hboth hrun
    have hstep := linkStep_follows hok.1 hI h
    exact ⟨hstep.1, hstep.2, replicaEvents_faithful hok.2⟩
  have hcurrent := Replica.current_of_faithful hstart halong hfollows.2
  refine hcurrent.copy id status hkept fun message hmessage => ?_
  obtain ⟨message, hpending, rfl⟩ := Option.map_eq_some_iff.1 hmessage
  rw [lastValue_entries, hidle message hpending]
  rfl

/-- A status is read and sent, the answer to a command brings it once more, and the message that
repeats it is lost. -/
def statusAndAnswer : List LinkEvent :=
  [.pass 1000 [(statusStation, some [1])], .passEnd true, .statusCommand, .answerEnd 0 true,
    .pass 31001 [(statusStation, some [1])], .passEnd false]

theorem view_current_statusAndAnswer :
    ∃ st, Lts.run linkStep (linkStart 0 fun _ => none) statusAndAnswer = some st ∧
      st.view "FS1" = some "01" := by
  have hforward : Lts.Along linkStep LinkForward (linkStart 0 fun _ => none) statusAndAnswer := by
    refine .of_step (Nat.zero_le _) rfl (.of_step trivial rfl (.of_step trivial rfl ?_))
    refine .of_step trivial rfl (.of_step ?_ rfl (.of_step trivial rfl trivial))
    exact (by decide : 1000 ≤ 31001)
  have hfaithful : Lts.Along linkStep FaithfulLink (linkStart 0 fun _ => none) statusAndAnswer := by
    refine .of_step trivial rfl (.of_step nofun rfl (.of_step trivial rfl ?_))
    refine .of_step (fun _ answer hanswer s hs => ?_) rfl (.of_step trivial rfl ?_)
    · -- the answer has the status that is kept
      obtain rfl : [⟨"FS1", "01"⟩] = answer := Option.some.inj hanswer
      obtain rfl := List.mem_singleton.1 hs
      rfl
    · -- and the message that is lost the one that the server knows
      refine .of_step (fun _ message hmessage s hs => ?_) rfl trivial
      obtain rfl : [⟨"FS1", "01"⟩] = message := Option.some.inj hmessage
      obtain rfl := List.mem_singleton.1 hs
      rfl
  exact ⟨_, rfl, view_current hforward hfaithful rfl rfl nofun⟩

/-- **Losses are repaired**: after any run, whatever was lost or late in it, a pass whose message
arrives brings the server up to date about every station id that it reads and whose last message is
more than 30 seconds old. -/
theorem view_repaired {clock : ℕ} {view : String → Option String} {events : List LinkEvent}
    {st : StatusLink}
    (hforward : Lts.Along linkStep LinkForward (linkStart clock view) events)
    (hrun : Lts.run linkStep (linkStart clock view) events = some st)
    (hidle : st.pending = none) {now : ℕ} (hnow : st.status.clock ≤ now)
    {requests : List StatusRequest} {id : String}
    (hread : ∃ read ∈ statusReads requests, read.fillStation = id)
    (hlate : ∀ t ∈ st.status.cache.lastStatusSentTime.lookup id, t + 30000 < now) :
    ∃ st', Lts.run linkStep st [.pass now requests, .passEnd true] = some st' ∧
      st'.status.cache.statusCache.lookup id ≠ none ∧
      st'.view id = st'.status.cache.statusCache.lookup id := by
  have hinv : StatusInv st.status :=
    (Lts.run_trace (fun _ _ _ hok hI h => linkStep_follows hok hI h) (statusInv_fresh clock)
      hforward hrun).1
  obtain ⟨status, changedList, hstep, -, hreads, hlookup⟩ := linkStep_pass hinv hnow requests hidle
  have hsent : statusesOf id changedList ≠ [] := statusesOf_ne_nil_of_late hreads hlate hread
  have hne : changedList ≠ [] := by
    rintro rfl
    exact hsent rfl
  obtain ⟨status', hstatus'⟩ := Option.ne_none_iff_exists'.1 (mt List.getLast?_eq_none_iff.1 hsent)
  have hkept : status.cache.statusCache.lookup id = some status' := by
    rw [hlookup, hstatus', Option.some_or]
  rw [if_neg hne] at hstep
  refine ⟨_, Lts.run_cons.2 ⟨_, hstep, Lts.run_cons.2 ⟨_, rfl, rfl⟩⟩, ?_, ?_⟩
  · exact hkept.trans_ne (Option.some_ne_none _)
  · rw [← lastValue_entries] at hstatus'
    exact (Replica.overlay_of_lastValue hstatus').trans hkept.symm

/-- The first message is lost. -/
def lostStatus : List LinkEvent := [.pass 1000 [(statusStation, some [1])], .passEnd false]

theorem view_repaired_lostStatus :
    ∃ st st', Lts.run linkStep (linkStart 0 fun _ => none) lostStatus = some st ∧
      st.view "FS1" = none ∧
      Lts.run linkStep st [.pass 31001 [(statusStation, some [1])], .passEnd true] = some st' ∧
      st'.view "FS1" = st'.status.cache.statusCache.lookup "FS1" := by
  have hforward : Lts.Along linkStep LinkForward (linkStart 0 fun _ => none) lostStatus :=
    .of_step (Nat.zero_le _) rfl (.of_step trivial rfl trivial)
  have hread : ∃ read ∈ statusReads [(statusStation, some [1])], read.fillStation = "FS1" :=
    ⟨_, List.mem_singleton_self _, rfl⟩
  obtain ⟨st', hrun, -, hview⟩ := view_repaired hforward rfl rfl
    (show 1000 ≤ 31001 by decide) hread (by rintro t ⟨⟩; decide)
  exact ⟨_, st', rfl, rfl, hrun, hview⟩

end FillingPilot
