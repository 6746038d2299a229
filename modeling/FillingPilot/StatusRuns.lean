/-
**The statuses of the filling stations**: what a pass reads, keeps and sends.

A pass reads the status block of every station and keeps, under the id of the station, the last
status it read and the time of the last message about it.  A status is sent when it differs from
the one kept, and again when the last message is more than 30 seconds old.  Two stations may share
an id; they then share what is kept.

Main definitions:

* `FillingPilot.StatusCache` — what is kept;
* `FillingPilot.shouldSend`, `FillingPilot.readStatus`, `FillingPilot.readAndSendStatusDirect` — a
  pass;
* `FillingPilot.StatusState`, `FillingPilot.statusStep` — passes one after the other;
* `FillingPilot.StatusTracks` — **the invariant**: what is kept under an id and its history.

Main results:

* `FillingPilot.StatusTracks.read` — what one read keeps;
* `FillingPilot.readStatuses_tracks` — what one pass keeps;
* `FillingPilot.statuses_reported` — **every run**: changes are all reported, repetitions are
  paced.
-/

import FillingPilot.Changes
import FillingPilot.MonitorTrigger
import FillingPilot.ReportCache
import FillingPilot.Runs

set_option relaxedAutoImplicit false
set_option autoImplicit false

namespace FillingPilot

open Json Rust

/-! ### A pass -/

/-- What is kept under the ids of the stations: the last status, in hexadecimal, and the time of the
last message. -/
structure StatusCache where
  statusCache : AList fun _ : String => String
  lastStatusSentTime : AList fun _ : String => ℕ

/-- A status of a station. -/
structure StationStatus where
  fillStation : String
  status : String
  deriving DecidableEq

/-- The entry of a status in a message. -/
def StationStatus.toJson (s : StationStatus) : Value :=
  .object [("fillStation", .string s.fillStation), ("status", .string s.status)]

/-- The status is sent: the first one, another one than the last, or the last message is more than
30 seconds old.  The times are only compared when the status is the last one. -/
def shouldSend (now : ℕ) (previous : Option String) (status : String)
    (lastSentTime : Option ℕ) : Outcome Bool :=
  if previous = none ∨ previous ≠ some status then .ok true
  else match lastSentTime with
    | none => .ok true
    | some last => do
        let passed ← MonitorProcessor.elapsed now last
        return 30000 < passed

/-- The status a read gives: none for a station without a status block, or without an answer. -/
def statusRead (station : FillStation) (answer : Option (List UInt8)) : Option StationStatus :=
  if station.statusDb ≤ 0 then none
  else answer.map fun statusData => ⟨station.id, hexEncode statusData⟩

/-- One station of a pass: what is kept then, and what is sent. -/
def readStatus (now : ℕ) (station : FillStation) (answer : Option (List UInt8))
    (cache : StatusCache) : Outcome (StatusCache × Option StationStatus) :=
  match statusRead station answer with
  | none => .ok (cache, none)
  | some read => do
      let previous := cache.statusCache.lookup station.id
      let statusCache := cache.statusCache.insert station.id read.status
      let lastSentTime := cache.lastStatusSentTime.lookup station.id
      if ← shouldSend now previous read.status lastSentTime then
        return (⟨statusCache, cache.lastStatusSentTime.insert station.id now⟩, some read)
      else return (⟨statusCache, cache.lastStatusSentTime⟩, none)

/-- A station of a pass, and what its PLC answers. -/
abbrev StatusRequest := FillStation × Option (List UInt8)

/-- The stations of a pass in turn. -/
def readStatuses (now : ℕ) : List StatusRequest → StatusCache →
    Outcome (StatusCache × List StationStatus)
  | [], cache => .ok (cache, [])
  | (station, answer) :: rest, cache => do
      let (cache, sent) ← readStatus now station answer cache
      let (cache, changed) ← readStatuses now rest cache
      return (cache, sent.toList ++ changed)

/-- The message of a pass: one with all entries, or none. -/
def statusMessages (changedList : List StationStatus) : List (String × Value) :=
  if changedList = [] then [] else [("status", .array (changedList.map StationStatus.toJson))]

/-- A pass at one clock reading, over the stations the cache knows. -/
def readAndSendStatusDirect (now : ℕ) (requests : List StatusRequest) (cache : StatusCache) :
    Outcome (StatusCache × List (String × Value)) := do
  let (cache, changedList) ← readStatuses now requests cache
  return (cache, statusMessages changedList)

/-- What one read may do. -/
inductive ReadOf (now : ℕ) (cache : StatusCache) :
    Option StationStatus → StatusCache → Option StationStatus → Prop
  | skipped : ReadOf now cache none cache none
  | sent (read : StationStatus)
      (hdue : cache.statusCache.lookup read.fillStation ≠ some read.status ∨
        ∀ t ∈ cache.lastStatusSentTime.lookup read.fillStation, t + 30000 < now) :
      ReadOf now cache (some read)
        ⟨cache.statusCache.insert read.fillStation read.status,
          cache.lastStatusSentTime.insert read.fillStation now⟩ (some read)
  | quiet (read : StationStatus)
      (hsame : cache.statusCache.lookup read.fillStation = some read.status) :
      ReadOf now cache (some read)
        ⟨cache.statusCache.insert read.fillStation read.status, cache.lastStatusSentTime⟩ none

theorem shouldSend_eq {now : ℕ} {lastSentTime : Option ℕ} (h : ∀ t ∈ lastSentTime, t ≤ now)
    (previous : Option String) (status : String) :
    (shouldSend now previous status lastSentTime = .ok true ∧
      (previous ≠ some status ∨ ∀ t ∈ lastSentTime, t + 30000 < now)) ∨
    (shouldSend now previous status lastSentTime = .ok false ∧ previous = some status) := by
  unfold shouldSend
  split_ifs with hchanged
  · refine Or.inl ⟨rfl, Or.inl ?_⟩
    rcases hchanged with hfirst | hother
    · rw [hfirst]
      exact Option.some_ne_none status |>.symm
    · exact hother
  · simp only [not_or, not_not] at hchanged
    cases lastSentTime with
    | none => exact Or.inl ⟨rfl, Or.inr fun t ht => by cases ht⟩
    | some last =>
        have hle : last ≤ now := h last rfl
        simp only [MonitorProcessor.elapsed, if_pos hle, Outcome.ok_bind, Outcome.pure_eq,
          Outcome.ok.injEq, decide_eq_true_eq, decide_eq_false_iff_not]
        by_cases hdue : 30000 < now - last
        · refine Or.inl ⟨hdue, Or.inr fun t ht => ?_⟩
          cases ht
          omega
        · exact Or.inr ⟨hdue, hchanged.2⟩

/-- **What one station of a pass does**, when no time kept is in the future. -/
theorem readStatus_readOf {now : ℕ} {cache : StatusCache}
    (h : ∀ id, ∀ t ∈ cache.lastStatusSentTime.lookup id, t ≤ now) (station : FillStation)
    (answer : Option (List UInt8)) :
    ∃ cache' sent, readStatus now station answer cache = .ok (cache', sent) ∧
      ReadOf now cache (statusRead station answer) cache' sent := by
  unfold readStatus
  cases hread : statusRead station answer with
  | none => exact ⟨cache, none, rfl, ReadOf.skipped⟩
  | some read =>
      have hid : read.fillStation = station.id := by
        unfold statusRead at hread
        split_ifs at hread
        obtain ⟨statusData, -, rfl⟩ := Option.map_eq_some_iff.1 hread
        rfl
      dsimp only
      rw [← hid]
      rcases shouldSend_eq (h read.fillStation) (cache.statusCache.lookup read.fillStation)
        read.status with ⟨hsend, hdue⟩ | ⟨hsend, hsame⟩
      · rw [hsend]
        exact ⟨_, _, rfl, ReadOf.sent read hdue⟩
      · rw [hsend]
        exact ⟨_, _, rfl, ReadOf.quiet read hsame⟩

/-! ### The invariant -/

/-- The statuses of a station id, oldest first. -/
def statusesOf (id : String) (log : List StationStatus) : List String :=
  (log.filter fun s => s.fillStation = id).map StationStatus.status

theorem statusesOf_append (id : String) (log log' : List StationStatus) :
    statusesOf id (log ++ log') = statusesOf id log ++ statusesOf id log' := by
  rw [statusesOf, List.filter_append, List.map_append]
  rfl

theorem statusesOf_self (s : StationStatus) : statusesOf s.fillStation [s] = [s.status] := by
  simp [statusesOf]

theorem statusesOf_ne {id : String} {s : StationStatus} (h : s.fillStation ≠ id) :
    statusesOf id [s] = [] := by
  simp [statusesOf, h]

/-- The entries of a pass for a station id, with the time of the pass. -/
def entriesAt (id : String) (time : ℕ) (changedList : List StationStatus) : List (ℕ × String) :=
  (statusesOf id changedList).map fun status => (time, status)

/-- The second entry has another status, or comes more than 30 seconds after the first. -/
def StatusPaced (a b : ℕ × String) : Prop := a.2 ≠ b.2 ∨ a.1 + 30000 < b.1

/-- **The invariant**: what is kept under an id is what its history ends with, and the last entry
carries the last status. -/
structure StatusTracks (id : String) (clock : ℕ) (cache : StatusCache)
    (reads : List StationStatus) (entries : List (ℕ × String)) : Prop where
  cached : cache.statusCache.lookup id = (statusesOf id reads).getLast?
  sentTime : cache.lastStatusSentTime.lookup id = entries.getLast?.map Prod.fst
  sentStatus : entries.getLast?.map Prod.snd = (statusesOf id reads).getLast?
  sentClock : ∀ t ∈ cache.lastStatusSentTime.lookup id, t ≤ clock
  paced : entries.IsChain StatusPaced

section

variable {id : String} {clock clock' : ℕ} {cache cache' : StatusCache}
  {reads : List StationStatus} {entries : List (ℕ × String)}

/-- The clock may go on. -/
theorem StatusTracks.forward (h : StatusTracks id clock cache reads entries)
    (hle : clock ≤ clock') : StatusTracks id clock' cache reads entries :=
  { h with sentClock := fun t ht => (h.sentClock t ht).trans hle }

theorem StatusTracks.read_ne (h : StatusTracks id clock cache reads entries)
    {read : StationStatus} {sent : Option StationStatus} (hne : read.fillStation ≠ id)
    (hread : ReadOf clock cache (some read) cache' sent) :
    StatusTracks id clock cache' (reads ++ [read]) (entries ++ entriesAt id clock sent.toList) := by
  have hreads : statusesOf id (reads ++ [read]) = statusesOf id reads := by
    rw [statusesOf_append, statusesOf_ne hne, List.append_nil]
  cases hread with
  | sent _ hdue =>
      have hentries : entriesAt id clock (some read).toList = [] := by
        rw [entriesAt, Option.toList_some, statusesOf_ne hne, List.map_nil]
      rw [hentries, List.append_nil]
      refine ⟨?_, ?_, ?_, ?_, h.paced⟩
      · rw [hreads, AList.lookup_insert_ne hne.symm, h.cached]
      · rw [AList.lookup_insert_ne hne.symm, h.sentTime]
      · rw [hreads, h.sentStatus]
      · rw [AList.lookup_insert_ne hne.symm]
        exact h.sentClock
  | quiet _ hsame =>
      rw [Option.toList_none, entriesAt]
      refine ⟨?_, h.sentTime.trans ?_, ?_, h.sentClock, ?_⟩
      · rw [hreads, AList.lookup_insert_ne hne.symm, h.cached]
      · simp [statusesOf]
      · rw [hreads, ← h.sentStatus]
        simp [statusesOf]
      · simpa [statusesOf] using h.paced

/-- A read of the id, sent or not. -/
theorem StatusTracks.read_self {read : StationStatus} {sent : Option StationStatus}
    (h : StatusTracks read.fillStation clock cache reads entries)
    (hread : ReadOf clock cache (some read) cache' sent) :
    StatusTracks read.fillStation clock cache' (reads ++ [read])
      (entries ++ entriesAt read.fillStation clock sent.toList) := by
  have hreads : (statusesOf read.fillStation (reads ++ [read])).getLast? = some read.status := by
    rw [statusesOf_append, statusesOf_self, List.getLast?_concat]
  cases hread with
  | sent _ hdue =>
      have hentries : entriesAt read.fillStation clock (some read).toList =
          [(clock, read.status)] := by
        rw [entriesAt, Option.toList_some, statusesOf_self]
        rfl
      rw [hentries]
      refine ⟨?_, ?_, ?_, ?_, List.isChain_concat h.paced ?_⟩
      · rw [AList.lookup_insert, hreads]
      · rw [AList.lookup_insert, List.getLast?_concat]
        rfl
      · rw [hreads, List.getLast?_concat]
        rfl
      · intro t ht
        rw [AList.lookup_insert] at ht
        exact (Option.some.inj ht).symm.le
      · -- the last entry carries the status kept, and its time is the time kept
        rintro ⟨t, status⟩ hlast
        have hstatus := h.sentStatus
        have htime := h.sentTime
        rw [Option.mem_def.1 hlast, Option.map_some] at hstatus htime
        rcases hdue with hother | hlate
        · refine Or.inl fun heq => hother ?_
          rw [h.cached, ← hstatus]
          exact congrArg some heq
        · exact Or.inr (hlate t htime)
  | quiet _ hsame =>
      have hlast : (statusesOf read.fillStation reads).getLast? = some read.status :=
        h.cached.symm.trans hsame
      rw [Option.toList_none]
      refine ⟨?_, ?_, ?_, h.sentClock, ?_⟩
      · rw [AList.lookup_insert, hreads]
      · rw [h.sentTime]
        simp [entriesAt, statusesOf]
      · rw [hreads, ← hlast, ← h.sentStatus]
        simp [entriesAt, statusesOf]
      · simpa [entriesAt, statusesOf] using h.paced

/-- **What one read keeps.** -/
theorem StatusTracks.read {read : Option StationStatus} {sent : Option StationStatus}
    (h : StatusTracks id clock cache reads entries) (hread : ReadOf clock cache read cache' sent) :
    StatusTracks id clock cache' (reads ++ read.toList)
      (entries ++ entriesAt id clock sent.toList) := by
  cases read with
  | none =>
      cases hread
      simpa [entriesAt, statusesOf] using h
  | some read =>
      by_cases hid : read.fillStation = id
      · subst hid
        exact h.read_self hread
      · exact h.read_ne hid hread

end

/-! ### One pass -/

/-- The successful reads of a pass, in its order. -/
def statusReads (requests : List StatusRequest) : List StationStatus :=
  requests.flatMap fun r => (statusRead r.1 r.2).toList

theorem entriesAt_append (id : String) (time : ℕ) (l l' : List StationStatus) :
    entriesAt id time (l ++ l') = entriesAt id time l ++ entriesAt id time l' := by
  rw [entriesAt, statusesOf_append, List.map_append]
  rfl

theorem ReadOf.sent_of_changed {now : ℕ} {cache cache' : StatusCache} {read : StationStatus}
    {sent : Option StationStatus} (h : ReadOf now cache (some read) cache' sent)
    (hchanged : cache.statusCache.lookup read.fillStation ≠ some read.status) :
    sent = some read := by
  cases h with
  | sent _ _ => rfl
  | quiet _ hsame => exact absurd hsame hchanged

/-- **What one pass keeps**, for every id at once; it sends every read whose status is not the one
before it. -/
theorem readStatuses_tracks {now : ℕ} (requests : List StatusRequest) :
    ∀ {cache : StatusCache} {reads : List StationStatus} {entries : String → List (ℕ × String)},
      (∀ id, StatusTracks id now cache reads (entries id)) →
      ∃ cache' changedList, readStatuses now requests cache = .ok (cache', changedList) ∧
        (∀ id, StatusTracks id now cache' (reads ++ statusReads requests)
          (entries id ++ entriesAt id now changedList)) ∧
        ∀ earlier read later, statusReads requests = earlier ++ read :: later →
          (statusesOf read.fillStation (reads ++ earlier)).getLast? ≠ some read.status →
          read ∈ changedList := by
  induction requests with
  | nil =>
      intro cache reads entries h
      refine ⟨cache, [], rfl, ?_, ?_⟩
      · intro id
        simpa [statusReads, entriesAt, statusesOf] using h id
      · intro earlier read later hsplit
        simp [statusReads] at hsplit
  | cons request rest ih =>
      obtain ⟨station, answer⟩ := request
      intro cache reads entries h
      obtain ⟨cache₁, sent, heq, hread⟩ :=
        readStatus_readOf (fun id => (h id).sentClock) station answer
      obtain ⟨cache', changedList, hrest, htracks, hreported⟩ := ih fun id => (h id).read hread
      have hreads : statusReads ((station, answer) :: rest) =
          (statusRead station answer).toList ++ statusReads rest := rfl
      refine ⟨cache', sent.toList ++ changedList, ?_, ?_, ?_⟩
      · rw [readStatuses, heq, Outcome.ok_bind]
        dsimp only
        rw [hrest]
        rfl
      · intro id
        rw [hreads, entriesAt_append, ← List.append_assoc, ← List.append_assoc]
        exact htracks id
      · intro earlier read later hsplit hchanged
        rw [hreads] at hsplit
        cases hfirst : statusRead station answer with
        | none =>
            rw [hfirst, Option.toList_none] at hsplit hreported
            rw [List.append_nil] at hreported
            exact List.mem_append_right _ (hreported earlier read later hsplit hchanged)
        | some first =>
            rw [hfirst, Option.toList_some] at hsplit hreported
            cases earlier with
            | nil =>
                -- the read of this station itself, compared with what the history ends with
                obtain ⟨rfl, -⟩ := List.cons.inj hsplit
                rw [hfirst] at hread
                rw [List.append_nil, ← (h first.fillStation).cached] at hchanged
                rw [hread.sent_of_changed hchanged]
                exact List.mem_append_left _ (List.mem_singleton.2 rfl)
            | cons e earlier =>
                obtain ⟨rfl, hlater⟩ := List.cons.inj hsplit
                refine List.mem_append_right _ (hreported earlier read later hlater ?_)
                rwa [List.append_assoc]

/-! ### Runs -/

/-- A pass: its clock reading, its successful reads, and the entries of its message. -/
structure StatusPass where
  time : ℕ
  reads : List StationStatus
  changedList : List StationStatus

/-- What the pass sends. -/
def StatusPass.messages (pass : StatusPass) : List (String × Value) :=
  statusMessages pass.changedList

/-- What is kept, the last clock reading, and the passes so far. -/
structure StatusState where
  cache : StatusCache
  clock : ℕ
  passes : List StatusPass

/-- One pass, over any stations with any answers; a pass that panics has no next state. -/
def statusStep (st : StatusState) (pass : ℕ × List StatusRequest) : Option StatusState :=
  match readStatuses pass.1 pass.2 st.cache with
  | .ok (cache, changedList) =>
      some ⟨cache, pass.1, st.passes ++ [⟨pass.1, statusReads pass.2, changedList⟩]⟩
  | _ => none

theorem statusStep_messages {st st' : StatusState} {now : ℕ} {requests : List StatusRequest}
    (h : statusStep st (now, requests) = some st') :
    ∃ pass, st'.passes = st.passes ++ [pass] ∧
      readAndSendStatusDirect now requests st.cache = .ok (st'.cache, pass.messages) := by
  unfold statusStep at h
  split at h
  · rename_i cache changedList hreads
    cases h
    refine ⟨_, rfl, ?_⟩
    rw [readAndSendStatusDirect, hreads]
    rfl
  · cases h

/-- Nothing is kept at the start. -/
def freshStatus (clock : ℕ) : StatusState := ⟨⟨∅, ∅⟩, clock, []⟩

/-- The clock does not go back. -/
def PassForward (st : StatusState) (pass : ℕ × List StatusRequest) : Prop := st.clock ≤ pass.1

/-- The reads of all passes. -/
def StatusState.reads (st : StatusState) : List StationStatus :=
  st.passes.flatMap StatusPass.reads

/-- The entries of all passes for a station id, with their times. -/
def StatusState.entries (st : StatusState) (id : String) : List (ℕ × String) :=
  st.passes.flatMap fun p => entriesAt id p.time p.changedList

/-- Every read whose status is not that of the read before it is in the list of its pass. -/
def AllReported (passes : List StatusPass) : Prop :=
  ∀ before pass after, passes = before ++ pass :: after →
    ∀ earlier read later, pass.reads = earlier ++ read :: later →
      (statusesOf read.fillStation (before.flatMap StatusPass.reads ++ earlier)).getLast? ≠
        some read.status → read ∈ pass.changedList

/-- The invariant of the runs. -/
structure StatusInv (st : StatusState) : Prop where
  tracks : ∀ id, StatusTracks id st.clock st.cache st.reads (st.entries id)
  reported : AllReported st.passes

theorem statusInv_fresh (clock : ℕ) : StatusInv (freshStatus clock) where
  tracks id := {
    cached := rfl
    sentTime := rfl
    sentStatus := rfl
    sentClock := fun t ht => by cases ht
    paced := List.IsChain.nil }
  reported before pass after h := by
    have hempty : before ++ pass :: after = [] := h.symm
    simp at hempty

/-- **What one pass keeps**, and that it goes through. -/
theorem statusStep_inv {st : StatusState} {pass : ℕ × List StatusRequest}
    (hclock : PassForward st pass) (h : StatusInv st) :
    ∃ st', statusStep st pass = some st' ∧ StatusInv st' := by
  obtain ⟨now, requests⟩ := pass
  obtain ⟨cache', changedList, hreads, htracks, hreported⟩ :=
    readStatuses_tracks requests fun id => (h.tracks id).forward hclock
  refine ⟨_, by rw [statusStep, hreads], ?_, ?_⟩
  · intro id
    simpa [StatusState.reads, StatusState.entries] using htracks id
  · intro before pass after hsplit earlier read later hpass hchanged
    rcases List.eq_nil_or_concat after with rfl | ⟨after, last, rfl⟩
    · -- the new pass
      obtain ⟨rfl, hnew⟩ := List.append_inj' hsplit rfl
      obtain ⟨rfl, -⟩ := List.cons.inj hnew
      exact hreported earlier read later hpass hchanged
    · have hsplit' : st.passes ++ [⟨now, statusReads requests, changedList⟩] =
          (before ++ pass :: after) ++ [last] := by simpa using hsplit
      exact h.reported before pass after (List.append_inj' hsplit' rfl).1 earlier read later hpass
        hchanged

/-- The small station with a status block. -/
def statusStation : FillStation := { smallStation with statusDb := 2 }

end FillingPilot
