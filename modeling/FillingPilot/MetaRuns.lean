/-
**The definitions of blocks over the life of a device.**

The definitions that a configuration brings are put into a map in memory.  A thread writes the map
to a file once a minute, and at each start a thread reads the file and puts what it finds in the
place of the map.  Nothing orders the two threads and the configurations.

Main definitions:

* `FillingPilot.definitionsOf`, `FillingPilot.MetaCache.saveMeta` — what a configuration brings;
* `FillingPilot.MetaState`, `FillingPilot.MetaEvent`, `FillingPilot.metaStep` — the map, the file
  and the threads;
* `FillingPilot.Orderly` — no definition comes before the file was read, what is written is read
  back, and a write that fails does not spoil the file.

Main results:

* `FillingPilot.metaStep_store` — an orderly step is a step of a durable store;
* `FillingPilot.meta_survives` — **what the map has** after any orderly run, over any number of
  starts: the last definition of a Java type that was saved, of those that were written before the
  start they would have been lost in;
* `FillingPilot.load_forgets` — a file that is read late takes away what was saved before.
-/

import FillingPilot.Durable
import FillingPilot.MetaStore
import FillingPilot.Simulation

set_option relaxedAutoImplicit false
set_option autoImplicit false

namespace FillingPilot

open Json Replica

/-! ### Sizes that are read -/

theorem DataBlockPropertyDefinition.inRange_of_fromJson {v : Value}
    {p : DataBlockPropertyDefinition} (h : fromJson v = some p) : p.InRange := by
  obtain ⟨-, -, h⟩ := Option.bind_eq_some_iff.1 h
  obtain ⟨name, -, h⟩ := Option.bind_eq_some_iff.1 h
  obtain ⟨propertyType, -, h⟩ := Option.bind_eq_some_iff.1 h
  obtain ⟨offset, hoffset, h⟩ := Option.bind_eq_some_iff.1 h
  obtain ⟨count, hcount, h⟩ := Option.bind_eq_some_iff.1 h
  obtain ⟨byteSize, hbyteSize, h⟩ := Option.bind_eq_some_iff.1 h
  obtain rfl := Option.some.inj h
  refine ⟨?_, ?_, ?_⟩
  · obtain ⟨x, hx⟩ := required_eq_some hoffset
    exact readUnsigned_lt hx
  · rcases defaulted_eq_some hcount with ⟨x, hx⟩ | hdefault
    · exact readUnsigned_lt hx
    · subst hdefault
      exact show 1 < 2 ^ 64 by decide
  · intro n hn
    obtain rfl := hn
    obtain ⟨x, hx⟩ := optional_eq_some hbyteSize
    exact readUnsigned_lt hx

/-- **The sizes of a definition that was read are `usize`s.** -/
theorem DataBlockDefinition.inRange_of_fromJson {v : Value} {d : DataBlockDefinition}
    (h : fromJson v = some d) : d.InRange := by
  obtain ⟨-, -, h⟩ := Option.bind_eq_some_iff.1 h
  obtain ⟨javaType, -, h⟩ := Option.bind_eq_some_iff.1 h
  obtain ⟨blockSize, hblockSize, h⟩ := Option.bind_eq_some_iff.1 h
  obtain ⟨properties, hproperties, h⟩ := Option.bind_eq_some_iff.1 h
  obtain rfl := Option.some.inj h
  refine ⟨?_, ?_⟩
  · obtain ⟨x, hx⟩ := required_eq_some hblockSize
    exact readUnsigned_lt hx
  · rcases defaulted_eq_some hproperties with ⟨x, hx⟩ | hdefault
    · intro p hp
      obtain ⟨y, hy⟩ := exists_of_mem_readVec hx p hp
      exact DataBlockPropertyDefinition.inRange_of_fromJson hy
    · subst hdefault
      exact nofun

/-! ### Configurations -/

/-- The definitions of a configuration, in its order; what cannot be read as one is passed over. -/
def definitionsOf (plcInfo : List Value) : List DataBlockDefinition :=
  plcInfo.flatMap fun plc =>
    (((plc.get "dataMeta").bind Value.asArray).getD []).filterMap DataBlockDefinition.fromJson

/-- The definitions under their Java types. -/
def savedPairs (plcInfo : List Value) : List (String × DataBlockDefinition) :=
  (definitionsOf plcInfo).map fun definition => (definition.javaType, definition)

namespace MetaCache

/-- The map after a configuration. -/
def saveMeta (plcInfo : List Value) (cache : MetaCache) : MetaCache :=
  if (definitionsOf plcInfo).isEmpty then cache else cache.insertPairs (savedPairs plcInfo)

end MetaCache

theorem inRange_of_mem_definitionsOf {plcInfo : List Value} {d : DataBlockDefinition}
    (h : d ∈ definitionsOf plcInfo) : d.InRange := by
  obtain ⟨plc, -, hd⟩ := List.mem_flatMap.1 h
  obtain ⟨item, -, hitem⟩ := List.mem_filterMap.1 hd
  exact DataBlockDefinition.inRange_of_fromJson hitem

theorem lookup_insertPairs_eq_overlay {β : Type} (ps : List (String × β))
    (m : AList fun _ : String => β) :
    (fun k => (m.insertPairs ps).lookup k) = overlay ps fun k => m.lookup k := by
  induction ps generalizing m with
  | nil => rfl
  | cons p ps ih =>
      have hstep : m.insertPairs (p :: ps) = (m.insert p.1 p.2).insertPairs ps := rfl
      rw [hstep, ih, ← List.singleton_append, overlay_append]
      congr 1
      funext k
      by_cases hk : k = p.1
      · subst hk
        rw [AList.lookup_insert, overlay_of_lastValue]
        simp [lastValue]
      · rw [AList.lookup_insert_ne hk, overlay_of_none]
        simp [lastValue, Ne.symm hk]

theorem saveMeta_eq (plcInfo : List Value) (cache : MetaCache) :
    cache.saveMeta plcInfo = cache.insertPairs (savedPairs plcInfo) := by
  rw [MetaCache.saveMeta]
  split_ifs with hempty
  · rw [savedPairs, List.isEmpty_iff.1 hempty]
    rfl
  · rfl

/-! ### The threads -/

/-- The map and the file (`none` for no file); `loading` until the thread that reads the file has
done so. -/
structure MetaState where
  cache : MetaCache
  file : Option String
  loading : Bool

inductive MetaEvent
  /-- A configuration arrives. -/
  | saveMeta (plcInfo : List Value)
  /-- The file is read, once after a start. -/
  | load
  /-- A round of the thread that writes. -/
  | persist
  /-- A write fails, or is cut off by the end of the process, and leaves this in the file. -/
  | writeFails (left : Option String)
  /-- The process ends and starts again. -/
  | restart

section Runs

variable (text : JsonText)

def metaStep (st : MetaState) : MetaEvent → Option MetaState
  | .saveMeta plcInfo => some { st with cache := st.cache.saveMeta plcInfo }
  | .load =>
      if st.loading then
        some { st with cache := MetaCache.loadFromDisk text st.file st.cache, loading := false }
      else none
  | .persist => some { st with file := st.cache.persistToDisk text st.file }
  | .writeFails left => some { st with file := left }
  | .restart => some { st with cache := ∅, loading := true }

/-- A device right after its start. -/
def metaStart (file : Option String) : MetaState := ⟨∅, file, true⟩

/-- Nothing is saved before the file was read, what is written is read back as it was, and a write
that fails leaves a file that reads as before. -/
def Orderly (st : MetaState) : MetaEvent → Prop
  | .saveMeta plcInfo => st.loading = true → definitionsOf plcInfo = []
  | .persist => st.cache ≠ ∅ → text.ReadsBack st.cache.toJson
  | .writeFails left =>
      readDocument text MetaCache.fromJson left = readDocument text MetaCache.fromJson st.file
  | .load => True
  | .restart => True

/-- The definitions that a file has. -/
def onDisk (file : Option String) (javaType : String) : Option DataBlockDefinition :=
  (MetaCache.loadFromDisk text file ∅).lookup javaType

/-- The durable store that the threads keep: until the file is read, memory counts as what it has.
-/
def storeOf (st : MetaState) : Durable.Store String DataBlockDefinition where
  disk := onDisk text st.file
  memory := if st.loading then onDisk text st.file else fun javaType => st.cache.lookup javaType

/-- What an event is to the store. -/
def durableEvents : MetaEvent → List (Durable.Event String DataBlockDefinition)
  | .saveMeta plcInfo => [.put (savedPairs plcInfo)]
  | .load => []
  | .persist => [.flush]
  | .writeFails _ => []
  | .restart => [.crash]

/-- What the threads keep: sizes in their range, no definition before the file was read, and
afterwards every Java type of the file. -/
structure MetaInv (st : MetaState) : Prop where
  inRange : st.cache.InRange
  loading : st.loading = true → st.cache = ∅
  kept : st.loading = false → ∀ javaType, st.cache.lookup javaType = none →
    onDisk text st.file javaType = none

end Runs

section Survival

variable {text : JsonText}

theorem inRange_insertPairs {ps : List (String × DataBlockDefinition)} (hps : ∀ p ∈ ps, p.2.InRange)
    {cache : MetaCache} (hcache : cache.InRange) :
    MetaCache.InRange (cache.insertPairs ps) := by
  intro javaType d hd
  by_cases hmem : javaType ∈ ps.map Prod.fst
  · obtain ⟨d', hd', hlookup⟩ := AList.lookup_insertPairs_of_mem hmem cache
    obtain rfl : d' = d := Option.some.inj (hlookup.symm.trans hd)
    exact hps _ hd'
  · rw [AList.lookup_insertPairs_of_notMem hmem] at hd
    exact hcache javaType d hd

theorem inRange_empty : MetaCache.InRange ∅ := nofun

theorem inRange_loadFromDisk (file : Option String) :
    MetaCache.InRange (MetaCache.loadFromDisk text file ∅) := by
  rw [MetaCache.loadFromDisk]
  split
  · rename_i loaded hread
    obtain ⟨document, -, hdocument⟩ := Option.bind_eq_some_iff.1 hread
    refine inRange_insertPairs (fun p hp => ?_) inRange_empty
    obtain ⟨x, hx⟩ := exists_of_mem_readMap hdocument p hp
    exact DataBlockDefinition.inRange_of_fromJson hx
  · exact inRange_empty

theorem persistToDisk_empty (file : Option String) :
    MetaCache.persistToDisk text ∅ file = file := rfl

theorem onDisk_persistToDisk {cache : MetaCache} (hne : cache ≠ ∅) (h : cache.InRange)
    (htext : text.ReadsBack cache.toJson) (file : Option String) :
    onDisk text (cache.persistToDisk text file) = fun javaType => cache.lookup javaType :=
  funext fun javaType => MetaCache.lookup_loadFromDisk hne h htext file ∅ javaType

theorem onDisk_congr {file file' : Option String}
    (h : readDocument text MetaCache.fromJson file = readDocument text MetaCache.fromJson file') :
    onDisk text file = onDisk text file' := by
  funext javaType
  simp only [onDisk, MetaCache.loadFromDisk, h]

theorem metaInv_start (file : Option String) : MetaInv text (metaStart file) where
  inRange := inRange_empty
  loading _ := rfl
  kept := nofun

/-- **What an orderly step keeps.** -/
theorem metaStep_inv {st st' : MetaState} {e : MetaEvent} (hok : Orderly text st e)
    (hst : MetaInv text st) (h : metaStep text st e = some st') : MetaInv text st' := by
  cases e with
  | saveMeta plcInfo =>
      obtain rfl := Option.some.inj h
      refine ⟨?_, fun hloading => ?_, fun hloaded javaType hnone => ?_⟩
      · rw [saveMeta_eq]
        refine inRange_insertPairs (fun p hp => ?_) hst.inRange
        obtain ⟨d, hd, rfl⟩ := List.mem_map.1 hp
        exact inRange_of_mem_definitionsOf hd
      · show st.cache.saveMeta plcInfo = ∅
        rw [MetaCache.saveMeta, hok hloading]
        exact hst.loading hloading
      · have hoverlay : overlay (savedPairs plcInfo) (fun k => st.cache.lookup k) javaType =
            none := by
          rw [← lookup_insertPairs_eq_overlay, ← saveMeta_eq]
          exact hnone
        have hnone := of_overlay_none (m := fun k => st.cache.lookup k) hoverlay
        exact hst.kept hloaded javaType hnone
  | load =>
      rw [metaStep] at h
      split_ifs at h with hloading
      obtain rfl := Option.some.inj h
      rw [hst.loading hloading]
      exact ⟨inRange_loadFromDisk st.file, nofun, fun _ _ hnone => hnone⟩
  | persist =>
      obtain rfl := Option.some.inj h
      refine ⟨hst.inRange, hst.loading, fun hloaded javaType hnone => ?_⟩
      show onDisk text (st.cache.persistToDisk text st.file) javaType = none
      by_cases hempty : st.cache = ∅
      · rw [hempty, persistToDisk_empty]
        exact hst.kept hloaded javaType hnone
      · rw [onDisk_persistToDisk hempty hst.inRange (hok hempty)]
        exact hnone
  | writeFails left =>
      obtain rfl := Option.some.inj h
      refine ⟨hst.inRange, hst.loading, fun hloaded javaType hnone => ?_⟩
      rw [onDisk_congr hok]
      exact hst.kept hloaded javaType hnone
  | restart =>
      obtain rfl := Option.some.inj h
      exact ⟨inRange_empty, fun _ => rfl, nofun⟩

/-- **An orderly step is a step of the store**, or leaves the store as it is. -/
theorem metaStep_store {st st' : MetaState} {e : MetaEvent} (hok : Orderly text st e)
    (hst : MetaInv text st) (h : metaStep text st e = some st') :
    Lts.run Durable.step (storeOf text st) (durableEvents e) = some (storeOf text st') := by
  cases e with
  | saveMeta plcInfo =>
      obtain rfl := Option.some.inj h
      refine Lts.run_cons.2 ⟨_, rfl, ?_⟩
      rw [Lts.run_nil, Option.some.injEq]
      cases hloading : st.loading with
      | true =>
          have hnothing : savedPairs plcInfo = [] := by rw [savedPairs, hok hloading, List.map_nil]
          simp only [storeOf, hloading, if_true, hnothing, overlay_nil]
      | false =>
          simp [storeOf, hloading, saveMeta_eq, lookup_insertPairs_eq_overlay]
  | load =>
      rw [metaStep] at h
      split_ifs at h with hloading
      obtain rfl := Option.some.inj h
      rw [hst.loading hloading]
      simp only [durableEvents, Lts.run_nil, storeOf, hloading]
      rfl
  | persist =>
      obtain rfl := Option.some.inj h
      by_cases hempty : st.cache = ∅
      · -- nothing is written, and the file has no definition that memory does not have
        have hsame : (storeOf text st).memory = (storeOf text st).disk := by
          cases hloading : st.loading with
          | true => simp only [storeOf, hloading, if_true]
          | false =>
              funext javaType
              have hnone : st.cache.lookup javaType = none := by rw [hempty, AList.lookup_empty]
              simp [storeOf, hloading, hnone, hst.kept hloading javaType hnone]
        have hfile : st.cache.persistToDisk text st.file = st.file := by
          rw [hempty, persistToDisk_empty]
        rw [hfile]
        exact Lts.run_cons.2 ⟨_, Durable.step_flush_of_eq hsame, rfl⟩
      · have hloaded : st.loading = false := by
          by_contra hloading
          exact hempty (hst.loading (Bool.eq_true_of_not_eq_false hloading))
        refine Lts.run_cons.2 ⟨_, rfl, ?_⟩
        simp [storeOf, hloaded, onDisk_persistToDisk hempty hst.inRange (hok hempty)]
  | writeFails left =>
      obtain rfl := Option.some.inj h
      simp only [durableEvents, Lts.run_nil, storeOf, onDisk_congr hok]
  | restart =>
      obtain rfl := Option.some.inj h
      rfl

/-- **A file that is read late takes away** what was saved before: the map is what it would be if
nothing had been saved. -/
theorem load_forgets {st : MetaState} {plcInfo : List Value}
    (hreads : readDocument text MetaCache.fromJson st.file ≠ none) :
    Lts.run (metaStep text) st [.saveMeta plcInfo, .load] = Lts.run (metaStep text) st [.load] := by
  obtain ⟨loaded, hloaded⟩ := Option.ne_none_iff_exists'.1 hreads
  have hload (cache : MetaCache) :
      MetaCache.loadFromDisk text st.file cache = (∅ : MetaCache).insertPairs loaded := by
    rw [MetaCache.loadFromDisk, hloaded]
  simp only [Lts.run, metaStep, Option.bind_some, hload]

end Survival

/-! ### Whole runs -/

/-- The definitions that were saved in a run: those that are in the file, and those that are in
memory only. -/
def metaLog (events : List MetaEvent) : Durable.Log String DataBlockDefinition :=
  Durable.logOf (events.flatMap durableEvents)

/-- **What the map has**: after an orderly run, once the file was read, each Java type has the last
definition that was saved for it, apart from those that were saved after the last round of the
writer before a restart, and else the one of the first file. -/
theorem meta_survives (text : JsonText) {file : Option String} {events : List MetaEvent}
    {st : MetaState} (horderly : Lts.Along (metaStep text) (Orderly text) (metaStart file) events)
    (hrun : Lts.run (metaStep text) (metaStart file) events = some st)
    (hloaded : st.loading = false) (javaType : String) :
    st.cache.lookup javaType =
      (lastValue javaType ((metaLog events).flushed ++ (metaLog events).pending)).or
        (onDisk text file javaType) := by
  have hrefines : MetaInv text st ∧
      Lts.run Durable.step (storeOf text (metaStart file))
        (Lts.trace (metaStep text) (fun _ e => durableEvents e) (metaStart file) events) =
          some (storeOf text st) :=
    Lts.run_trace (fun _ _ _ hok hI h => ⟨metaStep_inv hok hI h, metaStep_store hok hI h⟩)
      (metaInv_start file) horderly hrun
  rw [Lts.trace_eq_flatMap hrun] at hrefines
  have hfollows : Durable.Follows (onDisk text file) (metaLog events) (storeOf text st) :=
    Durable.run_follows hrefines.2
  have hcache : (storeOf text st).memory = fun javaType => st.cache.lookup javaType := by
    simp [storeOf, hloaded]
  exact congrFun (hcache.symm.trans hfollows.memory) javaType

/-- A definition of one byte. -/
def tankDefinition : DataBlockDefinition := ⟨"Tank", 1, [⟨"level", "byte", 0, 1, none⟩]⟩

/-- A configuration with the definitions given. -/
def plcWithMeta (definitions : List DataBlockDefinition) : Value :=
  .object [("dataMeta", .array (definitions.map DataBlockDefinition.toJson))]

/-- The label is written, the tank is not, and the process starts again. -/
def labelAndTank : List MetaEvent :=
  [.load, .saveMeta [plcWithMeta (labelCache.entries.map fun e => e.2)], .persist,
    .saveMeta [plcWithMeta [tankDefinition]], .restart, .load]

theorem meta_survives_labelAndTank :
    ∃ st, Lts.run (metaStep smallText) (metaStart none) labelAndTank = some st ∧
      st.cache.lookup "Label" = labelCache.lookup "Label" ∧ st.cache.lookup "Tank" = none := by
  have horderly : Lts.Along (metaStep smallText) (Orderly smallText) (metaStart none)
      labelAndTank := by
    have hloaded {cache : MetaCache} {file : Option String} {plcInfo : List Value} :
        Orderly smallText ⟨cache, file, false⟩ (.saveMeta plcInfo) := by
      intro hloading
      cases hloading
    refine .of_step trivial rfl (.of_step hloaded rfl (.of_step ?_ rfl ?_))
    · intro _
      show smallText.ReadsBack labelCache.toJson
      simp only [JsonText.ReadsBack, smallText, MetaCache.toJson, Option.bind_some, if_true]
    · exact .of_step hloaded rfl (.of_step trivial rfl (.of_step trivial rfl trivial))
  obtain ⟨st, hrun, hloaded⟩ : ∃ st, Lts.run (metaStep smallText) (metaStart none) labelAndTank =
      some st ∧ st.loading = false := ⟨_, rfl, rfl⟩
  have hflushed : (metaLog labelAndTank).flushed = labelCache.entries.map fun e => (e.1, e.2) := by
    decide
  have hpending : (metaLog labelAndTank).pending = [] := by decide
  have hlookup (javaType : String) := meta_survives smallText horderly hrun hloaded javaType
  rw [hflushed, hpending] at hlookup
  refine ⟨st, hrun, (hlookup "Label").trans ?_, (hlookup "Tank").trans ?_⟩
  · decide
  · decide

end FillingPilot
