/-
**Definitions of blocks and monitors on the disk.**

Two files in the home directory keep what the server has sent about the PLCs: the definitions of
blocks, as an object with a member for each Java type, and the monitors, as an array.  Once a minute
both are written, unless there is nothing to write, and on startup they are read back.

What prints the texts and reads them is a parameter.  Where a file is read back, it is assumed that
the text printed for its document is read as this document.

Main definitions:

* `FillingPilot.DataBlockDefinition.toJson`, `FillingPilot.DataBlockDefinition.fromJson`,
  `FillingPilot.Monitor.toJson`, `FillingPilot.Monitor.fromJson` — the derived writers and readers;
* `FillingPilot.MetaCache.persistToDisk`, `FillingPilot.MetaCache.loadFromDisk`,
  `FillingPilot.Monitor.persistToDisk`, `FillingPilot.Monitor.loadFromDisk` — the two files.

Main results:

* `FillingPilot.DataBlockDefinition.fromJson_toJson`, `FillingPilot.Monitor.fromJson_toJson` — the
  records are read back;
* `FillingPilot.configuration_restored` — **a restart restores** the definitions and the monitors;
* `FillingPilot.Monitor.loadFromDisk_runs` — what a restart restores after many rounds of the
  writer: the monitors of the last round that had any;
* `FillingPilot.MonitorProcessor.loadFromDisk_persistToDisk` — the processor's monitors are active
  again.
-/

import FillingPilot.Deploy
import FillingPilot.Monitor
import FillingPilot.ReportStore
import FillingPilot.Serde

set_option relaxedAutoImplicit false
set_option autoImplicit false

namespace FillingPilot

open Json

/-! ### The records -/

/-- A `usize` is written as a number. -/
def ofUsize (n : ℕ) : Value := .ofInt n

/-- An integer of the range of `u32`. -/
def readU32 (v : Value) : Option UInt32 := (readUnsigned 32 v).map UInt32.ofNat

theorem readU32_ofInt (n : UInt32) : readU32 (.ofInt n.toNat) = some n := by
  rw [readU32, readUnsigned_ofInt (by decide) n.toNat_lt, Option.map_some, UInt32.ofNat_toNat]

/-- The count of a property that has none in the file. -/
def defaultCount : ℕ := 1

namespace DataBlockPropertyDefinition

/-- The members that are always written. -/
def members (p : DataBlockPropertyDefinition) : List (String × Value) :=
  [("name", .string p.name), ("type", .string p.propertyType), ("offset", ofUsize p.offset),
    ("count", ofUsize p.count)]

def toJson (p : DataBlockPropertyDefinition) : Value :=
  .object (p.members ++ writeOptional "byteSize" ofUsize p.byteSize)

def fromJson (v : Value) : Option DataBlockPropertyDefinition := do
  guard (isRecord 5 v)
  let name ← required 0 "name" Value.asStr v
  let propertyType ← required 1 "type" Value.asStr v
  let offset ← required 2 "offset" (readUnsigned 64) v
  let count ← defaulted 3 "count" (readUnsigned 64) defaultCount v
  let byteSize ← optional 4 "byteSize" (readUnsigned 64) v
  return { name, propertyType, offset, count, byteSize }

/-- The sizes are `usize`s. -/
structure InRange (p : DataBlockPropertyDefinition) : Prop where
  offset : p.offset < 2 ^ 64
  count : p.count < 2 ^ 64
  byteSize : ∀ n ∈ p.byteSize, n < 2 ^ 64

/-- The names of a property's members differ, with and without a size. -/
theorem nodup_names (p : DataBlockPropertyDefinition) :
    ((p.members ++ writeOptional "byteSize" ofUsize p.byteSize).map Prod.fst).Nodup := by
  cases p.byteSize with
  | none => exact show ["name", "type", "offset", "count"].Nodup by decide
  | some n => exact show ["name", "type", "offset", "count", "byteSize"].Nodup by decide

theorem fromJson_toJson {p : DataBlockPropertyDefinition} (h : p.InRange) :
    fromJson p.toJson = some p := by
  have hnodup := p.nodup_names
  have husize {n : ℕ} (hn : n < 2 ^ 64) : readUnsigned 64 (ofUsize n) = some n :=
    readUnsigned_ofInt le_rfl hn
  have hname : required 0 "name" Value.asStr p.toJson = some p.name :=
    required_written hnodup rfl rfl
  have htype : required 1 "type" Value.asStr p.toJson = some p.propertyType :=
    required_written hnodup rfl rfl
  have hoffset : required 2 "offset" (readUnsigned 64) p.toJson = some p.offset :=
    required_written hnodup rfl (husize h.offset)
  have hcount : defaulted 3 "count" (readUnsigned 64) defaultCount p.toJson = some p.count :=
    defaulted_written hnodup rfl (husize h.count)
  have hfree : "byteSize" ∉ p.members.map Prod.fst :=
    show "byteSize" ∉ ["name", "type", "offset", "count"] by decide
  have hbyteSize : optional 4 "byteSize" (readUnsigned 64) p.toJson = some p.byteSize :=
    optional_written hnodup hfree nofun fun n hn => husize (h.byteSize n hn)
  rw [fromJson, hname, htype, hoffset, hcount, hbyteSize]
  rfl

end DataBlockPropertyDefinition

namespace DataBlockDefinition

def members (d : DataBlockDefinition) : List (String × Value) :=
  [("javaType", .string d.javaType), ("blockSize", ofUsize d.blockSize),
    ("dataBlockPropertyDefinitionList",
      .array (d.dataBlockPropertyDefinitionList.map DataBlockPropertyDefinition.toJson))]

def toJson (d : DataBlockDefinition) : Value := .object d.members

def fromJson (v : Value) : Option DataBlockDefinition := do
  guard (isRecord 3 v)
  let javaType ← required 0 "javaType" Value.asStr v
  let blockSize ← required 1 "blockSize" (readUnsigned 64) v
  let dataBlockPropertyDefinitionList ← defaulted 2 "dataBlockPropertyDefinitionList"
    (readVec DataBlockPropertyDefinition.fromJson) [] v
  return { javaType, blockSize, dataBlockPropertyDefinitionList }

/-- The sizes are `usize`s. -/
structure InRange (d : DataBlockDefinition) : Prop where
  blockSize : d.blockSize < 2 ^ 64
  properties : ∀ p ∈ d.dataBlockPropertyDefinitionList, p.InRange

/-- **A definition is read back**, with every property as it was. -/
theorem fromJson_toJson {d : DataBlockDefinition} (h : d.InRange) : fromJson d.toJson = some d := by
  have hnodup : (d.members.map Prod.fst).Nodup :=
    show ["javaType", "blockSize", "dataBlockPropertyDefinitionList"].Nodup by decide
  have hjavaType : required 0 "javaType" Value.asStr d.toJson = some d.javaType :=
    required_written hnodup rfl rfl
  have hblockSize : required 1 "blockSize" (readUnsigned 64) d.toJson = some d.blockSize :=
    required_written hnodup rfl (readUnsigned_ofInt le_rfl h.blockSize)
  have hproperties : defaulted 2 "dataBlockPropertyDefinitionList"
      (readVec DataBlockPropertyDefinition.fromJson) [] d.toJson =
        some d.dataBlockPropertyDefinitionList :=
    defaulted_written hnodup rfl
      (readVec_map fun p hp => DataBlockPropertyDefinition.fromJson_toJson (h.properties p hp))
  rw [fromJson, hjavaType, hblockSize, hproperties]
  rfl

end DataBlockDefinition

namespace Monitor

def members (m : Monitor) : List (String × Value) :=
  [("id", .string m.id), ("merchantId", .string m.merchantId), ("ip", .string m.ip),
    ("port", .ofInt m.port.toNat), ("name", .string m.name), ("code", .string m.code),
    ("dbNumber", .ofInt m.dbNumber.toNat), ("offset", .ofInt m.offset.toNat),
    ("blockSize", .ofInt m.blockSize.toNat), ("type", .string m.monitorType),
    ("frequency", .ofInt m.frequency), ("resendInterval", .ofInt m.resendInterval),
    ("forwardAddress", .string m.forwardAddress), ("localAddress", .string m.localAddress)]

def toJson (m : Monitor) : Value := .object m.members

def fromJson (v : Value) : Option Monitor := do
  guard (isRecord 14 v)
  let id ← required 0 "id" Value.asStr v
  let merchantId ← required 1 "merchantId" Value.asStr v
  let ip ← required 2 "ip" Value.asStr v
  let port ← required 3 "port" readU16 v
  let name ← required 4 "name" Value.asStr v
  let code ← required 5 "code" Value.asStr v
  let dbNumber ← required 6 "dbNumber" readU16 v
  let offset ← required 7 "offset" readU32 v
  let blockSize ← required 8 "blockSize" readU32 v
  let monitorType ← required 9 "type" Value.asStr v
  let frequency ← required 10 "frequency" (readUnsigned 64) v
  let resendInterval ← required 11 "resendInterval" (readUnsigned 64) v
  let forwardAddress ← required 12 "forwardAddress" Value.asStr v
  let localAddress ← required 13 "localAddress" Value.asStr v
  return {
    id, merchantId, ip, port, name, code, dbNumber, offset, blockSize, monitorType, frequency,
    resendInterval, forwardAddress, localAddress }

/-- The times are `u64`s. -/
structure InRange (m : Monitor) : Prop where
  frequency : m.frequency < 2 ^ 64
  resendInterval : m.resendInterval < 2 ^ 64

/-- **A monitor is read back.** -/
theorem fromJson_toJson {m : Monitor} (h : m.InRange) : fromJson m.toJson = some m := by
  have hnodup : (m.members.map Prod.fst).Nodup :=
    show ["id", "merchantId", "ip", "port", "name", "code", "dbNumber", "offset", "blockSize",
      "type", "frequency", "resendInterval", "forwardAddress", "localAddress"].Nodup by decide
  have text {place : ℕ} {name s : String} (hs : m.members[place]? = some (name, .string s)) :
      required place name Value.asStr m.toJson = some s := required_written hnodup hs rfl
  have hport : required 3 "port" readU16 m.toJson = some m.port :=
    required_written hnodup rfl (readU16_ofInt m.port)
  have hdbNumber : required 6 "dbNumber" readU16 m.toJson = some m.dbNumber :=
    required_written hnodup rfl (readU16_ofInt m.dbNumber)
  have hoffset : required 7 "offset" readU32 m.toJson = some m.offset :=
    required_written hnodup rfl (readU32_ofInt m.offset)
  have hblockSize : required 8 "blockSize" readU32 m.toJson = some m.blockSize :=
    required_written hnodup rfl (readU32_ofInt m.blockSize)
  have hfrequency : required 10 "frequency" (readUnsigned 64) m.toJson = some m.frequency :=
    required_written hnodup rfl (readUnsigned_ofInt le_rfl h.frequency)
  have hresend : required 11 "resendInterval" (readUnsigned 64) m.toJson =
      some m.resendInterval :=
    required_written hnodup rfl (readUnsigned_ofInt le_rfl h.resendInterval)
  have hid : required 0 "id" Value.asStr m.toJson = some m.id := text rfl
  have hmerchantId : required 1 "merchantId" Value.asStr m.toJson = some m.merchantId := text rfl
  have hip : required 2 "ip" Value.asStr m.toJson = some m.ip := text rfl
  have hname : required 4 "name" Value.asStr m.toJson = some m.name := text rfl
  have hcode : required 5 "code" Value.asStr m.toJson = some m.code := text rfl
  have htype : required 9 "type" Value.asStr m.toJson = some m.monitorType := text rfl
  have hforward : required 12 "forwardAddress" Value.asStr m.toJson = some m.forwardAddress :=
    text rfl
  have hlocal : required 13 "localAddress" Value.asStr m.toJson = some m.localAddress := text rfl
  rw [fromJson, hid, hmerchantId, hip, hport, hname, hcode, hdbNumber, hoffset, hblockSize, htype,
    hfrequency, hresend, hforward, hlocal]
  rfl

end Monitor

/-! ### The files -/

/-- What prints documents and reads them. -/
structure JsonText where
  toStringPretty : Value → Option String
  fromStr : String → Option Value

/-- The document can be printed, and its text is read as this document. -/
def JsonText.ReadsBack (text : JsonText) (document : Value) : Prop :=
  (text.toStringPretty document).bind text.fromStr = some document

section Files

variable (text : JsonText)

/-- A file after a document was written to it, `none` standing for no file; nothing is written for
an empty collection, nor for a document that cannot be printed. -/
def writeDocument (empty : Bool) (document : Value) (file : Option String) : Option String :=
  if empty then file
  else match text.toStringPretty document with
    | some json => some json
    | none => file

/-- What is read from a file, nothing when it is not there or cannot be parsed. -/
def readDocument {α : Type} (read : Value → Option α) (file : Option String) : Option α :=
  (file.bind text.fromStr).bind read

namespace MetaCache

/-- A member for each Java type, in the order in which the map happens to be iterated. -/
def toJson (cache : MetaCache) : Value := .object (cache.entries.map fun e => (e.1, e.2.toJson))

def fromJson : Value → Option (List (String × DataBlockDefinition)) :=
  readMap some DataBlockDefinition.fromJson

def persistToDisk (cache : MetaCache) (file : Option String) : Option String :=
  writeDocument text cache.entries.isEmpty cache.toJson file

/-- The cache after the file was read: the map of the file takes its place, unless there is none. -/
def loadFromDisk (file : Option String) (cache : MetaCache) : MetaCache :=
  match readDocument text fromJson file with
  | some loaded => (∅ : MetaCache).insertPairs loaded
  | none => cache

def InRange (cache : MetaCache) : Prop :=
  ∀ javaType d, cache.lookup javaType = some d → d.InRange

end MetaCache

namespace Monitor

def listToJson (monitors : List Monitor) : Value := .array (monitors.map toJson)

def listFromJson : Value → Option (List Monitor) := readVec fromJson

def persistToDisk (monitors : List Monitor) (file : Option String) : Option String :=
  writeDocument text monitors.isEmpty (listToJson monitors) file

def loadFromDisk (file : Option String) : List Monitor :=
  (readDocument text listFromJson file).getD []

end Monitor

end Files

section Restart

variable {text : JsonText}

theorem readDocument_writeDocument {α : Type} {read : Value → Option α} {document : Value} {a : α}
    (htext : text.ReadsBack document) (hread : read document = some a) (file : Option String) :
    readDocument text read (writeDocument text false document file) = some a := by
  obtain ⟨json, hjson, hdocument⟩ := Option.bind_eq_some_iff.1 htext
  have hfile : writeDocument text false document file = some json := by
    rw [writeDocument, hjson]
    rfl
  rw [readDocument, hfile, Option.bind_some, hdocument, Option.bind_some, hread]

theorem MetaCache.fromJson_toJson {cache : MetaCache} (h : cache.InRange) :
    fromJson cache.toJson = some (cache.entries.map fun e => (e.1, e.2)) := by
  have hread : ∀ p ∈ cache.entries.map fun e => (e.1, e.2),
      DataBlockDefinition.fromJson p.2.toJson = some p.2 := by
    intro p hp
    obtain ⟨e, he, rfl⟩ := List.mem_map.1 hp
    exact DataBlockDefinition.fromJson_toJson (h e.1 e.2 (AList.mem_entries_iff.1 he))
  have hmap : fromJson (.object ((cache.entries.map fun e => (e.1, e.2)).map fun p =>
      (id p.1, p.2.toJson))) = some (cache.entries.map fun e => (e.1, e.2)) :=
    readMap_map (fun _ _ => rfl) hread
  rw [List.map_map] at hmap
  exact hmap

theorem MetaCache.lookup_loadFromDisk {cache : MetaCache} (hne : cache ≠ ∅) (h : cache.InRange)
    (htext : text.ReadsBack cache.toJson) (file : Option String) (before : MetaCache)
    (javaType : String) :
    (loadFromDisk text (persistToDisk text cache file) before).lookup javaType =
      cache.lookup javaType := by
  have hentries : cache.entries.isEmpty = false := by
    rw [List.isEmpty_eq_false_iff]
    intro hnil
    exact hne (AList.ext hnil)
  rw [persistToDisk, hentries, loadFromDisk,
    readDocument_writeDocument htext (fromJson_toJson h) file]
  exact AList.lookup_insertPairs_entries cache javaType

theorem Monitor.loadFromDisk_persistToDisk {monitors : List Monitor} (hne : monitors ≠ [])
    (h : ∀ m ∈ monitors, m.InRange) (htext : text.ReadsBack (listToJson monitors))
    (file : Option String) : loadFromDisk text (persistToDisk text monitors file) = monitors := by
  have hread : listFromJson (listToJson monitors) = some monitors :=
    readVec_map fun m hm => fromJson_toJson (h m hm)
  rw [persistToDisk, List.isEmpty_eq_false_iff.2 hne, loadFromDisk,
    readDocument_writeDocument htext hread file, Option.getD_some]

/-- **Metadata and monitors survive a restart**: whatever was in the file and in memory, the same
definitions are under the same Java types, and the monitors are the same. -/
theorem configuration_restored (text : JsonText) :
    (∀ cache : MetaCache, cache ≠ ∅ → cache.InRange → text.ReadsBack cache.toJson →
      ∀ file before javaType,
        (MetaCache.loadFromDisk text (cache.persistToDisk text file) before).lookup javaType =
          cache.lookup javaType) ∧
    (∀ monitors : List Monitor, monitors ≠ [] → (∀ m ∈ monitors, m.InRange) →
      text.ReadsBack (Monitor.listToJson monitors) →
      ∀ file, Monitor.loadFromDisk text (Monitor.persistToDisk text monitors file) = monitors) :=
  ⟨fun _ hne h htext file before javaType =>
      MetaCache.lookup_loadFromDisk hne h htext file before javaType,
    fun _ hne h htext file => Monitor.loadFromDisk_persistToDisk hne h htext file⟩

/-- Two properties, one with a size of its own. -/
def labelCache : MetaCache :=
  AList.singleton "Label" {
    javaType := "Label"
    blockSize := 8
    dataBlockPropertyDefinitionList :=
      [⟨"text", "string", 0, 1, none⟩, ⟨"code", "byte", 4, 2, some 2⟩] }

/-- The file of the two properties. -/
def labelText : String := "\n".intercalate [
  "\x7b",
  "  \"Label\": \x7b",
  "    \"javaType\": \"Label\",",
  "    \"blockSize\": 8,",
  "    \"dataBlockPropertyDefinitionList\": [",
  "      \x7b",
  "        \"name\": \"text\",",
  "        \"type\": \"string\",",
  "        \"offset\": 0,",
  "        \"count\": 1",
  "      \x7d,",
  "      \x7b",
  "        \"name\": \"code\",",
  "        \"type\": \"byte\",",
  "        \"offset\": 4,",
  "        \"count\": 2,",
  "        \"byteSize\": 2",
  "      \x7d",
  "    ]",
  "  \x7d",
  "\x7d"]

/-- The file of one monitor. -/
def smallMonitorText : String := "\n".intercalate [
  "[",
  "  \x7b",
  "    \"id\": \"M1\",",
  "    \"merchantId\": \"\",",
  "    \"ip\": \"10.0.0.1\",",
  "    \"port\": 102,",
  "    \"name\": \"\",",
  "    \"code\": \"\",",
  "    \"dbNumber\": 1,",
  "    \"offset\": 0,",
  "    \"blockSize\": 2,",
  "    \"type\": \"\",",
  "    \"frequency\": 50,",
  "    \"resendInterval\": 1000,",
  "    \"forwardAddress\": \"\",",
  "    \"localAddress\": \"\"",
  "  \x7d",
  "]"]

/-- Prints and reads the two files. -/
def smallText : JsonText where
  toStringPretty document :=
    match document with
    | .object _ => some labelText
    | _ => some smallMonitorText
  fromStr json :=
    if json = labelText then some labelCache.toJson
    else if json = smallMonitorText then some (Monitor.listToJson [MonitorProcessor.smallMonitor])
    else none

theorem configuration_restored_small :
    (MetaCache.loadFromDisk smallText (labelCache.persistToDisk smallText none) ∅).lookup "Label" =
        labelCache.lookup "Label" ∧
      Monitor.loadFromDisk smallText
        (Monitor.persistToDisk smallText [MonitorProcessor.smallMonitor] none) =
          [MonitorProcessor.smallMonitor] := by
  have hne : labelCache ≠ ∅ := fun heq => absurd (congrArg AList.entries heq) (by decide)
  have hcache : labelCache.InRange := by
    intro javaType d hd
    cases List.mem_singleton.1 (AList.mem_entries_iff.2 hd)
    refine ⟨by decide, fun p hp => ?_⟩
    rcases List.mem_pair.1 hp with rfl | rfl
    · exact ⟨by decide, by decide, by decide⟩
    · exact ⟨by decide, by decide, by decide⟩
  have hlabel : smallText.ReadsBack labelCache.toJson := by
    simp only [JsonText.ReadsBack, smallText, MetaCache.toJson, Option.bind_some, if_true]
  have htexts : smallMonitorText ≠ labelText := by decide
  have hmonitor : smallText.ReadsBack (Monitor.listToJson [MonitorProcessor.smallMonitor]) := by
    simp only [JsonText.ReadsBack, smallText, Monitor.listToJson, Option.bind_some, if_neg htexts,
      if_true]
  have hrange : ∀ m ∈ [MonitorProcessor.smallMonitor], m.InRange := by
    intro m hm
    obtain rfl := List.mem_singleton.1 hm
    exact ⟨by decide, by decide⟩
  exact ⟨(configuration_restored smallText).1 labelCache hne hcache hlabel none ∅ "Label",
    (configuration_restored smallText).2 _ (by decide) hrange hmonitor none⟩

/-! ### Rounds of the writer -/

/-- After any rounds of the writer a restart restores the monitors of the last round that had any:
that there are none is never written. -/
theorem Monitor.loadFromDisk_runs {rounds : List (List Monitor)}
    (h : ∀ monitors ∈ rounds, ∀ m ∈ monitors, m.InRange)
    (htext : ∀ monitors ∈ rounds, text.ReadsBack (listToJson monitors)) (file : Option String) :
    loadFromDisk text (rounds.foldl (fun file monitors => persistToDisk text monitors file) file) =
      (rounds.filter fun monitors => !monitors.isEmpty).getLast?.getD (loadFromDisk text file) := by
  induction rounds generalizing file with
  | nil => rfl
  | cons monitors rounds ih =>
      rw [List.foldl_cons, ih (fun l hl => h l (List.mem_cons_of_mem _ hl))
        fun l hl => htext l (List.mem_cons_of_mem _ hl)]
      cases hempty : monitors.isEmpty with
      | true =>
          have hfile : persistToDisk text monitors file = file := by
            rw [persistToDisk, hempty]
            rfl
          rw [hfile, List.filter_cons_of_neg (by simp [hempty])]
      | false =>
          have hlast := loadFromDisk_persistToDisk (List.isEmpty_eq_false_iff.1 hempty)
            (h monitors List.mem_cons_self) (htext monitors List.mem_cons_self) file
          rw [hlast, List.filter_cons_of_pos (by simp [hempty]), List.getLast?_cons,
            Option.getD_some]

/-- The active monitors after the file was read: those of the file are added. -/
def MonitorProcessor.loadFromDisk (text : JsonText) (file : Option String)
    (active : Finset Monitor) : Finset Monitor :=
  let monitors := Monitor.loadFromDisk text file
  if monitors.isEmpty then active
  else monitors.foldl (fun active m => insert m active) active

theorem MonitorProcessor.loadFromDisk_persistToDisk {monitors : Finset Monitor}
    {order : List Monitor} (horder : IterationOrder monitors order) (hne : monitors.Nonempty)
    (h : ∀ m ∈ monitors, m.InRange) (htext : text.ReadsBack (Monitor.listToJson order))
    (file : Option String) :
    loadFromDisk text (Monitor.persistToDisk text order file) ∅ = monitors := by
  obtain ⟨-, rfl⟩ := horder
  have hlist : order ≠ [] := (List.toFinset_nonempty_iff order).1 hne
  have hloaded := Monitor.loadFromDisk_persistToDisk hlist
    (fun m hm => h m (List.mem_toFinset.2 hm)) htext file
  have hinsert (l : List Monitor) (active : Finset Monitor) :
      l.foldl (fun active m => insert m active) active = active ∪ l.toFinset := by
    induction l generalizing active with
    | nil => simp
    | cons m l ih =>
        rw [List.foldl_cons, ih, List.toFinset_cons, Finset.insert_union, Finset.union_insert]
  rw [loadFromDisk, hloaded, List.isEmpty_eq_false_iff.2 hlist]
  exact (hinsert order ∅).trans (Finset.empty_union _)

end Restart

end FillingPilot
