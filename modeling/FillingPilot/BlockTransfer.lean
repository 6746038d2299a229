/-
**Blocks of values in a PLC.**

The manager writes the values of a block by encoding them and writing the bytes from the start of
the data block on, and reads them by reading as many bytes and decoding those.  The number of the
bytes to read is cut to 16 bits, so that of a block of 65536 bytes and more only a first part is
read.

Main definitions:

* `FillingPilot.S7Manager.PlcBlock` — the definition of a block with the number of its data block;
* `FillingPilot.S7Manager.readDataBlock`, `FillingPilot.S7Manager.writeDataBlock` — the operations.

Main results:

* `FillingPilot.DataBlock.fromBytes_holds_iff` — what a part of the bytes of a block decodes to;
* `FillingPilot.S7Manager.block_comes_back_iff` — **the exact condition** under which the values
  that were written are read.
-/

import FillingPilot.PlcTransfers
import FillingPilot.WriteBack

set_option relaxedAutoImplicit false
set_option autoImplicit false

namespace FillingPilot

open Json Rust

namespace DataBlock

variable {host : Host} {block : DataBlockDefinition} {values : Values}

/-- The values decoded from the bytes are the given ones. -/
def DecodesTo (host : Host) (block : DataBlockDefinition) (bytes : List UInt8) (values : Values) :
    Prop :=
  ∃ result, fromBytes host block bytes = .ok result ∧
    ∀ name, result.2.2.lookup name = values.lookup name

/-- **A part of the bytes of a block** decodes to its values exactly when every property lies in the
part. -/
theorem fromBytes_holds_iff (h : CleanBlock host block) (hgiven : Given block values)
    (hones : ∀ prop ∈ block.properties, prop.count = 1)
    (hnothingElse : ∀ name, (values.lookup name).isSome →
      name ∈ block.properties.map fun prop => prop.name)
    {data : List UInt8} (hencode : encode host block values = .ok data) {m : ℕ}
    (hm : m ≤ data.length) :
    DecodesTo host block (data.slice 0 m) values ↔
      ∀ prop ∈ block.properties, prop.offset + prop.elementSize ≤ m := by
  obtain ⟨data', hencode', hlen, hplaces⟩ := place_of_encode h hgiven hones
  obtain rfl : data = data' := Outcome.ok.inj (hencode.symm.trans hencode')
  -- the part is a block of its own, with the properties of the whole
  let part : DataBlockDefinition := ⟨block.properties, m⟩
  have hpart : (data.slice 0 m).length = part.totalSize := List.length_slice (by omega)
  have hsame {prop : DataBlockProperty} (hin : prop.offset + prop.elementSize ≤ m) :
      firstElement (data.slice 0 m) prop = data.slice prop.offset prop.elementSize := by
    refine List.ext_getElem? fun i => ?_
    simp only [firstElement, List.getElem?_slice, Nat.zero_add]
    split_ifs with hi hm'
    · rfl
    · omega
    · rfl
  have hpos : ∀ prop ∈ part.properties, 0 < prop.elementSize := by
    intro prop hprop
    rw [h.elementSize_eq hprop]
    exact (plainTypes_codec host (h.types prop hprop)).2.1
  have hrestorable : ∀ prop ∈ part.properties, Shown part prop →
      Restorable host (data.slice 0 m) prop := by
    rintro prop hprop ⟨-, hin⟩
    obtain ⟨value, -, codec, hcodec, hencode, hdecode, -⟩ := hplaces prop hprop
    rw [Restorable, hsame hin]
    exact ⟨codec, value, hcodec, hdecode, hencode⟩
  have hnames : (part.properties.map fun prop => prop.name).Nodup := h.names
  obtain ⟨final, hdecode, hshown, hmissing, hrest⟩ := decode_shown hnames hpart hpos hrestorable
  have hfrom : fromBytes host block (data.slice 0 m) = .ok (block, data.slice 0 m, final) := by
    rw [fromBytes, show decode host block (data.slice 0 m) = .ok final from hdecode]
    rfl
  constructor
  · rintro ⟨result, hresult, hlookup⟩ prop hprop
    by_contra hout
    rw [hfrom] at hresult
    cases hresult
    obtain ⟨value, hvalue, -⟩ := hplaces prop hprop
    have hnone := hmissing prop hprop fun hin => hout hin.2
    rw [← hlookup, hnone] at hvalue
    cases hvalue
  · intro hin
    refine ⟨_, hfrom, fun name => ?_⟩
    by_cases hname : name ∈ block.properties.map fun prop => prop.name
    · obtain ⟨prop, hprop, rfl⟩ := List.mem_map.1 hname
      have hone := hones prop hprop
      obtain ⟨value, hvalue, codec, hcodec, -, hvalue', -⟩ := hplaces prop hprop
      obtain ⟨codec', value', hcodec', hread, -, hfinal⟩ :=
        hshown prop hprop ⟨by omega, hin prop hprop⟩
      obtain rfl : codec = codec' := Option.some.inj (hcodec.symm.trans hcodec')
      rw [hsame (hin prop hprop)] at hread
      obtain rfl : value = value' := Outcome.ok.inj (hvalue'.symm.trans hread)
      rw [hfinal, shownValue, if_pos hone, hvalue]
    · rw [hrest name hname]
      cases hvalue : values.lookup name with
      | none => rfl
      | some value => exact absurd (hnothingElse name (by rw [hvalue]; rfl)) hname

end DataBlock

namespace S7Manager

open DataBlock

/-- The definition of a block, and the number of its data block. -/
structure PlcBlock where
  dbNumber : UInt16
  definition : DataBlock.DataBlockDefinition

/-- The bytes that `read_data_block` reads; `DataBlock::from_bytes` decodes them. -/
def readDataBlock (host : String) (port : UInt16) (block : PlcBlock) : PlcCall :=
  .read host port block.dbNumber 0 (UInt16.ofNat block.definition.totalSize)

/-- What `write_data_block` writes. -/
def writeDataBlock (codecs : Host) (host : String) (port : UInt16) (block : PlcBlock)
    (values : Values) : Outcome PlcCall := do
  let data ← DataBlock.encode codecs block.definition values
  return .write host port block.dbNumber 0 data

section Runs

variable {δ ω : Type} {s7 : Connector δ ω} {plcAt : Endpoint → δ} {content : ω → PlcMemory δ}

/-- **The exact condition** for the values of a clean block of single values that were written to a
PLC: when the transfer of the write has succeeded and no later step touches its cells, a read of the
block that succeeds gives the values exactly when every property ends in the bytes whose number is
that of the block cut to 16 bits. -/
theorem block_comes_back_iff (hs7 : s7.Transfers content) {codecs : Host} {block : PlcBlock}
    {values : Values} (hclean : CleanBlock codecs block.definition)
    (hgiven : Given block.definition values)
    (hones : ∀ prop ∈ block.definition.properties, prop.count = 1)
    (hnothingElse : ∀ name, (values.lookup name).isSome →
      name ∈ block.definition.properties.map fun prop => prop.name)
    {world : ω} {before between : List (PlcEvent ω)} {s t u : PlcState ω} {w r : PlcEvent ω}
    {host : String} {port : UInt16} {call : PlcCall} {bytes : List UInt8}
    (hcall : writeDataBlock codecs host port block values = .ok call)
    (hbefore : Lts.run (plcStep s7 plcAt) (plcStart world) before = some s)
    (hw : performed s w = some call) (hwok : answer s7 plcAt s w = some (.ok []))
    (hwrite : plcStep s7 plcAt s w = some t)
    (hspares : Lts.Along (plcStep s7 plcAt) (Spares content plcAt (plcAt ⟨host, port⟩)
      block.dbNumber 0 block.definition.totalSize) t between)
    (hbetween : Lts.run (plcStep s7 plcAt) t between = some u)
    (hr : performed u r = some (readDataBlock host port block))
    (hrok : answer s7 plcAt u r = some (.ok bytes)) :
    DecodesTo codecs block.definition bytes values ↔
      ∀ prop ∈ block.definition.properties,
        prop.offset + prop.elementSize ≤ block.definition.totalSize % 65536 := by
  obtain ⟨data, hencode, hdata⟩ := Outcome.bind_eq_ok.1 hcall
  cases hdata
  obtain ⟨data', hencode', hlen, -⟩ := place_of_encode hclean hgiven hones
  obtain rfl : data = data' := Outcome.ok.inj (hencode.symm.trans hencode')
  have hsize : (UInt16.ofNat block.definition.totalSize).toNat =
      block.definition.totalSize % 65536 := UInt16.toNat_ofNat'
  have hle : block.definition.totalSize % 65536 ≤ data.length := hlen ▸ Nat.mod_le _ _
  have hbytes := written_is_read hs7 hbefore hw hwok hwrite (hlen ▸ hspares) hbetween hr hrok rfl
    (Nat.le_refl _) (by rw [hsize]; simpa using hle)
  rw [Nat.sub_self, hsize] at hbytes
  subst hbytes
  exact fromBytes_holds_iff hclean hgiven hones hnothingElse hencode hle

end Runs

/-- A flag in data block 3. -/
def flagBlock : PlcBlock where
  dbNumber := 3
  definition := ⟨[⟨"flag", .boolean, 0, 1, none⟩], 1⟩

/-- Its value. -/
def flagValues : Values := (∅ : Values).insert "flag" (.bool true)

/-- The write of the flag has a connection. -/
def flagWrite : List (PlcEvent (PlcMemory Endpoint)) :=
  [.start (.plc (.write "10.0.0.1" 102 3 0 [1])), .advance 0 .good, .advance 0 .good,
    .advance 0 .good]

/-- The read of the flag has one too. -/
def flagRead : List (PlcEvent (PlcMemory Endpoint)) :=
  [.start (.plc (readDataBlock "10.0.0.1" 102 flagBlock)), .advance 1 .good]

theorem block_comes_back_iff_flag :
    ∃ s t u, Lts.run memoryStep (plcStart fun _ _ => 0) flagWrite = some s ∧
      memoryStep s (.advance 0 .good) = some t ∧ Lts.run memoryStep t flagRead = some u ∧
      (DecodesTo bareHost flagBlock.definition [1] flagValues ↔
        ∀ prop ∈ flagBlock.definition.properties,
          prop.offset + prop.elementSize ≤ flagBlock.definition.totalSize % 65536) := by
  have hclean : CleanBlock bareHost flagBlock.definition := {
    names := by decide
    counts := by decide
    types := by decide
    sizes := fun prop hprop => by
      rw [List.mem_singleton.1 hprop]
      exact Or.inl rfl
    inside := by decide
    disjoint := by decide }
  have hgiven : Given flagBlock.definition flagValues := by
    intro prop hprop
    rw [List.mem_singleton.1 hprop]
    exact ⟨_, rfl, .boolean true⟩
  have hnothingElse : ∀ name, (flagValues.lookup name).isSome →
      name ∈ flagBlock.definition.properties.map fun prop => prop.name := by
    intro name hsome
    by_contra hnot
    rw [flagValues, AList.lookup_insert_ne fun heq => hnot (List.mem_singleton.2 heq)] at hsome
    cases hsome
  have hcall : writeDataBlock bareHost "10.0.0.1" 102 flagBlock flagValues =
      .ok (.write "10.0.0.1" 102 3 0 [1]) := rfl
  obtain ⟨s, hbefore, hw, hwok, t, hwrite, hspares, u, hbetween, hr, hrok⟩ :
      ∃ s, Lts.run memoryStep (plcStart fun _ _ => 0) flagWrite = some s ∧
        performed s (.advance 0 .good) = some (.write "10.0.0.1" 102 3 0 [1]) ∧
        answer (memoryConnector Endpoint) id s (.advance 0 .good) = some (.ok []) ∧
        ∃ t, memoryStep s (.advance 0 .good) = some t ∧
          Lts.Along memoryStep (Spares id id ⟨"10.0.0.1", 102⟩ 3 0 1) t flagRead ∧
          ∃ u, Lts.run memoryStep t flagRead = some u ∧
            performed u (.advance 1 .good) = some (readDataBlock "10.0.0.1" 102 flagBlock) ∧
            answer (memoryConnector Endpoint) id u (.advance 1 .good) = some (.ok [1]) := by
    refine ⟨_, rfl, rfl, rfl, _, rfl, ?_, _, rfl, rfl, rfl⟩
    -- neither step of the read before its transfer transfers anything
    refine .of_step ⟨fun _ h => ?_, fun _ h => ?_⟩ rfl <|
      .of_step ⟨fun _ h => ?_, fun _ h => ?_⟩ rfl trivial
    all_goals cases h
  exact ⟨s, t, u, hbefore, hwrite, hbetween,
    block_comes_back_iff (memoryConnector_transfers Endpoint) hclean hgiven (by decide) hnothingElse
      hcall hbefore hw hwok hwrite hspares hbetween hr hrok⟩

end S7Manager

end FillingPilot
