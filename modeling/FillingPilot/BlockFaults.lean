/-
**Decoding never reads outside a block**, but for one property that is not there.

The two decoders of blocks compute the bounds of their slices with `usize`s, cut them at the end of
the data or skip what reaches over it, and give the slices to the decoders of values.  As long as no
end of a property leaves `usize`, every slice is inside the data.  The decoder of the blocks in
memory takes the end of one element also for a property without elements, and that end can leave
`usize` when the end of the property does not.

Main definitions:

* `FillingPilot.Machine.decodeAsMap`, `FillingPilot.DataBlock.Machine.decode` — the decoders, with
  the arithmetic of `usize` and the kinds of faults;
* `FillingPilot.ReadsInside` — no decoder reads outside its bytes;
* `FillingPilot.DataBlock.Wraps` — a property whose first element leaves `usize`.

Main results:

* `FillingPilot.Machine.outcome_decodeAsMap`, `FillingPilot.DataBlock.Machine.decode_panicsIff` —
  the decoders against those without bounds of `usize`;
* `FillingPilot.Machine.decodeAsMap_eq_ok_iff` — **when there is a map**;
* `FillingPilot.Machine.decodeAsMap_faults` — **what faults in a map**: a time, and no slice;
* `FillingPilot.readsInside_iff` — **the exact condition** for both decoders.
-/

import FillingPilot.BlockIsolation
import FillingPilot.DataBlock
import FillingPilot.DecodeFaults
import FillingPilot.DeployPanic

set_option relaxedAutoImplicit false
set_option autoImplicit false

namespace FillingPilot

open Json Rust

/-! ### The map of a block -/

/-- The end of the property is a `usize`. -/
def DataBlockPropertyDefinition.Fits (p : DataBlockPropertyDefinition) : Prop :=
  p.offset + p.elementSize * p.count < 2 ^ 64

/-- The end of every property of the block is a `usize`. -/
def DataBlockDefinition.Fits (definition : DataBlockDefinition) : Prop :=
  ∀ p ∈ definition.dataBlockPropertyDefinitionList, p.Fits

namespace Machine

section Decoding

variable (build : Build) (host : Host)

/-- The value in some bytes; nothing without a codec or when the codec rejects them. -/
def readElement (type : String) (bytes : List UInt8) : Faulty (Option Value) :=
  match getDecoder build host type with
  | none => .ok none
  | some decode =>
      match decode bytes with
      | .ok value => .ok (some value)
      | .err _ => .ok none
      | .fault kind => .fault kind

/-- The values of the elements from number `i` on, `n` of them or as many as begin in the data. -/
def readElements (p : DataBlockPropertyDefinition) (data : List UInt8) :
    ℕ → ℕ → Faulty (List Value)
  | 0, _ => .ok []
  | n + 1, i => do
      let before ← build.unsigned 64 (i * p.elementSize : ℕ)
      let itemStart ← build.unsigned 64 (p.offset + before : ℕ)
      let itemStop ← build.unsigned 64 (itemStart + p.elementSize : ℕ)
      let itemEnd := min itemStop data.length
      if data.length ≤ itemStart then .ok []
      else do
        let propBytes ← Faulty.slice itemStart itemEnd data
        let value ← readElement build host p.propertyType propBytes
        let arr ← readElements p data n (i + 1)
        return value.toList ++ arr

/-- One property of the block. -/
def decodeProperty (data : List UInt8) (map : AList fun _ : String => Value)
    (p : DataBlockPropertyDefinition) : Faulty (AList fun _ : String => Value) := do
  let start := p.offset
  let size ← build.unsigned 64 (p.elementSize * p.count : ℕ)
  let stop ← build.unsigned 64 (start + size : ℕ)
  let stop := min stop data.length
  if data.length ≤ start then .ok map
  else if p.count = 1 then do
    let propBytes ← Faulty.slice start stop data
    match ← readElement build host p.propertyType propBytes with
    | some value => return map.insert p.name value
    | none => return map
  else do
    let arr ← readElements build host p data p.count 0
    if arr.isEmpty then return map else return map.insert p.name (.array arr)

/-- `PLCSerializeMetaFactory::decode_as_map`. -/
def decodeAsMap (data : List UInt8) (javaType : String) (cache : MetaCache) :
    Faulty (AList fun _ : String => Value) :=
  match cache.lookup javaType with
  | none => .err ("Missing DataBlockDefinition for type: " ++ javaType)
  | some definition =>
      definition.dataBlockPropertyDefinitionList.foldlM (decodeProperty build host data) ∅

end Decoding

variable {build : Build} {host : Host} {p : DataBlockPropertyDefinition}

theorem outcome_readElement (type : String) (bytes : List UInt8) :
    (readElement .checked host type bytes).outcome = FillingPilot.readElement host type bytes := by
  unfold readElement FillingPilot.readElement
  cases hcodec : getCodec host type with
  | none => rw [getDecoder_eq_none hcodec]; rfl
  | some codec =>
      obtain ⟨decode, hdecode, houtcome⟩ := getDecoder_of_getCodec .checked hcodec
      rw [hdecode]
      dsimp only
      rw [← houtcome bytes fun _ => rfl]
      cases decode bytes <;> rfl

/-- The only fault of an element is the overflow of a time. -/
theorem readElement_faults {type : String} {bytes : List UInt8} {kind : Fault}
    (h : readElement build host type bytes = .fault kind) :
    kind = .overflow ∧ build = .checked ∧ type = "longAsDateTime" ∧ OddMillis bytes := by
  unfold readElement at h
  cases hdecode : getDecoder build host type with
  | none =>
      rw [hdecode] at h
      cases h
  | some decode =>
      rw [hdecode] at h
      dsimp only at h
      split at h
      · cases h
      · cases h
      · rename_i hfault
        cases h
        exact decoder_faults hdecode hfault

/-- The bounds of an element fit when the end of the property does. -/
theorem element_fits (h : p.Fits) {i : ℕ} (hi : i < p.count) :
    p.offset + i * p.elementSize + p.elementSize < 2 ^ 64 := by
  have hmul : (i + 1) * p.elementSize ≤ p.count * p.elementSize := Nat.mul_le_mul_right _ hi
  rw [Nat.succ_mul, Nat.mul_comm p.count] at hmul
  unfold DataBlockPropertyDefinition.Fits at h
  omega

theorem readElements_succ (h : p.Fits) (data : List UInt8) {n i : ℕ} (hi : i < p.count) :
    readElements build host p data (n + 1) i =
      if data.length ≤ p.offset + i * p.elementSize then .ok []
      else do
        let propBytes ← Faulty.slice (p.offset + i * p.elementSize)
          (min (p.offset + i * p.elementSize + p.elementSize) data.length) data
        let value ← readElement build host p.propertyType propBytes
        let arr ← readElements build host p data n (i + 1)
        return value.toList ++ arr := by
  have hfits := element_fits h hi
  rw [readElements, build.unsigned_ok (by omega), Faulty.ok_bind, build.unsigned_ok (by omega),
    Faulty.ok_bind, build.unsigned_ok hfits, Faulty.ok_bind]

theorem decodeProperty_eq (h : p.Fits) (data : List UInt8)
    (map : AList fun _ : String => Value) :
    decodeProperty build host data map p =
      if data.length ≤ p.offset then .ok map
      else if p.count = 1 then do
        let propBytes ← Faulty.slice p.offset
          (min (p.offset + p.elementSize * p.count) data.length) data
        match ← readElement build host p.propertyType propBytes with
        | some value => return map.insert p.name value
        | none => return map
      else do
        let arr ← readElements build host p data p.count 0
        if arr.isEmpty then return map else return map.insert p.name (.array arr) := by
  unfold DataBlockPropertyDefinition.Fits at h
  rw [decodeProperty]
  dsimp only
  rw [build.unsigned_ok (by omega), Faulty.ok_bind, build.unsigned_ok h, Faulty.ok_bind]

theorem outcome_readElements (h : p.Fits) (data : List UInt8) {n i : ℕ} (hi : i + n ≤ p.count) :
    (readElements .checked host p data n i).outcome =
      FillingPilot.readElements host p data n i := by
  induction n generalizing i with
  | zero => rfl
  | succ n ih =>
      rw [readElements_succ h data (by omega), FillingPilot.readElements]
      split_ifs with hbehind
      · rfl
      · simp only [Faulty.outcome_bind, Faulty.outcome_slice, outcome_readElement,
          ih (show i + 1 + n ≤ p.count by omega)]
        rfl

theorem outcome_decodeProperty (h : p.Fits) (data : List UInt8)
    (map : AList fun _ : String => Value) :
    (decodeProperty .checked host data map p).outcome =
      FillingPilot.decodeProperty host data map p := by
  rw [decodeProperty_eq h, FillingPilot.decodeProperty]
  split_ifs with hstart hcount
  · rfl
  · simp only [Faulty.outcome_bind, Faulty.outcome_slice, outcome_readElement]
    congr 1
    funext propBytes
    congr 1
    funext value
    cases value <;> rfl
  · rw [Faulty.outcome_bind, outcome_readElements h data (by omega)]
    congr 1
    funext arr
    split_ifs <;> rfl

/-- **The map with the bounds of `usize`** is the map without them. -/
theorem outcome_decodeAsMap {cache : MetaCache} {javaType : String}
    (h : ∀ definition, cache.lookup javaType = some definition →
      ∀ p ∈ definition.dataBlockPropertyDefinitionList, p.Fits) (data : List UInt8) :
    (decodeAsMap .checked host data javaType cache).outcome =
      FillingPilot.decodeAsMap host data javaType cache := by
  unfold decodeAsMap FillingPilot.decodeAsMap
  cases hcache : cache.lookup javaType with
  | none => rfl
  | some definition =>
      exact Faulty.outcome_foldlM
        (fun p hp map => outcome_decodeProperty (h definition hcache p hp) data map) ∅

/-- **When a property is decoded** in a build with overflow checks: it fits, and is decoded without
the bounds. -/
theorem decodeProperty_eq_ok_iff {data : List UInt8} {map map' : AList fun _ : String => Value}
    {p : DataBlockPropertyDefinition} :
    decodeProperty .checked host data map p = .ok map' ↔
      p.Fits ∧ FillingPilot.decodeProperty host data map p = .ok map' := by
  constructor
  · intro h
    have hfits : p.Fits := by
      unfold decodeProperty at h
      obtain ⟨size, hsize, h⟩ := Faulty.bind_eq_ok.1 h
      obtain ⟨stop, hstop, -⟩ := Faulty.bind_eq_ok.1 h
      obtain ⟨-, rfl⟩ := Build.unsigned_checked_eq_ok_iff.1 hsize
      exact (Build.unsigned_checked_eq_ok_iff.1 hstop).1
    refine ⟨hfits, ?_⟩
    rw [← outcome_decodeProperty hfits, h]
    rfl
  · rintro ⟨hfits, h⟩
    rw [← outcome_decodeProperty hfits] at h
    exact Faulty.outcome_eq_ok_iff.1 h

/-- **When there is a map** in a build with overflow checks: every property fits, and there is one
without the bounds. -/
theorem decodeAsMap_eq_ok_iff {cache : MetaCache} {javaType : String}
    {definition : DataBlockDefinition} (hcache : cache.lookup javaType = some definition)
    {data : List UInt8} {map : AList fun _ : String => Value} :
    decodeAsMap .checked host data javaType cache = .ok map ↔
      definition.Fits ∧ FillingPilot.decodeAsMap host data javaType cache = .ok map := by
  unfold decodeAsMap FillingPilot.decodeAsMap
  rw [hcache]
  exact Faulty.foldlM_eq_ok_iff (C := DataBlockPropertyDefinition.Fits)
    fun _ _ _ => decodeProperty_eq_ok_iff

/-! ### Errors of a map -/

theorem noErr_readElement (type : String) (bytes : List UInt8) :
    (readElement build host type bytes).NoErr := by
  unfold readElement
  cases getDecoder build host type with
  | none => exact Faulty.noErr_ok _
  | some decode =>
      dsimp only
      cases decode bytes with
      | ok value => exact Faulty.noErr_ok _
      | err message => exact Faulty.noErr_ok _
      | fault kind => exact Faulty.noErr_fault kind

theorem noErr_readElements (p : DataBlockPropertyDefinition) (data : List UInt8) (n i : ℕ) :
    (readElements build host p data n i).NoErr := by
  induction n generalizing i with
  | zero => exact Faulty.noErr_ok _
  | succ n ih =>
      refine (build.noErr_unsigned _ _).bind fun before => ?_
      refine (build.noErr_unsigned _ _).bind fun itemStart => ?_
      refine (build.noErr_unsigned _ _).bind fun itemStop => ?_
      dsimp only
      split_ifs
      · exact Faulty.noErr_ok _
      · refine (Faulty.noErr_slice _ _ _).bind fun propBytes => ?_
        refine (noErr_readElement _ _).bind fun value => ?_
        exact (ih (i + 1)).bind fun arr => Faulty.noErr_ok _

theorem noErr_decodeProperty (data : List UInt8) (map : AList fun _ : String => Value)
    (p : DataBlockPropertyDefinition) : (decodeProperty build host data map p).NoErr := by
  refine (build.noErr_unsigned _ _).bind fun size => ?_
  refine (build.noErr_unsigned _ _).bind fun stop => ?_
  dsimp only
  split_ifs
  · exact Faulty.noErr_ok _
  · refine (Faulty.noErr_slice _ _ _).bind fun propBytes => ?_
    refine (noErr_readElement _ _).bind fun value => ?_
    cases value <;> exact Faulty.noErr_ok _
  · refine (noErr_readElements p data _ _).bind fun arr => ?_
    split_ifs <;> exact Faulty.noErr_ok _

/-- **Without a map there is a panic**, for a definition of the cache. -/
theorem noErr_decodeAsMap {cache : MetaCache} {javaType : String}
    {definition : DataBlockDefinition} (hcache : cache.lookup javaType = some definition)
    (data : List UInt8) : (decodeAsMap build host data javaType cache).NoErr := by
  unfold decodeAsMap
  rw [hcache]
  exact Faulty.NoErr.foldlM (noErr_decodeProperty data) _ _

/-! ### What faults in a map -/

theorem readElements_faults (h : p.Fits) (data : List UInt8) {n i : ℕ} (hi : i + n ≤ p.count) :
    (readElements build host p data n i).FaultsIn fun kind =>
      kind = .overflow ∧ build = .checked ∧ UnreadableTime p data := by
  induction n generalizing i with
  | zero => exact Faulty.faultsIn_ok _
  | succ n ih =>
      rw [readElements_succ h data (by omega)]
      split_ifs with hbehind
      · exact Faulty.faultsIn_ok _
      · rw [Faulty.slice_ok (by omega) (by omega), Faulty.ok_bind, slice_min]
        refine Faulty.FaultsIn.bind (fun kind hfault => ?_) fun value _ => ?_
        · obtain ⟨hkind, hbuild, htype, hodd⟩ := readElement_faults hfault
          exact ⟨hkind, hbuild, htype, i, by omega, hodd⟩
        · exact (ih (by omega)).bind fun arr _ => Faulty.faultsIn_ok _

/-- **What faults in a property**: an unreadable time, and no slice. -/
theorem decodeProperty_faults (h : p.Fits) (data : List UInt8)
    (map : AList fun _ : String => Value) :
    (decodeProperty build host data map p).FaultsIn fun kind =>
      kind = .overflow ∧ build = .checked ∧ UnreadableTime p data := by
  rw [decodeProperty_eq h]
  split_ifs with hstart hcount
  · exact Faulty.faultsIn_ok _
  · rw [Faulty.slice_ok (by omega) (by omega), Faulty.ok_bind, hcount, Nat.mul_one, slice_min]
    refine Faulty.FaultsIn.bind (fun kind hfault => ?_) fun value _ => ?_
    · obtain ⟨hkind, hbuild, htype, hodd⟩ := readElement_faults hfault
      refine ⟨hkind, hbuild, htype, 0, by omega, ?_⟩
      rwa [Nat.zero_mul, Nat.add_zero]
    · cases value <;> exact Faulty.faultsIn_ok _
  · refine (readElements_faults h data (by omega)).bind fun arr _ => ?_
    split_ifs <;> exact Faulty.faultsIn_ok _

/-- **What faults in a map**: an unreadable time, and no slice. -/
theorem decodeAsMap_faults {cache : MetaCache} {javaType : String}
    (h : ∀ definition, cache.lookup javaType = some definition →
      ∀ p ∈ definition.dataBlockPropertyDefinitionList, p.Fits) (data : List UInt8) :
    (decodeAsMap build host data javaType cache).FaultsIn fun kind =>
      kind = .overflow ∧ build = .checked ∧
        ∃ definition, cache.lookup javaType = some definition ∧
          HasUnreadableTime definition data := by
  unfold decodeAsMap
  cases hcache : cache.lookup javaType with
  | none => exact Faulty.faultsIn_err _
  | some definition =>
      refine Faulty.FaultsIn.foldlM (fun p hp map kind hfault => ?_) ∅
      obtain ⟨hkind, hbuild, htime⟩ :=
        decodeProperty_faults (h definition hcache p hp) data map kind hfault
      exact ⟨hkind, hbuild, definition, rfl, p, hp, htime⟩

end Machine

/-! ### The blocks in memory -/

namespace DataBlock

/-- The size of an element and the end of the property are `usize`s. -/
structure DataBlockProperty.Fits (prop : DataBlockProperty) : Prop where
  elementSize_lt : prop.elementSize < 2 ^ 64
  stop_lt : prop.offset + prop.elementSize * prop.count < 2 ^ 64

/-- The end of the first element leaves `usize`: a panic with overflow checks, and otherwise an end
before the start, which panics unless it is behind the data. -/
def Wraps (build : Build) (host : Host) (bytes : List UInt8) (prop : DataBlockProperty) : Prop :=
  (getCodec host prop.propertyType.asStr).isSome ∧ 2 ^ 64 ≤ prop.offset + prop.elementSize ∧
    (build = .wrapping → prop.offset + prop.elementSize ≤ 2 ^ 64 + bytes.length)

namespace Machine

open FillingPilot.Machine

section Decoding

variable (build : Build) (host : Host)

/-- The value in some bytes; nothing when the codec rejects them. -/
def decodeValue (decode : List UInt8 → Faulty Value) (bytes : List UInt8) :
    Faulty (Option Value) :=
  match decode bytes with
  | .ok value => .ok (some value)
  | .err _ => .ok none
  | .fault kind => .fault kind

/-- The values of the elements from number `i` on, `n` of them. -/
def decodeItems (decode : List UInt8 → Faulty Value) (size : ℕ) (propBytes : List UInt8) :
    ℕ → ℕ → Faulty (List Value)
  | 0, _ => .ok []
  | n + 1, i => do
      let itemStart ← build.unsigned 64 (i * size : ℕ)
      let itemEnd ← build.unsigned 64 (itemStart + size : ℕ)
      if itemEnd ≤ propBytes.length then do
        let item ← Faulty.slice itemStart itemEnd propBytes
        let value ← decodeValue decode item
        let arr ← decodeItems decode size propBytes n (i + 1)
        return value.toList ++ arr
      else decodeItems decode size propBytes n (i + 1)

/-- One property of the block. -/
def decodeProperty (bytes : List UInt8) (values : Values) (prop : DataBlockProperty) :
    Faulty Values :=
  match getDecoder build host prop.propertyType.asStr with
  | none => .ok values
  | some decode => do
      let start := prop.offset
      let stop ← build.unsigned 64 (start + prop.elementSize : ℕ)
      if stop ≤ bytes.length then do
        let propBytes ← Faulty.slice start stop bytes
        if prop.count = 1 then do
          match ← decodeValue decode propBytes with
          | some value => return values.insert prop.name value
          | none => return values
        else do
          let arr ← decodeItems build decode prop.elementSize propBytes prop.count 0
          if arr.isEmpty then return values else return values.insert prop.name (.array arr)
      else .ok values

/-- `DataBlock::decode`. -/
def decode (definition : DataBlockDefinition) (bytes : List UInt8) : Faulty Values :=
  definition.properties.foldlM (decodeProperty build host bytes) ∅

end Decoding

variable {build : Build} {host : Host}

/-- The one decoder that faults is registered under none of the names of the types. -/
theorem decoder_ok {type : PropertyType} {decode : List UInt8 → Faulty Value}
    (hdecode : getDecoder build host type.asStr = some decode) (bytes : List UInt8) :
    ∃ value, decodeValue decode bytes = .ok value := by
  have hname : type.asStr ≠ "longAsDateTime" := by cases type <;> decide
  unfold decodeValue
  cases hvalue : decode bytes with
  | ok value => exact ⟨_, rfl⟩
  | err message => exact ⟨_, rfl⟩
  | fault kind => exact absurd (decoder_faults hdecode hvalue).2.2.1 hname

theorem decodeItems_ok {type : PropertyType} {decode : List UInt8 → Faulty Value}
    (hdecode : getDecoder build host type.asStr = some decode) {size count : ℕ}
    (hfits : size * count < 2 ^ 64) (propBytes : List UInt8) {n i : ℕ} (hi : i + n ≤ count) :
    ∃ arr, decodeItems build decode size propBytes n i = .ok arr := by
  induction n generalizing i with
  | zero => exact ⟨[], rfl⟩
  | succ n ih =>
      obtain ⟨arr, harr⟩ := ih (show i + 1 + n ≤ count by omega)
      have hmul : (i + 1) * size ≤ count * size := Nat.mul_le_mul_right _ (by omega)
      rw [Nat.succ_mul, Nat.mul_comm count] at hmul
      rw [decodeItems, build.unsigned_ok (by omega), Faulty.ok_bind, build.unsigned_ok (by omega),
        Faulty.ok_bind]
      split_ifs with hinside
      · obtain ⟨value, hvalue⟩ := decoder_ok hdecode
          (propBytes.slice (i * size) (i * size + size - i * size))
        rw [Faulty.slice_ok (Nat.le_add_right _ _) hinside, Faulty.ok_bind, hvalue,
          Faulty.ok_bind, harr]
        exact ⟨_, rfl⟩
      · exact ⟨arr, harr⟩

theorem decodeProperty_ok {prop : DataBlockProperty} (h : prop.Fits)
    (hfirst : prop.offset + prop.elementSize < 2 ^ 64) (bytes : List UInt8) (values : Values) :
    ∃ values', decodeProperty build host bytes values prop = .ok values' := by
  unfold decodeProperty
  cases hdecode : getDecoder build host prop.propertyType.asStr with
  | none => exact ⟨values, rfl⟩
  | some decode =>
      dsimp only
      rw [build.unsigned_ok hfirst, Faulty.ok_bind]
      split_ifs with hinside hcount
      · obtain ⟨value, hvalue⟩ := decoder_ok hdecode
          (bytes.slice prop.offset (prop.offset + prop.elementSize - prop.offset))
        rw [Faulty.slice_ok (Nat.le_add_right _ _) hinside, Faulty.ok_bind, hvalue, Faulty.ok_bind]
        cases value <;> exact ⟨_, rfl⟩
      · have hsize : prop.elementSize * prop.count < 2 ^ 64 := by
          have hstop := h.stop_lt
          omega
        obtain ⟨arr, harr⟩ := decodeItems_ok hdecode hsize
          (bytes.slice prop.offset (prop.offset + prop.elementSize - prop.offset))
          (Nat.zero_add prop.count).le
        rw [Faulty.slice_ok (Nat.le_add_right _ _) hinside, Faulty.ok_bind, harr, Faulty.ok_bind]
        cases arr.isEmpty <;> exact ⟨_, rfl⟩
      · exact ⟨values, rfl⟩

/-- What the property is decoded to when its first element leaves `usize` and the end is not
checked: the end is before the start, and nothing is decoded if it is behind the data. -/
theorem decodeProperty_wrapping {prop : DataBlockProperty} (h : prop.Fits)
    (hfirst : 2 ^ 64 ≤ prop.offset + prop.elementSize) {decode : List UInt8 → Faulty Value}
    (hdecode : getDecoder .wrapping host prop.propertyType.asStr = some decode)
    (bytes : List UInt8) (values : Values) :
    decodeProperty .wrapping host bytes values prop =
      if prop.offset + prop.elementSize ≤ 2 ^ 64 + bytes.length then .fault .bounds
      else .ok values := by
  have hstop := h.stop_lt
  have hsize := h.elementSize_lt
  have hmod : (prop.offset + prop.elementSize) % 2 ^ 64 =
      prop.offset + prop.elementSize - 2 ^ 64 := by omega
  unfold decodeProperty
  rw [hdecode]
  dsimp only
  rw [Build.unsigned_wrapping, Faulty.ok_bind, hmod]
  by_cases hinside : prop.offset + prop.elementSize ≤ 2 ^ 64 + bytes.length
  · have hslice : Faulty.slice prop.offset (prop.offset + prop.elementSize - 2 ^ 64) bytes =
        .fault .bounds := if_neg (by omega)
    rw [if_pos (by omega), if_pos hinside, hslice]
    rfl
  · rw [if_neg (by omega), if_neg hinside]

/-- **One property**: a fault exactly when its first element leaves `usize`. -/
theorem decodeProperty_panicsIff {prop : DataBlockProperty} (h : prop.Fits) (bytes : List UInt8)
    (values : Values) :
    (decodeProperty build host bytes values prop).outcome.PanicsIff
      (Wraps build host bytes prop) := by
  by_cases hfirst : 2 ^ 64 ≤ prop.offset + prop.elementSize
  · cases hcodec : getCodec host prop.propertyType.asStr with
    | none =>
        rw [decodeProperty, getDecoder_eq_none hcodec]
        refine Or.inr ⟨fun hbad => ?_, values, rfl⟩
        rw [Wraps, hcodec] at hbad
        cases hbad.1
    | some codec =>
        obtain ⟨decode, hdecode, -⟩ := getDecoder_of_getCodec build hcodec
        have hsome := Option.isSome_iff_exists.2 ⟨codec, hcodec⟩
        cases build with
        | checked =>
            rw [decodeProperty, hdecode]
            dsimp only
            rw [Build.unsigned_checked hfirst]
            exact Or.inl ⟨⟨hsome, hfirst, nofun⟩, rfl⟩
        | wrapping =>
            rw [decodeProperty_wrapping h hfirst hdecode]
            split_ifs with hinside
            · exact Or.inl ⟨⟨hsome, hfirst, fun _ => hinside⟩, rfl⟩
            · exact Or.inr ⟨fun hbad => hinside (hbad.2.2 rfl), values, rfl⟩
  · obtain ⟨values', hvalues⟩ :=
      @decodeProperty_ok build host prop h (Nat.lt_of_not_le hfirst) bytes values
    rw [hvalues]
    exact Or.inr ⟨fun hbad => hfirst hbad.2.1, values', rfl⟩

/-- **The blocks in memory**: a fault exactly when the first element of a property leaves
`usize`. -/
theorem decode_panicsIff {definition : DataBlockDefinition}
    (h : ∀ prop ∈ definition.properties, prop.Fits) (bytes : List UInt8) :
    (decode build host definition bytes).outcome.PanicsIff
      (∃ prop ∈ definition.properties, Wraps build host bytes prop) := by
  rw [decode, Faulty.outcome_foldlM fun _ _ _ => rfl]
  exact Outcome.foldlM_panicsIff_of_mem
    (fun prop hprop values => decodeProperty_panicsIff (h prop hprop) bytes values) ∅

/-! ### Against the blocks without bounds -/

section Outcome

variable {decode : List UInt8 → Faulty Value} {codec : Codec}

end Outcome

end Machine

end DataBlock

/-! ### Both decoders -/

/-- No decoder reads outside its bytes: what faults is the overflow of a time, and nothing else. -/
structure ReadsInside (build : Build) (host : Host) (cache : MetaCache) (javaType : String)
    (definition : DataBlock.DataBlockDefinition) (data : List UInt8) : Prop where
  codecs : ∀ type decode, Machine.getDecoder build host type = some decode → ∀ bytes kind,
    decode bytes = .fault kind →
      kind = .overflow ∧ type = "longAsDateTime" ∧ OddMillis bytes
  map : ∀ kind, Machine.decodeAsMap build host data javaType cache = .fault kind →
    kind = .overflow ∧ ∃ definition, cache.lookup javaType = some definition ∧
      HasUnreadableTime definition data
  block : ∀ kind, DataBlock.Machine.decode build host definition data ≠ .fault kind

/-- **The exact condition**: nothing is read outside its bytes, as long as no property of a block in
memory has a first element that leaves `usize`. -/
theorem readsInside_iff {build : Build} {host : Host} {cache : MetaCache} {javaType : String}
    {definition : DataBlock.DataBlockDefinition}
    (hcache : ∀ definition, cache.lookup javaType = some definition →
      ∀ p ∈ definition.dataBlockPropertyDefinitionList, p.Fits)
    (hdefinition : ∀ prop ∈ definition.properties, prop.Fits) (data : List UInt8) :
    ReadsInside build host cache javaType definition data ↔
      ∀ prop ∈ definition.properties, ¬ DataBlock.Wraps build host data prop := by
  have hblock : (∀ kind, DataBlock.Machine.decode build host definition data ≠ .fault kind) ↔
      ∀ prop ∈ definition.properties, ¬ DataBlock.Wraps build host data prop := by
    have hpanics := (@DataBlock.Machine.decode_panicsIff build host definition
      hdefinition data).ne_panic_iff
    rw [← Faulty.faultsIn_false_iff] at hpanics
    refine hpanics.trans ?_
    simp only [not_exists, not_and]
  constructor
  · intro h
    exact hblock.1 h.block
  · intro h
    refine ⟨fun type decode hdecode bytes kind hfault => ?_, fun kind hfault => ?_, hblock.2 h⟩
    · obtain ⟨hkind, -, htype, hodd⟩ := Machine.decoder_faults hdecode hfault
      exact ⟨hkind, htype, hodd⟩
    · obtain ⟨hkind, -, htime⟩ := Machine.decodeAsMap_faults hcache data kind hfault
      exact ⟨hkind, htime⟩

/-- One byte. -/
def oneByte : DataBlock.DataBlockDefinition where
  properties := [⟨"level", .byte, 0, 1, none⟩]
  totalSize := 1

theorem readsInside_iff_oneByte :
    ReadsInside .checked bareHost (AList.singleton "Label" stringBlock) "Label" oneByte [7] := by
  have hlookup : (AList.singleton "Label" stringBlock : MetaCache).lookup "Label" =
      some stringBlock := rfl
  have hcache : ∀ definition, (AList.singleton "Label" stringBlock : MetaCache).lookup "Label" =
      some definition → ∀ p ∈ definition.dataBlockPropertyDefinitionList, p.Fits := by
    intro definition hdefinition p hp
    obtain rfl : stringBlock = definition := Option.some.inj (hlookup.symm.trans hdefinition)
    obtain rfl := List.mem_singleton.1 hp
    exact show 0 + typeSize "string" * 1 < 2 ^ 64 by decide
  have hone : ∀ prop ∈ oneByte.properties, prop.Fits := by
    intro prop hprop
    obtain rfl := List.mem_singleton.1 hprop
    exact ⟨by decide, by decide⟩
  refine (readsInside_iff hcache hone [7]).2 fun prop hprop hwraps => ?_
  obtain rfl := List.mem_singleton.1 hprop
  exact absurd hwraps.2.1 (by decide)

/-- A property without elements, at the end of all `usize`s. -/
def emptyAtTheEnd : DataBlock.DataBlockDefinition where
  properties := [⟨"level", .byte, 2 ^ 64 - 1, 0, none⟩]
  totalSize := 0

/-- **A property without elements**: its end is a `usize`, and decoding overflows in the one build
and reads outside the block in the other. -/
theorem emptyAtTheEnd_reads_outside :
    (∀ prop ∈ emptyAtTheEnd.properties, prop.Fits) ∧
      DataBlock.Machine.decode .checked bareHost emptyAtTheEnd [] = .fault .overflow ∧
      DataBlock.Machine.decode .wrapping bareHost emptyAtTheEnd [] = .fault .bounds ∧
      ∀ build, ¬ ReadsInside build bareHost ∅ "" emptyAtTheEnd [] := by
  have hfits : ∀ prop ∈ emptyAtTheEnd.properties, prop.Fits := by
    intro prop hprop
    obtain rfl := List.mem_singleton.1 hprop
    exact ⟨by decide, by decide⟩
  have hchecked : DataBlock.Machine.decode .checked bareHost emptyAtTheEnd [] =
      .fault .overflow := rfl
  have hwrapping : DataBlock.Machine.decode .wrapping bareHost emptyAtTheEnd [] =
      .fault .bounds := rfl
  refine ⟨hfits, hchecked, hwrapping, fun build h => ?_⟩
  cases build with
  | checked => exact h.block _ hchecked
  | wrapping => exact h.block _ hwrapping

end FillingPilot
