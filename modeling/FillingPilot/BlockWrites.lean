/-
The encoding of a block as a list of writes.

Where every property lies in its block and its codec gives as many bytes as its place has, an
encoder does nothing but write elements at their places, one after the other.  The list of writes is
a function of the definition and the values; both encoders make the same one, and what stands in a
byte is decided by the writes that reach it.

Main definitions:

* `FillingPilot.propertyItems` — the elements a value gives a property;
* `FillingPilot.blockWrites` — the writes of a definition and its values;
* `FillingPilot.FixedSize` — the codec of a property gives as many bytes as its place has;
* `FillingPilot.FillsPlace` — an element gives just the bytes its place has;
* `FillingPilot.CommonLayout` — one layout, given to both encoders.

Main results:

* `FillingPilot.encodeProperties_eq_spliceAll`,
  `FillingPilot.DataBlock.encodeProperties_eq_spliceAll` — **each encoder applies the writes**;
* `FillingPilot.encode_eq_spliceAll` — the block a deployment is encoded to;
* `FillingPilot.encoders_agree` — **both encoders give the same bytes**.
-/

import FillingPilot.DataBlock
import FillingPilot.DeployRoundTrip

set_option relaxedAutoImplicit false
set_option autoImplicit false

namespace FillingPilot

open Json Rust

variable {host : Host}

/-! ### Writes -/

/-- The elements a value gives a property that counts `count`, with their numbers: the value itself,
or the first elements of an array. -/
def propertyItems (count : ℕ) : Option Value → List (Value × ℕ)
  | none => []
  | some value =>
      if count = 1 then [(value, 0)]
      else match value with
        | .array arr => (arr.take count).zipIdx
        | _ => []

theorem propertyItems_one {count : ℕ} (h : count = 1) (value : Value) :
    propertyItems count (some value) = [(value, 0)] := by
  simp only [propertyItems, if_pos h]

theorem propertyItems_array {count : ℕ} (h : count ≠ 1) (arr : List Value) :
    propertyItems count (some (.array arr)) = (arr.take count).zipIdx := by
  simp only [propertyItems, if_neg h]

/-- The write of an element: its place and the bytes of its codec, if there are any. -/
def elementWrite (host : Host) (p : DataBlockPropertyDefinition) (item : Value × ℕ) :
    Option (ℕ × List UInt8) :=
  match getCodec host p.propertyType with
  | none => none
  | some codec =>
      match codec.encode item.1 with
      | .error _ => none
      | .ok encoded => some (p.offset + item.2 * p.elementSize, encoded)

/-- The writes of a property. -/
def propertyWrites (host : Host) (value : Option Value) (p : DataBlockPropertyDefinition) :
    List (ℕ × List UInt8) :=
  (propertyItems p.count value).flatMap fun item => (elementWrite host p item).toList

/-- The writes of a block, from the values of the properties by name. -/
def blockWrites (host : Host) (values : String → Option Value)
    (properties : List DataBlockPropertyDefinition) : List (ℕ × List UInt8) :=
  properties.flatMap fun p => propertyWrites host (values p.name) p

/-- Whatever the codec of the property accepts takes the size of its elements. -/
def FixedSize (host : Host) (p : DataBlockPropertyDefinition) : Prop :=
  ∀ codec value encoded, getCodec host p.propertyType = some codec →
    codec.encode value = .ok encoded → encoded.length = p.elementSize

/-! ### Places -/

theorem lt_count_of_mem_propertyItems {count : ℕ} (value : Option Value) {item : Value × ℕ}
    (h : item ∈ propertyItems count value) : item.2 < count := by
  unfold propertyItems at h
  split at h
  · exact absurd h List.not_mem_nil
  · split_ifs at h with hcount
    · rw [List.mem_singleton.1 h]
      exact hcount ▸ Nat.one_pos
    · split at h
      · have hlt := (List.mem_zipIdx' h).1
        rw [List.length_take] at hlt
        omega
      · exact absurd h List.not_mem_nil

theorem element_inside (p : DataBlockPropertyDefinition) {i : ℕ} (h : i < p.count) :
    p.offset ≤ p.offset + i * p.elementSize ∧
      p.offset + i * p.elementSize + p.elementSize ≤ p.stop := by
  have hmul : (i + 1) * p.elementSize ≤ p.count * p.elementSize := Nat.mul_le_mul_right _ h
  rw [Nat.succ_mul] at hmul
  rw [DataBlockPropertyDefinition.stop, Nat.mul_comm p.elementSize]
  omega

theorem elementWrite_of_encode {p : DataBlockPropertyDefinition} (item : Value × ℕ)
    {codec : Codec} {encoded : List UInt8} (hcodec : getCodec host p.propertyType = some codec)
    (hencode : codec.encode item.1 = .ok encoded) :
    elementWrite host p item = some (p.offset + item.2 * p.elementSize, encoded) := by
  simp only [elementWrite, hcodec, hencode]

theorem elementWrite_eq_some {p : DataBlockPropertyDefinition} {item : Value × ℕ}
    {w : ℕ × List UInt8} (hsize : FixedSize host p) (h : elementWrite host p item = some w) :
    w.1 = p.offset + item.2 * p.elementSize ∧ w.2.length = p.elementSize := by
  unfold elementWrite at h
  split at h
  · cases h
  · rename_i codec hcodec
    split at h
    · cases h
    · rename_i encoded hencode
      cases h
      exact ⟨rfl, hsize codec _ _ hcodec hencode⟩

theorem propertyWrites_inside {p : DataBlockPropertyDefinition} (hsize : FixedSize host p)
    {value : Option Value} {w : ℕ × List UInt8} (hw : w ∈ propertyWrites host value p) :
    p.offset ≤ w.1 ∧ w.1 + w.2.length ≤ p.stop := by
  obtain ⟨item, hitem, hw⟩ := List.mem_flatMap.1 hw
  obtain ⟨hstart, hlen⟩ := elementWrite_eq_some hsize (Option.mem_toList.1 hw)
  rw [hstart, hlen]
  exact element_inside p (lt_count_of_mem_propertyItems value hitem)

theorem blockWrites_inside {properties : List DataBlockPropertyDefinition}
    (hsize : ∀ p ∈ properties, FixedSize host p) {values : String → Option Value}
    {w : ℕ × List UInt8} (hw : w ∈ blockWrites host values properties) :
    ∃ p ∈ properties, p.offset ≤ w.1 ∧ w.1 + w.2.length ≤ p.stop := by
  obtain ⟨p, hp, hw⟩ := List.mem_flatMap.1 hw
  exact ⟨p, hp, propertyWrites_inside (hsize p hp) hw⟩

/-! ### The encoder of deployments -/

/-- If the element is written, its bytes are just as many as its place has in a block of `n`
bytes. -/
def FillsPlace (host : Host) (p : DataBlockPropertyDefinition) (n : ℕ) (item : Value × ℕ) : Prop :=
  ∀ w, elementWrite host p item = some w →
    w.1 ≤ n ∧ w.2.length = min (w.1 + p.elementSize) n - w.1

/-- Where the codec gives the size of the place and the place lies in the block, it is filled. -/
theorem fillsPlace_of_fixedSize {p : DataBlockPropertyDefinition} {n : ℕ}
    (hsize : FixedSize host p) (hinside : p.stop ≤ n) {value : Option Value} {item : Value × ℕ}
    (hitem : item ∈ propertyItems p.count value) : FillsPlace host p n item := by
  intro w hw
  obtain ⟨hstart, hlen⟩ := elementWrite_eq_some hsize hw
  have hplace := (element_inside p (lt_count_of_mem_propertyItems value hitem)).2.trans hinside
  rw [← hstart] at hplace
  exact ⟨by omega, by omega⟩

theorem FillsPlace.inside {p : DataBlockPropertyDefinition} {n : ℕ} {item : Value × ℕ}
    (h : FillsPlace host p n item) {w : ℕ × List UInt8} (hw : elementWrite host p item = some w) :
    w.1 + w.2.length ≤ n := by
  obtain ⟨hstart, hlen⟩ := h w hw
  omega

theorem writeElement_eq_spliceAll {p : DataBlockPropertyDefinition} {item : Value × ℕ}
    {bytes : List UInt8} (h : FillsPlace host p bytes.length item) :
    writeElement host p.propertyType p.elementSize (p.offset + item.2 * p.elementSize) item.1
      bytes = .ok (List.spliceAll (elementWrite host p item).toList bytes) := by
  cases hcodec : getCodec host p.propertyType with
  | none => simp [writeElement, elementWrite, hcodec]
  | some codec =>
      cases hencode : codec.encode item.1 with
      | error message => simp [writeElement, elementWrite, hcodec, hencode]
      | ok encoded =>
          have hwrite := elementWrite_of_encode item hcodec hencode
          obtain ⟨hstart, hlen⟩ := h _ hwrite
          rw [writeElement_eq hcodec hencode, ← hlen, if_pos ⟨hstart, le_rfl⟩, List.take_length,
            hwrite]
          rfl

theorem encodeProperty_eq_spliceAll {p : DataBlockPropertyDefinition}
    (contentMap : List (String × Value)) {bytes : List UInt8}
    (h : ∀ item ∈ propertyItems p.count (contentMap.lookup p.name),
      FillsPlace host p bytes.length item) :
    encodeProperty host contentMap bytes p =
      .ok (List.spliceAll (propertyWrites host (contentMap.lookup p.name) p) bytes) := by
  unfold encodeProperty propertyWrites
  cases hvalue : contentMap.lookup p.name with
  | none => rfl
  | some value =>
      rw [hvalue] at h
      by_cases hcount : p.count = 1
      · rw [propertyItems_one hcount] at h ⊢
        have hwrite := writeElement_eq_spliceAll (h _ (List.mem_singleton.2 rfl))
        rw [Nat.zero_mul, Nat.add_zero] at hwrite
        simp only [if_pos hcount]
        rw [List.flatMap_singleton]
        exact hwrite
      · simp only [if_neg hcount]
        cases value with
        | array arr =>
            rw [propertyItems_array hcount] at h ⊢
            refine Outcome.foldlM_eq_spliceAll rfl ?_ ?_
            · intro item hitem bytes' hlen
              exact writeElement_eq_spliceAll (hlen ▸ h item hitem)
            · intro item hitem w hw
              exact (h item hitem).inside (Option.mem_toList.1 hw)
        | _ => simp [propertyItems, hcount]

/-- **The encoder of deployments applies the writes of the block.** -/
theorem encodeProperties_eq_spliceAll {properties : List DataBlockPropertyDefinition}
    (contentMap : List (String × Value)) {bytes : List UInt8}
    (h : ∀ p ∈ properties, ∀ item ∈ propertyItems p.count (contentMap.lookup p.name),
      FillsPlace host p bytes.length item) :
    properties.foldlM (encodeProperty host contentMap) bytes =
      .ok (List.spliceAll (blockWrites host (fun name => contentMap.lookup name) properties)
        bytes) := by
  refine Outcome.foldlM_eq_spliceAll rfl ?_ ?_
  · intro p hp bytes' hlen
    exact encodeProperty_eq_spliceAll contentMap (hlen ▸ h p hp)
  · intro p hp w hw
    obtain ⟨item, hitem, hw⟩ := List.mem_flatMap.1 hw
    exact (h p hp item hitem).inside (Option.mem_toList.1 hw)

/-- **The block a deployment is encoded to**: the writes, applied to zeros. -/
theorem encode_eq_spliceAll {definition : DataBlockDefinition} {javaType : String}
    {cache : MetaCache} (hcache : cache.lookup javaType = some definition)
    {contentMap : List (String × Value)}
    (h : ∀ p ∈ definition.dataBlockPropertyDefinitionList,
      ∀ item ∈ propertyItems p.count (contentMap.lookup p.name),
        FillsPlace host p definition.blockSize item) :
    encode host (.object contentMap) javaType cache =
      .ok (List.spliceAll (blockWrites host (fun name => contentMap.lookup name)
        definition.dataBlockPropertyDefinitionList) (List.replicate definition.blockSize 0)) := by
  simp only [encode, hcache]
  refine encodeProperties_eq_spliceAll contentMap fun p hp item hitem => ?_
  rw [List.length_replicate]
  exact h p hp item hitem

/-! ### The encoder of data blocks -/

namespace DataBlock

/-- The property as a deployment has it. -/
def DataBlockProperty.toDefinition (prop : DataBlockProperty) : DataBlockPropertyDefinition where
  name := prop.name
  propertyType := prop.propertyType.asStr
  offset := prop.offset
  count := prop.count
  byteSize := prop.byteSize

theorem encodeElement_eq_spliceAll {p : DataBlockPropertyDefinition} (hsize : FixedSize host p)
    {codec : Codec} (hcodec : getCodec host p.propertyType = some codec) (item : Value × ℕ)
    {result : List UInt8}
    (hinside : p.offset + item.2 * p.elementSize + p.elementSize ≤ result.length) :
    encodeElement codec p.elementSize (p.offset + item.2 * p.elementSize) item.1 result =
      .ok (List.spliceAll (elementWrite host p item).toList result) := by
  rw [encodeElement_eq hinside fun encoded hencode => hsize codec _ _ hcodec hencode]
  cases hencode : codec.encode item.1 with
  | error message => simp [elementWrite, hcodec, hencode]
  | ok encoded =>
      rw [elementWrite_of_encode item hcodec hencode]
      rfl

theorem encodeProperty_eq_spliceAll {prop : DataBlockProperty}
    (hsame : prop.elementSize = prop.toDefinition.elementSize)
    (hsize : FixedSize host prop.toDefinition) (values : Values) {result : List UInt8}
    (hinside : prop.toDefinition.stop ≤ result.length) :
    encodeProperty host values result prop =
      .ok (List.spliceAll
        (propertyWrites host (values.lookup prop.name) prop.toDefinition) result) := by
  unfold encodeProperty propertyWrites
  cases hvalue : values.lookup prop.name with
  | none => rfl
  | some value =>
      cases hcodec : getCodec host prop.propertyType.asStr with
      | none =>
          -- without a codec there is no write
          have hnone : ∀ item, (elementWrite host prop.toDefinition item).toList = [] := by
            intro item
            simp [elementWrite, DataBlockProperty.toDefinition, hcodec]
          rw [List.flatMap_eq_nil_iff.2 fun item _ => hnone item]
          rfl
      | some codec =>
          have hplace : ∀ {i : ℕ}, i < prop.count →
              prop.toDefinition.offset + i * prop.toDefinition.elementSize +
                prop.toDefinition.elementSize ≤ result.length := fun hi =>
            (element_inside prop.toDefinition hi).2.trans hinside
          dsimp only
          rw [hsame]
          by_cases hcount : prop.count = 1
          · have hcount' : prop.toDefinition.count = 1 := hcount
            have hwrite := encodeElement_eq_spliceAll hsize hcodec (value, 0)
              (hplace (hcount ▸ Nat.one_pos))
            rw [Nat.zero_mul, Nat.add_zero] at hwrite
            rw [if_pos hcount, propertyItems_one hcount', List.flatMap_singleton]
            exact hwrite
          · have hcount' : prop.toDefinition.count ≠ 1 := hcount
            rw [if_neg hcount]
            cases value with
            | array arr =>
                have hitem : ∀ item ∈ (arr.take prop.count).zipIdx, item.2 < prop.count := by
                  intro item hitem
                  rw [← propertyItems_array hcount] at hitem
                  exact lt_count_of_mem_propertyItems _ hitem
                rw [propertyItems_array hcount']
                refine Outcome.foldlM_eq_spliceAll rfl ?_ ?_
                · intro item hmem result' hlen
                  refine encodeElement_eq_spliceAll hsize hcodec item ?_
                  rw [hlen]
                  exact hplace (hitem item hmem)
                · intro item hmem w hw
                  obtain ⟨hstart, hlen⟩ := elementWrite_eq_some hsize (Option.mem_toList.1 hw)
                  rw [hstart, hlen]
                  exact hplace (hitem item hmem)
            | _ => simp [propertyItems, hcount']

/-- **The encoder of data blocks applies the writes of the block.** -/
theorem encodeProperties_eq_spliceAll {properties : List DataBlockProperty} (values : Values)
    {result : List UInt8}
    (h : ∀ prop ∈ properties, prop.elementSize = prop.toDefinition.elementSize ∧
      FixedSize host prop.toDefinition ∧ prop.toDefinition.stop ≤ result.length) :
    properties.foldlM (encodeProperty host values) result =
      .ok (List.spliceAll (blockWrites host (fun name => values.lookup name)
        (properties.map DataBlockProperty.toDefinition)) result) := by
  rw [blockWrites, List.flatMap_map]
  refine Outcome.foldlM_eq_spliceAll rfl ?_ ?_
  · intro prop hprop result' hlen
    obtain ⟨hsame, hsize, hinside⟩ := h prop hprop
    exact encodeProperty_eq_spliceAll hsame hsize values (hlen ▸ hinside)
  · intro prop hprop w hw
    obtain ⟨-, hsize, hinside⟩ := h prop hprop
    exact (propertyWrites_inside hsize hw).2.trans hinside

/-! ### Both encoders -/

/-- The types that both encoders know, and treat alike. -/
def commonTypes : List PropertyType :=
  [.boolean, .byte, .integer, .word, .dword, .dint, .lint, .real, .dateTime, .bigDecimal,
    .ipAddress]

/-- For the common types both size tables have what the codec gives. -/
theorem commonTypes_size (host : Host) {t : PropertyType} (ht : t ∈ commonTypes) :
    typeSize t = FillingPilot.typeSize t.asStr ∧
      ∀ codec value encoded, getCodec host t.asStr = some codec →
        codec.encode value = .ok encoded → encoded.length = typeSize t := by
  simp only [commonTypes, List.mem_cons, List.not_mem_nil, or_false] at ht
  rcases ht with rfl | rfl | rfl | rfl | rfl | rfl | rfl | rfl | rfl | rfl | rfl <;>
    refine ⟨by decide, fun codec value encoded hcodec hencode => ?_⟩ <;>
    rw [length_of_encode hcodec hencode] <;> cases value <;> rfl

end DataBlock

/-- One layout, given to both encoders: properties of common types, whose size is not overridden or
overridden by what the codec gives, with their places inside the block. -/
structure CommonLayout (host : Host) (block : DataBlock.DataBlockDefinition)
    (definition : DataBlockDefinition) : Prop where
  properties : definition.dataBlockPropertyDefinitionList =
    block.properties.map DataBlock.DataBlockProperty.toDefinition
  size : definition.blockSize = block.totalSize
  types : ∀ prop ∈ block.properties, prop.propertyType ∈ DataBlock.commonTypes
  sizes : ∀ prop ∈ block.properties, ∀ n ∈ prop.byteSize, ∀ codec value encoded,
    getCodec host prop.propertyType.asStr = some codec → codec.encode value = .ok encoded →
      encoded.length = n
  inside : ∀ p ∈ definition.dataBlockPropertyDefinitionList, p.stop ≤ definition.blockSize

theorem CommonLayout.elementSize {block : DataBlock.DataBlockDefinition}
    {definition : DataBlockDefinition} (h : CommonLayout host block definition)
    {prop : DataBlock.DataBlockProperty} (hprop : prop ∈ block.properties) :
    prop.elementSize = prop.toDefinition.elementSize ∧ FixedSize host prop.toDefinition := by
  obtain ⟨htable, hcodec⟩ := DataBlock.commonTypes_size host (h.types prop hprop)
  have hsizes := h.sizes prop hprop
  unfold FixedSize DataBlockPropertyDefinition.elementSize DataBlock.DataBlockProperty.elementSize
  simp only [DataBlock.DataBlockProperty.toDefinition]
  cases hsize : prop.byteSize with
  | none =>
      simp only [Option.getD_none, ← htable, true_and]
      exact hcodec
  | some n =>
      simp only [Option.getD_some, true_and]
      exact hsizes n (Option.mem_def.2 hsize)

section

variable {block : DataBlock.DataBlockDefinition} {definition : DataBlockDefinition}

theorem CommonLayout.encode_dataBlock (h : CommonLayout host block definition)
    (values : DataBlock.Values) :
    DataBlock.encode host block values =
      .ok (List.spliceAll (blockWrites host (fun name => values.lookup name)
        definition.dataBlockPropertyDefinitionList) (List.replicate definition.blockSize 0)) := by
  rw [DataBlock.encode, h.properties, h.size]
  refine DataBlock.encodeProperties_eq_spliceAll values fun prop hprop => ?_
  obtain ⟨hsame, hsize⟩ := h.elementSize hprop
  rw [List.length_replicate, ← h.size]
  refine ⟨hsame, hsize, h.inside _ ?_⟩
  rw [h.properties]
  exact List.mem_map_of_mem hprop

theorem CommonLayout.encode_deployment (h : CommonLayout host block definition)
    {javaType : String} {cache : MetaCache} (hcache : cache.lookup javaType = some definition)
    (contentMap : List (String × Value)) :
    encode host (.object contentMap) javaType cache =
      .ok (List.spliceAll (blockWrites host (fun name => contentMap.lookup name)
        definition.dataBlockPropertyDefinitionList) (List.replicate definition.blockSize 0)) := by
  refine encode_eq_spliceAll hcache fun p hp item hitem => ?_
  refine fillsPlace_of_fixedSize ?_ (h.inside p hp) hitem
  rw [h.properties] at hp
  obtain ⟨prop, hprop, rfl⟩ := List.mem_map.1 hp
  exact (h.elementSize hprop).2

/-- **Both encoders give the same bytes** for one layout and the same values, whatever these are. -/
theorem encoders_agree (h : CommonLayout host block definition) {javaType : String}
    {cache : MetaCache} (hcache : cache.lookup javaType = some definition)
    {values : DataBlock.Values} {contentMap : List (String × Value)}
    (hvalues : ∀ name, values.lookup name = contentMap.lookup name) :
    ∃ bytes, DataBlock.encode host block values = .ok bytes ∧
      encode host (.object contentMap) javaType cache = .ok bytes := by
  have hlookup : (fun name => values.lookup name) = fun name => contentMap.lookup name :=
    funext hvalues
  refine ⟨_, h.encode_dataBlock values, ?_⟩
  rw [hlookup]
  exact h.encode_deployment hcache contentMap

end

/-- A number and three bytes, the first two of which lie over the number. -/
def overlappingBlock : DataBlock.DataBlockDefinition where
  properties := [⟨"level", .dint, 0, 1, some 4⟩, ⟨"flags", .byte, 2, 3, none⟩]
  totalSize := 6

/-- The same layout for a deployment. -/
def overlappingDefinition : DataBlockDefinition where
  javaType := "Overlapping"
  blockSize := 6
  dataBlockPropertyDefinitionList :=
    [⟨"level", "dint", 0, 1, some 4⟩, ⟨"flags", "byte", 2, 3, none⟩]

theorem commonLayout_overlapping :
    CommonLayout bareHost overlappingBlock overlappingDefinition where
  properties := rfl
  size := rfl
  types := by decide
  sizes := by
    intro prop hprop n hn codec value encoded hcodec hencode
    simp only [overlappingBlock, List.mem_cons, List.not_mem_nil, or_false] at hprop
    rcases hprop with rfl | rfl
    · cases hn
      rw [length_of_encode hcodec hencode]
      cases value <;> rfl
    · cases hn
  inside := by decide

/-- The bytes are four, one of them no byte, and the number is missing. -/
def fourFlags : Value := .array [.ofInt 7, .null, .ofInt 9, .ofInt 1]

theorem encoders_agree_overlapping :
    ∃ bytes, DataBlock.encode bareHost overlappingBlock
        ((∅ : DataBlock.Values).insert "flags" fourFlags) = .ok bytes ∧
      encode bareHost (.object [("flags", fourFlags)]) "Overlapping"
        (AList.singleton "Overlapping" overlappingDefinition) = .ok bytes := by
  refine encoders_agree commonLayout_overlapping rfl ?_
  intro name
  by_cases hname : name = "flags"
  · subst hname
    rw [AList.lookup_insert]
    rfl
  · have hne : (name == "flags") = false := beq_eq_false_iff_ne.2 hname
    rw [AList.lookup_insert_ne hname, List.lookup_cons, hne]
    rfl

end FillingPilot
