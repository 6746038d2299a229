/-
Encoding a block and decoding it.

A layout is clean when its properties have distinct names and disjoint places inside the block, and
hold plain values: booleans, characters and integers.  An object fills the layout when it gives
every property a value of its type, or an array of as many as the property counts, and nothing
else.

Main definitions:

* `FillingPilot.IsValueOf` — the values of the plain types;
* `FillingPilot.CleanLayout`, `FillingPilot.Fills` — clean layouts, and the objects that fill them;
* `FillingPilot.Holds` — some bytes hold the value of a property.

Main results:

* `FillingPilot.exists_encodes` — **the round trip of one value**, for every plain type;
* `FillingPilot.encodeProperties_ok` — what the encoding of a list of properties leaves in a block:
  each value at its place, and the rest as it was;
* `FillingPilot.decodeProperties_ok` — what decoding finds in such a block;
* `FillingPilot.decodeAsMap_encode` — **the round trip of a block**.
-/

import FillingPilot.AssocMap
import FillingPilot.Deploy

set_option relaxedAutoImplicit false
set_option autoImplicit false

namespace FillingPilot

open Json Rust

variable {host : Host}

/-! ### Plain values -/

/-- The integer types and their layouts. -/
def integerTypes : List (String × IntFormat) :=
  [("byte", ⟨1, false⟩), ("integer", ⟨2, true⟩), ("word", ⟨2, false⟩), ("dword", ⟨4, false⟩),
    ("dint", ⟨4, true⟩), ("lint", ⟨8, true⟩)]

/-- The values of the plain types. -/
inductive IsValueOf : String → Value → Prop
  | boolean (b : Bool) : IsValueOf "boolean" (.bool b)
  /-- A text of one character below U+0100. -/
  | char {c : Char} (h : c.toNat < 256) : IsValueOf "char" (.string (String.singleton c))
  | integer {type : String} {f : IntFormat} (hf : (type, f) ∈ integerTypes) {n : ℤ}
      (h : f.Holds n) : IsValueOf type (.ofInt n)

/-- The bytes encode the value and decode to it, by the codec of the type. -/
def Encodes (host : Host) (type : String) (value : Value) (bytes : List UInt8) : Prop :=
  ∃ codec, getCodec host type = some codec ∧ codec.encode value = .ok bytes ∧
    codec.decode bytes = .ok value

theorem integer_codec (host : Host) {type : String} {f : IntFormat}
    (hf : (type, f) ∈ integerTypes) :
    ∃ codec invalid short, getCodec host type = some codec ∧
      codec.encode = integerEncode f invalid ∧ codec.decode = integerDecode f short Value.ofInt ∧
      typeSize type = f.len ∧ f.len ≤ 8 := by
  have htypes : integerTypes = integerCodecs.map fun e => (e.1.name, e.2) := rfl
  have hsizes : ∀ e ∈ integerTypes, typeSize e.1 = e.2.len := by decide
  have hsize := hsizes _ hf
  rw [htypes] at hf
  obtain ⟨⟨codec, f⟩, hmem, rfl, rfl⟩ := List.mem_map.1 hf
  obtain ⟨invalid, short, hencode, hdecode, -, -, hlen⟩ := integerCodecs_spec hmem
  exact ⟨codec, invalid, short, getCodec_integerCodecs host _ hmem, hencode, hdecode, hsize, hlen⟩

/-- **The round trip of one value**: it takes the size of its type and is read back. -/
theorem exists_encodes (host : Host) {type : String} {value : Value} (h : IsValueOf type value) :
    ∃ bytes, Encodes host type value bytes ∧ bytes.length = typeSize type := by
  cases h with
  | boolean b =>
      refine ⟨[if b then 1 else 0], ⟨booleanCodec, rfl, rfl, ?_⟩, rfl⟩
      cases b <;> rfl
  | @char c hc =>
      refine ⟨[UInt8.ofNat c.toNat], ⟨charCodec, rfl, ?_, charDecode_ofNat hc⟩, rfl⟩
      simp [charCodec, charEncode]
  | @integer _ f hf n hn =>
      obtain ⟨codec, invalid, short, hcodec, hencode, hdecode, hsize, hlen⟩ :=
        integer_codec host hf
      refine ⟨BigEndian.write f.len n, ⟨codec, hcodec, ?_, ?_⟩, ?_⟩
      · rw [hencode]
        exact integerEncode_ofInt hlen hn invalid
      · rw [hdecode]
        exact integerDecode_write hn short Value.ofInt
      · rw [BigEndian.length_write, hsize]

/-- The names of the plain types. -/
def plainTypes : List String :=
  ["boolean", "byte", "char", "integer", "word", "dword", "dint", "lint"]

theorem plain_codec (host : Host) {type : String} (h : type ∈ plainTypes) :
    0 < typeSize type ∧
      ∃ codec, getCodec host type = some codec ∧ codec.byteSize = some (typeSize type) := by
  simp only [plainTypes, List.mem_cons, List.not_mem_nil, or_false] at h
  rcases h with rfl | rfl | rfl | rfl | rfl | rfl | rfl | rfl <;>
    exact ⟨by decide, _, rfl, rfl⟩

/-! ### Clean layouts -/

/-- The first byte after the place of a property. -/
def DataBlockPropertyDefinition.stop (p : DataBlockPropertyDefinition) : ℕ :=
  p.offset + p.elementSize * p.count

/-- Properties with distinct names and plain types, in disjoint places inside the block. -/
structure CleanLayout (host : Host) (definition : DataBlockDefinition) : Prop where
  names : (definition.dataBlockPropertyDefinitionList.map fun p => p.name).Nodup
  counts : ∀ p ∈ definition.dataBlockPropertyDefinitionList, 1 ≤ p.count
  types : ∀ p ∈ definition.dataBlockPropertyDefinitionList, p.propertyType ∈ plainTypes
  /-- The size is not overridden, or overridden by the codec's own. -/
  sizes : ∀ p ∈ definition.dataBlockPropertyDefinitionList, p.byteSize = none ∨
    ∃ codec, getCodec host p.propertyType = some codec ∧ p.byteSize = codec.byteSize
  inside : ∀ p ∈ definition.dataBlockPropertyDefinitionList, p.stop ≤ definition.blockSize
  disjoint : definition.dataBlockPropertyDefinitionList.Pairwise fun p q =>
    p.stop ≤ q.offset ∨ q.stop ≤ p.offset

/-- The value is one for the property: of its type, or an array of as many as it counts. -/
def Suits (p : DataBlockPropertyDefinition) (value : Value) : Prop :=
  if p.count = 1 then IsValueOf p.propertyType value
  else ∃ arr, value = .array arr ∧ arr.length = p.count ∧ ∀ v ∈ arr, IsValueOf p.propertyType v

/-- The object gives every property a value for it, and nothing else. -/
structure Fills (definition : DataBlockDefinition) (contentMap : List (String × Value)) :
    Prop where
  given : ∀ p ∈ definition.dataBlockPropertyDefinitionList,
    ∃ value, contentMap.lookup p.name = some value ∧ Suits p value
  nothingElse : ∀ name value, contentMap.lookup name = some value →
    name ∈ definition.dataBlockPropertyDefinitionList.map fun p => p.name

theorem CleanLayout.elementSize_eq {definition : DataBlockDefinition}
    (h : CleanLayout host definition) {p : DataBlockPropertyDefinition}
    (hp : p ∈ definition.dataBlockPropertyDefinitionList) :
    p.elementSize = typeSize p.propertyType := by
  obtain ⟨-, codec, hcodec, hsize⟩ := plain_codec host (h.types p hp)
  rcases h.sizes p hp with hnone | ⟨codec', hcodec', hsame⟩
  · rw [DataBlockPropertyDefinition.elementSize, hnone, Option.getD_none]
  · obtain rfl : codec = codec' := Option.some.inj (hcodec.symm.trans hcodec')
    rw [DataBlockPropertyDefinition.elementSize, hsame, hsize, Option.getD_some]

/-! ### What a place holds -/

/-- The bytes are one element of a property. -/
def HoldsElement (host : Host) (p : DataBlockPropertyDefinition) (value : Value)
    (bytes : List UInt8) : Prop :=
  Encodes host p.propertyType value bytes ∧ bytes.length = p.elementSize

/-- The bytes hold the value of a property: one element, or one for each element of an array. -/
def Holds (host : Host) (p : DataBlockPropertyDefinition) (value : Value) (bytes : List UInt8) :
    Prop :=
  if p.count = 1 then HoldsElement host p value bytes
  else ∃ arr chunks, value = .array arr ∧ arr.length = p.count ∧
    List.Forall₂ (HoldsElement host p) arr chunks ∧ bytes = chunks.flatten

theorem length_flatten_of_holds {p : DataBlockPropertyDefinition} {arr : List Value}
    {chunks : List (List UInt8)} (h : List.Forall₂ (HoldsElement host p) arr chunks) :
    chunks.flatten.length = p.elementSize * arr.length := by
  induction h with
  | nil => rfl
  | cons hhead _ ih =>
      rw [List.flatten_cons, List.length_append, List.length_cons, ih, hhead.2]
      ring

theorem Holds.length {p : DataBlockPropertyDefinition} {value : Value} {bytes : List UInt8}
    (h : Holds host p value bytes) : bytes.length = p.elementSize * p.count := by
  unfold Holds at h
  split_ifs at h with hcount
  · rw [h.2, hcount, Nat.mul_one]
  · obtain ⟨arr, chunks, -, hlen, hchunks, rfl⟩ := h
    rw [length_flatten_of_holds hchunks, hlen]

/-! ### Encoding -/

theorem writeElement_holds {p : DataBlockPropertyDefinition} {value : Value}
    {encoded : List UInt8} (h : HoldsElement host p value encoded) {start : ℕ}
    {bytes : List UInt8} (hinside : start + p.elementSize ≤ bytes.length) :
    writeElement host p.propertyType p.elementSize start value bytes =
      .ok (List.splice start encoded bytes) := by
  obtain ⟨⟨codec, hcodec, hencode, -⟩, hlen⟩ := h
  have hstop : min (start + p.elementSize) bytes.length - start = encoded.length := by omega
  rw [writeElement_eq hcodec hencode, hstop, if_pos ⟨by omega, Nat.le_refl _⟩, List.take_length]

theorem writeElements_holds {p : DataBlockPropertyDefinition} {arr : List Value}
    {chunks : List (List UInt8)} (h : List.Forall₂ (HoldsElement host p) arr chunks) :
    ∀ (i : ℕ) (bytes : List UInt8),
      p.offset + i * p.elementSize + p.elementSize * arr.length ≤ bytes.length →
      writeElements host p (arr.zipIdx i) bytes =
        .ok (List.splice (p.offset + i * p.elementSize) chunks.flatten bytes) := by
  induction h with
  | nil =>
      intro i bytes _
      simp [writeElements]
  | @cons v chunk arr chunks hhead htail ih =>
      intro i bytes hinside
      have hflat := length_flatten_of_holds htail
      rw [List.length_cons, Nat.mul_succ] at hinside
      have hhere : p.offset + i * p.elementSize + p.elementSize ≤ bytes.length := by omega
      have hchunk : p.offset + i * p.elementSize + chunk.length ≤ bytes.length := by
        rwa [hhead.2]
      have hnext : p.offset + (i + 1) * p.elementSize =
          p.offset + i * p.elementSize + chunk.length := by
        rw [hhead.2]
        ring
      -- the rest is written right behind this element
      have hrest := ih (i + 1) (List.splice (p.offset + i * p.elementSize) chunk bytes) (by
        rw [List.length_splice hchunk, hnext, hhead.2]
        omega)
      have hadjacent : p.offset + i * p.elementSize + chunk.length + chunks.flatten.length ≤
          bytes.length := by
        rw [hhead.2, hflat]
        omega
      rw [writeElements, hnext] at hrest
      rw [List.zipIdx_cons, writeElements, List.foldlM_cons, writeElement_holds hhead hhere,
        Outcome.ok_bind, hrest, List.splice_splice hadjacent, List.flatten_cons]

theorem exists_chunks (host : Host) {p : DataBlockPropertyDefinition}
    (hsize : p.elementSize = typeSize p.propertyType) {arr : List Value}
    (h : ∀ v ∈ arr, IsValueOf p.propertyType v) :
    ∃ chunks, List.Forall₂ (HoldsElement host p) arr chunks := by
  induction arr with
  | nil => exact ⟨[], .nil⟩
  | cons v arr ih =>
      obtain ⟨chunk, hencodes, hlen⟩ := exists_encodes host (h v List.mem_cons_self)
      obtain ⟨chunks, hchunks⟩ := ih fun w hw => h w (List.mem_cons_of_mem v hw)
      exact ⟨chunk :: chunks, .cons ⟨hencodes, hlen.trans hsize.symm⟩ hchunks⟩

/-- **One property**: its value is written over its place. -/
theorem encodeProperty_ok (host : Host) {p : DataBlockPropertyDefinition}
    (hsize : p.elementSize = typeSize p.propertyType) {contentMap : List (String × Value)}
    {value : Value} (hvalue : contentMap.lookup p.name = some value) (hsuits : Suits p value) :
    ∃ image, Holds host p value image ∧ ∀ bytes, p.stop ≤ bytes.length →
      encodeProperty host contentMap bytes p = .ok (List.splice p.offset image bytes) := by
  unfold Suits at hsuits
  simp only [Holds, encodeProperty, hvalue, DataBlockPropertyDefinition.stop]
  by_cases hcount : p.count = 1
  · simp only [if_pos hcount] at hsuits ⊢
    obtain ⟨image, hencodes, hlen⟩ := exists_encodes host hsuits
    have himage : HoldsElement host p value image := ⟨hencodes, hlen.trans hsize.symm⟩
    refine ⟨image, himage, fun bytes hinside => writeElement_holds himage ?_⟩
    rwa [hcount, Nat.mul_one] at hinside
  · simp only [if_neg hcount] at hsuits ⊢
    obtain ⟨arr, rfl, hlen, hall⟩ := hsuits
    obtain ⟨chunks, hchunks⟩ := exists_chunks host hsize hall
    refine ⟨chunks.flatten, ⟨arr, chunks, rfl, hlen, hchunks, rfl⟩, fun bytes hinside => ?_⟩
    have hwrite := writeElements_holds hchunks 0 bytes (by rw [hlen]; omega)
    rw [Nat.zero_mul, Nat.add_zero] at hwrite
    have htake : arr.take p.count = arr := List.take_of_length_le (by omega)
    simp only [htake]
    exact hwrite

/-- **What encoding leaves in a block**: each property's place holds its value, and everything
apart from the places is as it was. -/
theorem encodeProperties_ok (host : Host) {contentMap : List (String × Value)} :
    ∀ {properties : List DataBlockPropertyDefinition} (bytes : List UInt8),
      (∀ p ∈ properties, p.elementSize = typeSize p.propertyType ∧ p.stop ≤ bytes.length ∧
        ∃ value, contentMap.lookup p.name = some value ∧ Suits p value) →
      properties.Pairwise (fun p q => p.stop ≤ q.offset ∨ q.stop ≤ p.offset) →
      ∃ bytes', properties.foldlM (encodeProperty host contentMap) bytes = .ok bytes' ∧
        bytes'.length = bytes.length ∧
        (∀ p ∈ properties, ∃ value, contentMap.lookup p.name = some value ∧
          Holds host p value (bytes'.slice p.offset (p.elementSize * p.count))) ∧
        ∀ start len, (∀ p ∈ properties, start + len ≤ p.offset ∨ p.stop ≤ start) →
          bytes'.slice start len = bytes.slice start len := by
  intro properties
  induction properties with
  | nil =>
      intro bytes _ _
      exact ⟨bytes, rfl, rfl, fun p hp => absurd hp List.not_mem_nil, fun _ _ _ => rfl⟩
  | cons p properties ih =>
      intro bytes hall hdisjoint
      rw [List.pairwise_cons] at hdisjoint
      obtain ⟨hsize, hinside, value, hvalue, hsuits⟩ := hall p List.mem_cons_self
      obtain ⟨image, himage, hwrite⟩ := encodeProperty_ok host hsize hvalue hsuits
      have hfit : p.offset + image.length ≤ bytes.length := by
        rw [himage.length]
        exact hinside
      have hlen : (List.splice p.offset image bytes).length = bytes.length :=
        List.length_splice hfit
      obtain ⟨bytes', hfold, hlen', hplaces, hframe⟩ := ih (List.splice p.offset image bytes)
        (fun q hq => hlen ▸ hall q (List.mem_cons_of_mem p hq)) hdisjoint.2
      refine ⟨bytes', ?_, hlen'.trans hlen, ?_, ?_⟩
      · rw [List.foldlM_cons, hwrite bytes hinside, Outcome.ok_bind, hfold]
      · intro q hq
        rcases List.mem_cons.1 hq with rfl | hq
        · -- the later properties leave this place alone
          have hplace := hframe q.offset (q.elementSize * q.count) fun r hr => hdisjoint.1 r hr
          refine ⟨value, hvalue, ?_⟩
          rw [hplace, ← himage.length, List.slice_splice_self hfit]
          exact himage
        · exact hplaces q hq
      · intro start len hapart
        rw [hframe start len fun q hq => hapart q (List.mem_cons_of_mem p hq)]
        refine List.slice_splice_of_disjoint hfit ?_
        rw [himage.length]
        exact hapart p List.mem_cons_self

/-! ### Decoding -/

theorem readElements_holds {p : DataBlockPropertyDefinition} (hpos : 0 < p.elementSize)
    {data : List UInt8} {arr : List Value} {chunks : List (List UInt8)}
    (h : List.Forall₂ (HoldsElement host p) arr chunks) :
    ∀ {i : ℕ}, p.offset + i * p.elementSize + p.elementSize * arr.length ≤ data.length →
      data.slice (p.offset + i * p.elementSize) (p.elementSize * arr.length) = chunks.flatten →
      readElements host p data arr.length i = .ok arr := by
  induction h with
  | nil => intro i _ _; rfl
  | @cons v chunk arr chunks hhead htail ih =>
      intro i hinside hslice
      rw [List.length_cons, Nat.mul_succ] at hinside hslice
      have hnext : p.offset + (i + 1) * p.elementSize =
          p.offset + i * p.elementSize + p.elementSize := by ring
      have hlen : p.elementSize * arr.length + p.elementSize =
          chunk.length + chunks.flatten.length := by
        rw [hhead.2, length_flatten_of_holds htail, Nat.add_comm]
      rw [List.flatten_cons] at hslice
      -- the slice is the chunk of this element, followed by those of the rest
      have hfirst := List.slice_left hslice hlen
      have hrest := List.slice_right hslice hlen
      rw [hhead.2] at hfirst hrest
      rw [length_flatten_of_holds htail, ← hnext] at hrest
      obtain ⟨codec, hcodec, -, hdecode⟩ := hhead.1
      have hmin : min (p.offset + i * p.elementSize + p.elementSize) data.length =
          p.offset + i * p.elementSize + p.elementSize := by omega
      have hread : slice (p.offset + i * p.elementSize)
          (p.offset + i * p.elementSize + p.elementSize) data = .ok chunk := by
        rw [slice, if_pos (by omega), Nat.add_sub_cancel_left, hfirst]
      rw [List.length_cons, readElements]
      simp only [if_neg (show ¬ data.length ≤ p.offset + i * p.elementSize by omega), hmin, hread,
        Outcome.ok_bind, readElement_eq hcodec hdecode]
      rw [ih (by rw [hnext]; omega) hrest]
      rfl

/-- **One property**: a place that holds a value gives it back. -/
theorem decodeProperty_ok {p : DataBlockPropertyDefinition} (hpos : 0 < p.elementSize)
    (hcounts : 1 ≤ p.count) {data : List UInt8} (hinside : p.stop ≤ data.length) {value : Value}
    (h : Holds host p value (data.slice p.offset (p.elementSize * p.count)))
    (map : AList fun _ : String => Value) :
    decodeProperty host data map p = .ok (map.insert p.name value) := by
  unfold DataBlockPropertyDefinition.stop at hinside
  have hplace : 0 < p.elementSize * p.count := Nat.mul_pos hpos hcounts
  have hmin : min (p.offset + p.elementSize * p.count) data.length =
      p.offset + p.elementSize * p.count := by omega
  have hstart : ¬ data.length ≤ p.offset := by omega
  unfold Holds at h
  simp only [decodeProperty, if_neg hstart, hmin]
  by_cases hcount : p.count = 1
  · simp only [if_pos hcount] at h ⊢
    obtain ⟨⟨codec, hcodec, -, hdecode⟩, -⟩ := h
    have hslice : slice p.offset (p.offset + p.elementSize * p.count) data =
        .ok (data.slice p.offset (p.elementSize * p.count)) := by
      rw [slice, if_pos (by omega), Nat.add_sub_cancel_left]
    rw [hslice, Outcome.ok_bind, readElement_eq hcodec hdecode]
    rfl
  · simp only [if_neg hcount] at h ⊢
    obtain ⟨arr, chunks, rfl, hlen, hchunks, hflat⟩ := h
    have hread : readElements host p data arr.length 0 = .ok arr := by
      refine readElements_holds hpos hchunks ?_ ?_
      · rw [hlen]
        omega
      · rw [hlen, Nat.zero_mul, Nat.add_zero, hflat]
    have hne : arr.isEmpty = false := by
      rw [List.isEmpty_eq_false_iff, ← List.length_pos_iff]
      omega
    rw [← hlen, hread, Outcome.ok_bind, hne]
    rfl

/-- **What decoding finds**: the values the places of the properties hold, and before them what the
map had. -/
theorem decodeProperties_ok {data : List UInt8} {contentMap : List (String × Value)} :
    ∀ {properties : List DataBlockPropertyDefinition} (map : AList fun _ : String => Value),
      (∀ p ∈ properties, 0 < p.elementSize ∧ 1 ≤ p.count ∧ p.stop ≤ data.length ∧
        ∃ value, contentMap.lookup p.name = some value ∧
          Holds host p value (data.slice p.offset (p.elementSize * p.count))) →
      ∃ map', properties.foldlM (decodeProperty host data) map = .ok map' ∧
        ∀ name, map'.lookup name =
          if name ∈ properties.map fun p => p.name then contentMap.lookup name
          else map.lookup name := by
  intro properties
  induction properties with
  | nil => intro map _; exact ⟨map, rfl, fun name => by simp⟩
  | cons p properties ih =>
      intro map hall
      obtain ⟨hpos, hcounts, hinside, value, hvalue, hholds⟩ := hall p List.mem_cons_self
      obtain ⟨map', hfold, hlookup⟩ := ih (map.insert p.name value) fun q hq =>
        hall q (List.mem_cons_of_mem p hq)
      refine ⟨map', ?_, fun name => ?_⟩
      · rw [List.foldlM_cons, decodeProperty_ok hpos hcounts hinside hholds, Outcome.ok_bind,
          hfold]
      · rw [hlookup name, List.map_cons]
        by_cases hlater : name ∈ properties.map fun p => p.name
        · rw [if_pos hlater, if_pos (List.mem_cons_of_mem _ hlater)]
        · by_cases hname : name = p.name
          · subst hname
            rw [if_neg hlater, if_pos List.mem_cons_self, AList.lookup_insert, hvalue]
          · have hnot : name ∉ p.name :: properties.map fun p => p.name := by
              rw [List.mem_cons, not_or]
              exact ⟨hname, hlater⟩
            rw [if_neg hlater, if_neg hnot, AList.lookup_insert_ne hname]

/-! ### Whole blocks -/

/-- **The round trip of a block**: an object that fills a clean layout is encoded to a block of its
size, and decoding the block gives exactly the object. -/
theorem decodeAsMap_encode {definition : DataBlockDefinition} {javaType : String}
    {cache : MetaCache} (hcache : cache.lookup javaType = some definition)
    (hclean : CleanLayout host definition) {contentMap : List (String × Value)}
    (hfills : Fills definition contentMap) :
    ∃ bytes map, encode host (.object contentMap) javaType cache = .ok bytes ∧
      bytes.length = definition.blockSize ∧ decodeAsMap host bytes javaType cache = .ok map ∧
      ∀ name, map.lookup name = contentMap.lookup name := by
  have hzeros : (List.replicate definition.blockSize (0 : UInt8)).length = definition.blockSize :=
    List.length_replicate
  -- the encoder fills the place of every property, and the decoder reads it there
  have hencodes : ∀ p ∈ definition.dataBlockPropertyDefinitionList,
      p.elementSize = typeSize p.propertyType ∧
        p.stop ≤ (List.replicate definition.blockSize (0 : UInt8)).length ∧
        ∃ value, contentMap.lookup p.name = some value ∧ Suits p value := by
    intro p hp
    rw [hzeros]
    exact ⟨hclean.elementSize_eq hp, hclean.inside p hp, hfills.given p hp⟩
  obtain ⟨bytes, hencode, hlen, hplaces, -⟩ :=
    encodeProperties_ok host _ hencodes hclean.disjoint
  rw [hzeros] at hlen
  have hdecodes : ∀ p ∈ definition.dataBlockPropertyDefinitionList,
      0 < p.elementSize ∧ 1 ≤ p.count ∧ p.stop ≤ bytes.length ∧
        ∃ value, contentMap.lookup p.name = some value ∧
          Holds host p value (bytes.slice p.offset (p.elementSize * p.count)) := by
    intro p hp
    have hpos : 0 < typeSize p.propertyType := (plain_codec host (hclean.types p hp)).1
    rw [← hclean.elementSize_eq hp] at hpos
    exact ⟨hpos, hclean.counts p hp, hlen ▸ hclean.inside p hp, hplaces p hp⟩
  obtain ⟨map, hdecode, hlookup⟩ := decodeProperties_ok ∅ hdecodes
  refine ⟨bytes, map, ?_, hlen, ?_, fun name => ?_⟩
  · simp only [encode, hcache, hencode]
  · simp only [decodeAsMap, hcache, hdecode]
  · rw [hlookup name]
    split_ifs with hname
    · rfl
    · cases hvalue : contentMap.lookup name with
      | none => rfl
      | some value => exact absurd (hfills.nothingElse name value hvalue) hname

/-- A block with a flag, two signed numbers and a letter. -/
def mixedBlock : DataBlockDefinition where
  javaType := "Mixed"
  blockSize := 12
  dataBlockPropertyDefinitionList :=
    [⟨"flag", "boolean", 0, 1, none⟩, ⟨"levels", "dint", 2, 2, none⟩, ⟨"mark", "char", 11, 1, none⟩]

/-- Values for `mixedBlock`. -/
def mixedContent : List (String × Value) :=
  [("mark", .string (String.singleton 'A')), ("flag", .bool true),
    ("levels", .array [.ofInt (-1), .ofInt 2147483647])]

theorem decodeAsMap_encode_mixed :
    ∃ bytes map,
      encode bareHost (.object mixedContent) "Mixed" (AList.singleton "Mixed" mixedBlock) =
        .ok bytes ∧
      bytes.length = 12 ∧
      decodeAsMap bareHost bytes "Mixed" (AList.singleton "Mixed" mixedBlock) = .ok map ∧
      ∀ name, map.lookup name = mixedContent.lookup name := by
  have hclean : CleanLayout bareHost mixedBlock := {
    names := by decide
    counts := by decide
    types := by decide
    sizes := fun p hp => Or.inl (by revert p; decide)
    inside := by decide
    disjoint := by decide }
  have hlevels : ∀ v ∈ [Value.ofInt (-1), Value.ofInt 2147483647], IsValueOf "dint" v := by
    have hdint : ("dint", (⟨4, true⟩ : IntFormat)) ∈ integerTypes := by simp [integerTypes]
    simp only [List.mem_cons, List.not_mem_nil, or_false, forall_eq_or_imp, forall_eq]
    exact ⟨.integer hdint (by decide), .integer hdint (by decide)⟩
  have hfills : Fills mixedBlock mixedContent := by
    refine ⟨?_, ?_⟩
    · simp only [mixedBlock, List.mem_cons, List.not_mem_nil, or_false, forall_eq_or_imp,
        forall_eq]
      refine ⟨⟨_, rfl, .boolean true⟩, ⟨_, rfl, ⟨_, rfl, rfl, hlevels⟩⟩, ⟨_, rfl, .char ?_⟩⟩
      decide
    · intro name value hvalue
      obtain ⟨before, after, hsplit, -⟩ := List.lookup_eq_some_iff.1 hvalue
      have hmem : (name, value) ∈ mixedContent := hsplit ▸ by simp
      have hkeys : ∀ e ∈ mixedContent,
          e.1 ∈ mixedBlock.dataBlockPropertyDefinitionList.map fun p => p.name := by decide
      exact hkeys _ hmem
  exact decodeAsMap_encode rfl hclean hfills

end FillingPilot
