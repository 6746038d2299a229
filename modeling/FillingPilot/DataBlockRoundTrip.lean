/-
Encoding a data block and decoding it.

The encoder writes every element of an array, but the decoder cuts the bytes of a property to one
element before it looks for the others.  A block whose properties all count one comes back as it
was; an array comes back with one element at most.

Main definitions:

* `FillingPilot.DataBlock.CleanBlock`, `FillingPilot.DataBlock.Given` — clean blocks, and values for
  them;
* `FillingPilot.DataBlock.RoundTrips` — decoding undoes encoding.

Main results:

* `FillingPilot.DataBlock.decode_lookup` — what decoding does, property by property;
* `FillingPilot.DataBlock.decodeProperty_array` — an array is decoded to one element at most;
* `FillingPilot.DataBlock.place_of_encode` — what encoding leaves in the place of a property;
* `FillingPilot.DataBlock.roundTrips_iff` — **the exact condition** for the round trip.
-/

import FillingPilot.BlockWrites

set_option relaxedAutoImplicit false
set_option autoImplicit false

namespace FillingPilot

namespace DataBlock

open Json Rust

variable {host : Host}

/-! ### Clean blocks -/

/-- The types whose values come back as they were. -/
def plainTypes : List PropertyType := [.boolean, .byte, .integer, .word, .dword, .dint, .lint]

/-- Properties with distinct names and plain types, in disjoint places inside the block. -/
structure CleanBlock (host : Host) (block : DataBlockDefinition) : Prop where
  names : (block.properties.map fun prop => prop.name).Nodup
  counts : ∀ prop ∈ block.properties, 1 ≤ prop.count
  types : ∀ prop ∈ block.properties, prop.propertyType ∈ plainTypes
  /-- The size is not overridden, or overridden by the codec's own. -/
  sizes : ∀ prop ∈ block.properties, prop.byteSize = none ∨
    ∃ codec, getCodec host prop.propertyType.asStr = some codec ∧ prop.byteSize = codec.byteSize
  inside : ∀ prop ∈ block.properties, prop.toDefinition.stop ≤ block.totalSize
  disjoint : block.properties.Pairwise fun p q =>
    p.toDefinition.stop ≤ q.offset ∨ q.toDefinition.stop ≤ p.offset

/-- Every property has a value for it: of its type, or an array of as many as it counts. -/
def Given (block : DataBlockDefinition) (values : Values) : Prop :=
  ∀ prop ∈ block.properties,
    ∃ value, values.lookup prop.name = some value ∧ Suits prop.toDefinition value

/-- The plain types have a codec of the size of the table. -/
theorem plainTypes_codec (host : Host) {t : PropertyType} (h : t ∈ plainTypes) :
    t ∈ commonTypes ∧ 0 < typeSize t ∧ FillingPilot.typeSize t.asStr = typeSize t ∧
      ∃ codec, getCodec host t.asStr = some codec ∧ codec.byteSize = some (typeSize t) := by
  simp only [plainTypes, List.mem_cons, List.not_mem_nil, or_false] at h
  rcases h with rfl | rfl | rfl | rfl | rfl | rfl | rfl <;>
    exact ⟨by decide, by decide, by decide, _, rfl, rfl⟩

section

variable {block : DataBlockDefinition} {prop : DataBlockProperty}

theorem CleanBlock.elementSize_eq (h : CleanBlock host block) (hprop : prop ∈ block.properties) :
    prop.elementSize = typeSize prop.propertyType := by
  obtain ⟨-, -, -, codec, hcodec, hsize⟩ := plainTypes_codec host (h.types prop hprop)
  rcases h.sizes prop hprop with hnone | ⟨codec', hcodec', hsame⟩
  · rw [DataBlockProperty.elementSize, hnone, Option.getD_none]
  · obtain rfl : codec = codec' := Option.some.inj (hcodec.symm.trans hcodec')
    rw [DataBlockProperty.elementSize, hsame, hsize, Option.getD_some]

/-- A clean block, as a deployment has it. -/
theorem CleanBlock.commonLayout (h : CleanBlock host block) :
    CommonLayout host block ⟨"", block.totalSize,
      block.properties.map DataBlockProperty.toDefinition⟩ where
  properties := rfl
  size := rfl
  types := fun prop hprop => (plainTypes_codec host (h.types prop hprop)).1
  sizes := by
    intro prop hprop n hn codec value encoded hcodec hencode
    have hsize : prop.elementSize = n := by
      rw [DataBlockProperty.elementSize, Option.mem_def.1 hn, Option.getD_some]
    have hcommon := (plainTypes_codec host (h.types prop hprop)).1
    rw [← hsize, h.elementSize_eq hprop]
    exact (commonTypes_size host hcommon).2 codec value encoded hcodec hencode
  inside := by
    intro p hp
    obtain ⟨prop, hprop, rfl⟩ := List.mem_map.1 hp
    exact h.inside prop hprop

end

/-! ### Decoding -/

section

variable {bytes : List UInt8} {prop : DataBlockProperty} {values values' : Values}

/-- What decoding a property may do: nothing, or an entry of its name. -/
theorem decodeProperty_cases (h : decodeProperty host bytes values prop = .ok values') :
    values' = values ∨ ∃ value, values' = values.insert prop.name value ∧
      (prop.count ≠ 1 → ∃ codec propBytes arr, value = .array arr ∧
        propBytes.length = prop.elementSize ∧
        decodeItems codec prop.elementSize propBytes prop.count 0 = .ok arr) := by
  unfold decodeProperty at h
  cases hcodec : getCodec host prop.propertyType.asStr with
  | none =>
      rw [hcodec] at h
      cases h
      exact Or.inl rfl
  | some codec =>
      rw [hcodec] at h
      dsimp only at h
      split_ifs at h with hinside hcount
      · obtain ⟨propBytes, -, h⟩ := Outcome.bind_eq_ok.1 h
        obtain ⟨value, -, h⟩ := Outcome.bind_eq_ok.1 h
        cases value with
        | none =>
            cases h
            exact Or.inl rfl
        | some value =>
            cases h
            exact Or.inr ⟨value, rfl, fun hne => absurd hcount hne⟩
      · obtain ⟨propBytes, hslice, h⟩ := Outcome.bind_eq_ok.1 h
        obtain ⟨arr, harr, h⟩ := Outcome.bind_eq_ok.1 h
        split_ifs at h with hempty
        · cases h
          exact Or.inl rfl
        · cases h
          refine Or.inr ⟨.array arr, rfl, fun _ => ⟨codec, propBytes, arr, rfl, ?_, harr⟩⟩
          rw [slice, if_pos (by omega), Nat.add_sub_cancel_left] at hslice
          cases hslice
          exact List.length_slice hinside
      · cases h
        exact Or.inl rfl

theorem decodeProperty_frame (h : decodeProperty host bytes values prop = .ok values')
    {name : String} (hname : name ≠ prop.name) : values'.lookup name = values.lookup name := by
  rcases decodeProperty_cases h with rfl | ⟨value, rfl, -⟩
  · rfl
  · exact AList.lookup_insert_ne hname

/-- **An array is decoded to one element** at most. -/
theorem decodeProperty_array (hpos : 0 < prop.elementSize) (hcount : prop.count ≠ 1)
    (h : decodeProperty host bytes values prop = .ok values')
    (hnone : values.lookup prop.name = none) {arr : List Value}
    (harr : values'.lookup prop.name = some (.array arr)) : arr.length ≤ 1 := by
  rcases decodeProperty_cases h with rfl | ⟨value, rfl, hitems⟩
  · rw [hnone] at harr
    cases harr
  · obtain ⟨codec, propBytes, items, rfl, hlen, hdecode⟩ := hitems hcount
    rw [AList.lookup_insert] at harr
    cases harr
    exact length_decodeItems_le hpos hlen hdecode

end

/-- **What decoding does**, property by property, when the names differ: the entry of a property is
the one its own step made. -/
theorem decode_lookup {bytes : List UInt8} {properties : List DataBlockProperty}
    {values final : Values} (hnames : (properties.map fun prop => prop.name).Nodup)
    (h : properties.foldlM (decodeProperty host bytes) values = .ok final) :
    (∀ prop ∈ properties, ∃ before after, decodeProperty host bytes before prop = .ok after ∧
      before.lookup prop.name = values.lookup prop.name ∧
      final.lookup prop.name = after.lookup prop.name) ∧
    ∀ name ∉ properties.map fun prop => prop.name, final.lookup name = values.lookup name :=
  Outcome.foldlM_cells DataBlockProperty.name (fun map name => AList.lookup name map)
    (fun _ _ _ hstep _ hname => decodeProperty_frame hstep hname) hnames h

/-! ### Encoding -/

section

variable {block : DataBlockDefinition} {values : Values}

/-- The bytes are one element of the property, and decode to the value. -/
def HoldsValue (host : Host) (prop : DataBlockProperty) (value : Value) (encoded : List UInt8) :
    Prop :=
  ∃ codec, getCodec host prop.propertyType.asStr = some codec ∧ codec.encode value = .ok encoded ∧
    codec.decode encoded = .ok value ∧ encoded.length = prop.elementSize

theorem HoldsValue.length {prop : DataBlockProperty} {value : Value} {encoded : List UInt8}
    (h : HoldsValue host prop value encoded) : encoded.length = prop.elementSize := by
  obtain ⟨-, -, -, -, hlen⟩ := h
  exact hlen

theorem CleanBlock.inside_of_one (h : CleanBlock host block) {prop : DataBlockProperty}
    (hprop : prop ∈ block.properties) (hone : prop.count = 1) :
    prop.offset + prop.elementSize ≤ block.totalSize := by
  have hinside := h.inside prop hprop
  have hsame := (h.commonLayout.elementSize hprop).1
  rw [DataBlockPropertyDefinition.stop, ← hsame] at hinside
  simpa only [DataBlockProperty.toDefinition, hone, Nat.mul_one] using hinside

theorem propertyWrites_of_one (h : CleanBlock host block) (hgiven : Given block values)
    {prop : DataBlockProperty} (hprop : prop ∈ block.properties) (hone : prop.count = 1) :
    ∃ value encoded, values.lookup prop.name = some value ∧ HoldsValue host prop value encoded ∧
      propertyWrites host (values.lookup prop.name) prop.toDefinition =
        [(prop.offset, encoded)] := by
  obtain ⟨value, hvalue, hsuits⟩ := hgiven prop hprop
  have hone' : prop.toDefinition.count = 1 := hone
  rw [Suits, if_pos hone'] at hsuits
  obtain ⟨encoded, ⟨codec, hcodec, hencode, hdecode⟩, hlen⟩ := exists_encodes host hsuits
  have htable := (plainTypes_codec host (h.types prop hprop)).2.2.1
  refine ⟨value, encoded, hvalue, ⟨codec, hcodec, hencode, hdecode, ?_⟩, ?_⟩
  · rw [hlen, h.elementSize_eq hprop]
    exact htable
  · rw [propertyWrites, hvalue, propertyItems_one hone', List.flatMap_singleton,
      elementWrite_of_encode _ hcodec hencode, Nat.zero_mul, Nat.add_zero]
    rfl

/-- **What encoding leaves** in the place of a property, when all count one: its value. -/
theorem place_of_encode (h : CleanBlock host block) (hgiven : Given block values)
    (hones : ∀ prop ∈ block.properties, prop.count = 1) :
    ∃ bytes, encode host block values = .ok bytes ∧ bytes.length = block.totalSize ∧
      ∀ prop ∈ block.properties, ∃ value, values.lookup prop.name = some value ∧
        HoldsValue host prop value (bytes.slice prop.offset prop.elementSize) := by
  have hencode := h.commonLayout.encode_dataBlock values
  set writes := blockWrites host (fun name => values.lookup name)
    (block.properties.map DataBlockProperty.toDefinition) with hwrites
  have hmem : ∀ w, w ∈ writes ↔ ∃ prop ∈ block.properties,
      w ∈ propertyWrites host (values.lookup prop.name) prop.toDefinition := by
    intro w
    rw [hwrites, blockWrites, List.flatMap_map, List.mem_flatMap]
    rfl
  have hlen : (List.replicate block.totalSize (0 : UInt8)).length = block.totalSize :=
    List.length_replicate
  have hfit : ∀ w ∈ writes, w.1 + w.2.length ≤
      (List.replicate block.totalSize (0 : UInt8)).length := by
    intro w hw
    obtain ⟨prop, hprop, hw⟩ := (hmem w).1 hw
    rw [hlen]
    have hsize := (h.commonLayout.elementSize hprop).2
    exact (propertyWrites_inside hsize hw).2.trans (h.inside prop hprop)
  -- the writes lie in the places of their properties, which are disjoint
  have hdisjoint : writes.Pairwise fun w w' =>
      w.1 + w.2.length ≤ w'.1 ∨ w'.1 + w'.2.length ≤ w.1 := by
    rw [hwrites, blockWrites, List.flatMap_map, List.pairwise_flatMap]
    refine ⟨?_, h.disjoint.imp_of_mem ?_⟩
    · intro prop hprop
      obtain ⟨_, _, _, _, hwrite⟩ := propertyWrites_of_one h hgiven hprop (hones prop hprop)
      simp only [DataBlockProperty.toDefinition] at hwrite ⊢
      rw [hwrite]
      exact List.pairwise_singleton _ _
    · intro p q hp hq hapart w hw w' hw'
      obtain ⟨hstart, hstop⟩ := propertyWrites_inside (h.commonLayout.elementSize hp).2 hw
      obtain ⟨hstart', hstop'⟩ := propertyWrites_inside (h.commonLayout.elementSize hq).2 hw'
      simp only [DataBlockProperty.toDefinition] at hstart hstart'
      omega
  refine ⟨_, hencode, (List.length_spliceAll hfit).trans hlen, ?_⟩
  intro prop hprop
  obtain ⟨value, encoded, hvalue, hholds, hwrite⟩ :=
    propertyWrites_of_one h hgiven hprop (hones prop hprop)
  have hw : (prop.offset, encoded) ∈ writes :=
    (hmem _).2 ⟨prop, hprop, hwrite ▸ List.mem_singleton.2 rfl⟩
  have hplace := List.slice_spliceAll_of_mem hfit hdisjoint hw
  refine ⟨value, hvalue, ?_⟩
  rw [← hholds.length]
  dsimp only at hplace
  rw [hplace]
  exact hholds

/-! ### The round trip -/

/-- Decoding undoes encoding: the values read are the values written. -/
def RoundTrips (host : Host) (block : DataBlockDefinition) (values : Values) : Prop :=
  ∃ bytes result, encode host block values = .ok bytes ∧ fromBytes host block bytes = .ok result ∧
    ∀ name, result.2.2.lookup name = values.lookup name

theorem decodeProperty_of_one {bytes : List UInt8} {prop : DataBlockProperty} {value : Value}
    (hone : prop.count = 1) (hinside : prop.offset + prop.elementSize ≤ bytes.length)
    (h : HoldsValue host prop value (bytes.slice prop.offset prop.elementSize)) (map : Values) :
    decodeProperty host bytes map prop = .ok (map.insert prop.name value) := by
  obtain ⟨codec, hcodec, -, hdecode, -⟩ := h
  simp only [decodeProperty, hcodec]
  rw [if_pos hinside, slice, if_pos (by omega), Nat.add_sub_cancel_left, Outcome.ok_bind,
    if_pos hone, decodeValue, hdecode]
  rfl

theorem RoundTrips.count_eq_one (hround : RoundTrips host block values) (h : CleanBlock host block)
    (hgiven : Given block values) {prop : DataBlockProperty} (hprop : prop ∈ block.properties) :
    prop.count = 1 := by
  obtain ⟨bytes, result, -, hfrom, hlookup⟩ := hround
  obtain ⟨final, hdecode, hresult⟩ := Outcome.bind_eq_ok.1 hfrom
  cases hresult
  obtain ⟨hentries, -⟩ := decode_lookup h.names hdecode
  by_contra hne
  have hne' : prop.toDefinition.count ≠ 1 := hne
  obtain ⟨value, hvalue, hsuits⟩ := hgiven prop hprop
  rw [Suits, if_neg hne'] at hsuits
  obtain ⟨arr, rfl, hlen, -⟩ := hsuits
  -- the entry read is the array that was written, and has one element at most
  obtain ⟨before, after, hstep, hbefore, hfinal⟩ := hentries prop hprop
  have hpos : 0 < prop.elementSize := by
    rw [h.elementSize_eq hprop]
    exact (plainTypes_codec host (h.types prop hprop)).2.1
  have hentry : after.lookup prop.name = some (.array arr) := by
    rw [← hfinal, ← hvalue]
    exact hlookup prop.name
  have hle := decodeProperty_array hpos hne hstep hbefore hentry
  have hcount : arr.length = prop.count := hlen
  have hge := h.counts prop hprop
  omega

theorem RoundTrips.mem_names (hround : RoundTrips host block values) (h : CleanBlock host block)
    {name : String} (hsome : (values.lookup name).isSome) :
    name ∈ block.properties.map fun prop => prop.name := by
  obtain ⟨bytes, result, -, hfrom, hlookup⟩ := hround
  obtain ⟨final, hdecode, hresult⟩ := Outcome.bind_eq_ok.1 hfrom
  cases hresult
  obtain ⟨-, hrest⟩ := decode_lookup h.names hdecode
  by_contra hnot
  have hnone := hrest name hnot
  have hsame := hlookup name
  dsimp only at hsame
  rw [← hsame, hnone] at hsome
  cases hsome

/-- Single values under the names of the properties come back. -/
theorem roundTrips_of_ones (h : CleanBlock host block) (hgiven : Given block values)
    (hones : ∀ prop ∈ block.properties, prop.count = 1)
    (hnothingElse : ∀ name, (values.lookup name).isSome →
      name ∈ block.properties.map fun prop => prop.name) : RoundTrips host block values := by
  obtain ⟨bytes, hencode, hlen, hplaces⟩ := place_of_encode h hgiven hones
  have hread {prop : DataBlockProperty} (hprop : prop ∈ block.properties) (map : Values) :
      ∃ value, values.lookup prop.name = some value ∧
        decodeProperty host bytes map prop = .ok (map.insert prop.name value) := by
    obtain ⟨value, hvalue, hholds⟩ := hplaces prop hprop
    have hone := hones prop hprop
    have hinside := h.inside_of_one hprop hone
    exact ⟨value, hvalue, decodeProperty_of_one hone (hlen ▸ hinside) hholds map⟩
  have hstep : ∀ (map : Values) (prop : DataBlockProperty), True → prop ∈ block.properties →
      ∃ map', decodeProperty host bytes map prop = .ok map' ∧ True := by
    intro map prop _ hprop
    obtain ⟨value, -, hdecode⟩ := hread hprop map
    exact ⟨_, hdecode, trivial⟩
  obtain ⟨final, hdecode, -⟩ := Outcome.foldlM_ok hstep trivial fun prop hprop => hprop
  obtain ⟨hentries, hrest⟩ := decode_lookup h.names hdecode
  refine ⟨bytes, (block, bytes, final), hencode, by rw [fromBytes, decode, hdecode]; rfl, ?_⟩
  intro name
  dsimp only
  by_cases hname : name ∈ block.properties.map fun prop => prop.name
  · obtain ⟨prop, hprop, rfl⟩ := List.mem_map.1 hname
    obtain ⟨before, after, hstep', -, hfinal⟩ := hentries prop hprop
    obtain ⟨value, hvalue, hread'⟩ := hread hprop before
    rw [hread'] at hstep'
    cases hstep'
    rw [hfinal, hvalue, AList.lookup_insert]
  · rw [hrest name hname]
    cases hvalue : values.lookup name with
    | none => rfl
    | some value => exact absurd (hnothingElse name (by rw [hvalue]; rfl)) hname

/-- **The exact condition** for the round trip of a clean block with a value for every property: all
properties count one, and there are no other values. -/
theorem roundTrips_iff (h : CleanBlock host block) (hgiven : Given block values) :
    RoundTrips host block values ↔
      (∀ prop ∈ block.properties, prop.count = 1) ∧
        ∀ name, (values.lookup name).isSome →
          name ∈ block.properties.map fun prop => prop.name := by
  constructor
  · intro hround
    exact ⟨fun prop hprop => hround.count_eq_one h hgiven hprop,
      fun name hsome => hround.mem_names h hsome⟩
  · rintro ⟨hones, hnothingElse⟩
    exact roundTrips_of_ones h hgiven hones hnothingElse

end

/-- A flag and a number. -/
def flagAndLevel : DataBlockDefinition where
  properties := [⟨"flag", .boolean, 0, 1, none⟩, ⟨"level", .integer, 2, 1, some 2⟩]
  totalSize := 4

/-- Two numbers. -/
def twoLevels : DataBlockDefinition where
  properties := [⟨"levels", .integer, 0, 2, none⟩]
  totalSize := 4

/-- Values for `twoLevels`. -/
def twoNumbers : Values := (∅ : Values).insert "levels" (.array [.ofInt 1, .ofInt 2])

theorem roundTrips_flagAndLevel :
    RoundTrips bareHost flagAndLevel
      (((∅ : Values).insert "flag" (.bool true)).insert "level" (.ofInt (-2))) := by
  have hclean : CleanBlock bareHost flagAndLevel := {
    names := by decide
    counts := by decide
    types := by decide
    sizes := by
      simp only [flagAndLevel, List.mem_cons, List.not_mem_nil, or_false, forall_eq_or_imp,
        forall_eq, true_or, true_and]
      exact Or.inr ⟨integerCodec, rfl, rfl⟩
    inside := by decide
    disjoint := by decide }
  have hlevel : ("integer", (⟨2, true⟩ : IntFormat)) ∈ integerTypes := by simp [integerTypes]
  refine (roundTrips_iff hclean ?_).2 ⟨by decide, ?_⟩
  · simp only [Given, flagAndLevel, List.mem_cons, List.not_mem_nil, or_false, forall_eq_or_imp,
      forall_eq]
    exact ⟨⟨_, rfl, .boolean true⟩, ⟨_, rfl, .integer hlevel (by decide)⟩⟩
  · intro name hsome
    by_contra hnot
    simp only [flagAndLevel, List.map_cons, List.map_nil, List.mem_cons, List.not_mem_nil, or_false,
      not_or] at hnot
    rw [AList.lookup_insert_ne hnot.2, AList.lookup_insert_ne hnot.1] at hsome
    cases hsome

/-- **An array comes back short**: two numbers are written, and one is read. -/
theorem twoLevels_not_roundTrips :
    CleanBlock bareHost twoLevels ∧ Given twoLevels twoNumbers ∧
      ¬ RoundTrips bareHost twoLevels twoNumbers := by
  refine ⟨⟨by decide, by decide, by decide, ?_, by decide, by decide⟩, ?_, ?_⟩
  · intro prop hprop
    rw [List.mem_singleton.1 hprop]
    exact Or.inl rfl
  · intro prop hprop
    rw [List.mem_singleton.1 hprop]
    have hinteger : ("integer", (⟨2, true⟩ : IntFormat)) ∈ integerTypes := by simp [integerTypes]
    refine ⟨_, rfl, _, rfl, rfl, ?_⟩
    simp only [List.mem_cons, List.not_mem_nil, or_false, forall_eq_or_imp, forall_eq]
    exact ⟨.integer hinteger (by decide), .integer hinteger (by decide)⟩
  rintro ⟨bytes, result, -, hfrom, hlookup⟩
  obtain ⟨final, hdecode, hresult⟩ := Outcome.bind_eq_ok.1 hfrom
  cases hresult
  obtain ⟨after, hstep, hfinal⟩ := Outcome.bind_eq_ok.1 hdecode
  cases hfinal
  have hle := decodeProperty_array (by decide) (by decide) hstep rfl (hlookup "levels")
  exact absurd hle (by simp)

end DataBlock

end FillingPilot
