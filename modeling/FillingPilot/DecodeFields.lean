/-
**The fields that decoding finds.**

The codec of a property is found under the exact name of its type, while the size of its slice
comes from a table that is asked in lower case.  For a registered type whose name has capital
letters the table gives its default, one byte, and the codec rejects what is cut to that.

Main definitions:

* `FillingPilot.fixedSizes` — the types whose codecs have a fixed size;
* `FillingPilot.casedTypes` — those of them with capital letters in their names;
* `FillingPilot.HasEntry` — the map has what the codec reads in the bytes it takes.

Main results:

* `FillingPilot.typeSize_fixedSizes` — **the size table against the registry**;
* `FillingPilot.fixed_codec_reads` — what a codec of fixed size rejects and reads;
* `FillingPilot.hasEntry_iff` — **the fields that are found**: all but those of these types, in
  every block that holds no unreadable time and has no end of a property beyond `usize`.
-/

import FillingPilot.BlockFaults

set_option relaxedAutoImplicit false
set_option autoImplicit false

namespace FillingPilot

open Json Rust

variable {host : Host}

/-! ### Codecs of fixed size -/

/-- The decoder rejects what is shorter than `n` bytes, and reads all bytes of this number. -/
def Reads (decode : List UInt8 → Outcome Value) (n : ℕ) : Prop :=
  (∀ bytes, bytes.length < n → ∃ message, decode bytes = .err message) ∧
    ∀ bytes, bytes.length = n → ∃ value, decode bytes = .ok value

/-- A decoder that reads the first bytes after it has counted them. -/
theorem guardedSlice_reads (n : ℕ) (short : String) (f : List UInt8 → Value) :
    Reads (fun bytes =>
      if bytes.length < n then .err short
      else do
        let head ← slice 0 n bytes
        return f head) n := by
  constructor
  · intro bytes h
    exact ⟨short, if_pos h⟩
  · intro bytes h
    refine ⟨f bytes, ?_⟩
    dsimp only
    rw [if_neg (by omega), slice_all h]
    rfl

/-- A decoder that reads the first byte of some. -/
theorem guardedIndex_reads (f : UInt8 → Value) :
    Reads (fun bytes =>
      if bytes = [] then .err "Empty"
      else do
        let b ← index bytes 0
        return f b) 1 := by
  constructor
  · intro bytes h
    exact ⟨"Empty", if_pos (List.length_eq_zero_iff.1 (by omega))⟩
  · intro bytes h
    obtain ⟨b, rfl⟩ := List.length_eq_one_iff.1 h
    exact ⟨f b, rfl⟩

theorem ipDecode_reads : Reads ipDecode 4 := by
  constructor
  · intro bytes h
    exact ⟨"Not enough", if_pos h⟩
  · intro bytes h
    obtain ⟨a, b, c, d, rfl⟩ := List.length_eq_four.1 h
    exact ⟨_, rfl⟩

/-- The types whose codecs have a fixed size, with the size. -/
def fixedSizes : List (String × ℕ) :=
  [("boolean", 1), ("byte", 1), ("char", 1), ("integer", 2), ("word", 2), ("dword", 4),
    ("dint", 4), ("lint", 8), ("real", 4), ("bigdecimal", 8), ("ip", 4), ("intAsBigDecimal", 2),
    ("longAsInt", 8), ("longAsDateTime", 8)]

/-- The registered types whose names have capital letters. -/
def casedTypes : List String := ["intAsBigDecimal", "longAsInt", "longAsDateTime"]

/-- **The size table against the registry**: for a type of `casedTypes` it has one byte, which is
less than the codec takes, and for every other what the codec takes. -/
theorem typeSize_fixedSizes : ∀ e ∈ fixedSizes,
    (e.1 ∈ casedTypes ∧ typeSize e.1 = 1 ∧ 1 < e.2) ∨
      (e.1 ∉ casedTypes ∧ typeSize e.1 = e.2 ∧ 0 < e.2) := by
  decide

section Fixed

variable {type : String} {codec : Codec} {n : ℕ}

theorem mem_fixedSizes (hcodec : getCodec host type = some codec)
    (hsize : codec.byteSize = some n) : (type, n) ∈ fixedSizes := by
  cases hcodec using getCodec_cases <;> cases hsize <;> simp [fixedSizes]

/-- **A codec of fixed size** rejects less than its size and reads it, except that the one of times
in milliseconds does not read all of them. -/
theorem fixed_codec_reads (hcodec : getCodec host type = some codec)
    (hsize : codec.byteSize = some n) :
    Reads codec.decode n ∨ (type = "longAsDateTime" ∧
      ∀ bytes, bytes.length < n → ∃ message, codec.decode bytes = .err message) := by
  cases hcodec using getCodec_cases with
  | boolean | char =>
      cases hsize
      exact Or.inl (guardedIndex_reads _)
  | byte | integer | word | dword | dint | lint | real | bigdecimal | intAsBigDecimal
  | longAsInt =>
      cases hsize
      exact Or.inl (guardedSlice_reads _ _ _)
  | ip =>
      cases hsize
      exact Or.inl ipDecode_reads
  | longAsDateTime =>
      cases hsize
      exact Or.inr ⟨rfl, fun bytes h => ⟨_, if_pos h⟩⟩
  | string | datetime | wstring => cases hsize

theorem decode_short (hcodec : getCodec host type = some codec) (hsize : codec.byteSize = some n)
    {bytes : List UInt8} (h : bytes.length < n) : ∃ message, codec.decode bytes = .err message := by
  rcases fixed_codec_reads hcodec hsize with hreads | ⟨-, hshort⟩
  · exact hreads.1 bytes h
  · exact hshort bytes h

end Fixed

/-! ### Entries -/

/-- The map of a block has, under the name of the property, what the codec reads in the `n` bytes at
its offset. -/
def HasEntry (host : Host) (data : List UInt8) (javaType : String) (cache : MetaCache)
    (p : DataBlockPropertyDefinition) (codec : Codec) (n : ℕ) : Prop :=
  ∃ map value, Machine.decodeAsMap .checked host data javaType cache = .ok map ∧
    codec.decode (data.slice p.offset n) = .ok value ∧ map.lookup p.name = some value

/-- The map has the entry of every property, or there is no map. -/
theorem hasEntry_iff_entryOf {definition : DataBlockDefinition} {javaType : String}
    {cache : MetaCache} (hcache : cache.lookup javaType = some definition) {data : List UInt8}
    {p : DataBlockPropertyDefinition} {codec : Codec} {n : ℕ} :
    HasEntry host data javaType cache p codec n ↔
      definition.Fits ∧ ∃ value, codec.decode (data.slice p.offset n) = .ok value ∧
        entryOf host data javaType cache p.name = .ok (some value) := by
  unfold HasEntry entryOf
  constructor
  · rintro ⟨map, value, hmap, hdecode, hlookup⟩
    obtain ⟨hfits, hmap⟩ := (Machine.decodeAsMap_eq_ok_iff hcache).1 hmap
    refine ⟨hfits, value, hdecode, ?_⟩
    rw [hmap, Outcome.ok_bind, hlookup]
    rfl
  · rintro ⟨hfits, value, hdecode, hentry⟩
    obtain ⟨map, hmap, hlookup⟩ := Outcome.bind_eq_ok.1 hentry
    exact ⟨map, value, (Machine.decodeAsMap_eq_ok_iff hcache).2 ⟨hfits, hmap⟩, hdecode,
      Outcome.ok.inj hlookup⟩

section Entry

variable {data : List UInt8} {p : DataBlockPropertyDefinition} {codec : Codec} {n : ℕ}

theorem entryRead_single (hcount : p.count = 1) (hstart : p.offset < data.length) :
    entryRead host data p =
      readElement host p.propertyType (data.slice p.offset p.elementSize) := by
  unfold entryRead
  rw [if_neg (by omega), if_pos hcount, slice, if_pos (by omega), Outcome.ok_bind, hcount,
    Nat.mul_one, slice_min]

theorem entryRead_short (hcount : p.count = 1) (hstart : p.offset < data.length)
    (hcodec : getCodec host p.propertyType = some codec) (hn : codec.byteSize = some n)
    (hsize : p.elementSize = 1) (hlt : 1 < n) : entryRead host data p = .ok none := by
  have hlen : (data.slice p.offset 1).length = 1 := List.length_slice (by omega)
  obtain ⟨message, hdecode⟩ := decode_short hcodec hn (hlen.trans_lt hlt)
  rw [entryRead_single hcount hstart, hsize]
  simp only [readElement, hcodec, hdecode]

end Entry

/-- **The fields that are found**: a single property without an override, whose codec has a fixed
size and whose bytes lie in the block, has its entry exactly when its type has no capital letters,
no end of a property leaves `usize`, and no property of the block holds an unreadable time. -/
theorem hasEntry_iff {definition : DataBlockDefinition} {javaType : String} {cache : MetaCache}
    (hcache : cache.lookup javaType = some definition)
    (hnames : (definition.dataBlockPropertyDefinitionList.map fun p => p.name).Nodup)
    {p : DataBlockPropertyDefinition} (hp : p ∈ definition.dataBlockPropertyDefinitionList)
    (hcount : p.count = 1) (hoverride : p.byteSize = none) {codec : Codec}
    (hcodec : getCodec host p.propertyType = some codec) {n : ℕ} (hn : codec.byteSize = some n)
    {data : List UInt8} (hinside : p.offset + n ≤ data.length) :
    HasEntry host data javaType cache p codec n ↔
      p.propertyType ∉ casedTypes ∧ definition.Fits ∧ ¬ HasUnreadableTime definition data := by
  have helement : p.elementSize = typeSize p.propertyType := by
    rw [DataBlockPropertyDefinition.elementSize, hoverride, Option.getD_none]
  rw [hasEntry_iff_entryOf hcache]
  rcases entryOf_eq hcache hnames hp data with ⟨hbad, hpanic⟩ | ⟨hgood, entry, hentry, hread⟩
  · -- no property has an entry
    refine iff_of_false ?_ fun h => h.2.2 hbad
    rintro ⟨-, value, -, hvalue⟩
    rw [hpanic] at hvalue
    cases hvalue
  · rcases typeSize_fixedSizes _ (mem_fixedSizes hcodec hn) with ⟨hcased, hsize, hlt⟩ |
      ⟨hplain, hsize, hpos⟩
    · refine iff_of_false ?_ fun h => h.1 hcased
      rintro ⟨-, value, -, hvalue⟩
      dsimp only at hlt
      rw [entryRead_short hcount (by omega) hcodec hn (helement.trans hsize) hlt] at hread
      cases hread
      rw [hentry] at hvalue
      cases hvalue
    · dsimp only at hsize hpos
      have hreads : Reads codec.decode n := by
        refine (fixed_codec_reads hcodec hn).resolve_right fun htime => hplain ?_
        change p.propertyType ∈ casedTypes
        rw [htime.1]
        decide
      obtain ⟨value, hvalue⟩ := hreads.2 (data.slice p.offset n) (List.length_slice hinside)
      rw [entryRead_single hcount (by omega), helement, hsize,
        readElement_eq hcodec hvalue] at hread
      cases hread
      exact ⟨fun h => ⟨hplain, h.1, hgood⟩, fun h => ⟨h.2.1, value, hvalue, hentry⟩⟩

/-- A counter, and an amount behind it. -/
def amountBlock : DataBlockDefinition where
  javaType := "Amount"
  blockSize := 4
  dataBlockPropertyDefinitionList :=
    [⟨"counter", "word", 0, 1, none⟩, ⟨"amount", "intAsBigDecimal", 2, 1, none⟩]

/-- The counter is found. -/
theorem hasEntry_iff_counter :
    HasEntry bareHost [0, 5, 0, 7] "Amount" (AList.singleton "Amount" amountBlock)
      ⟨"counter", "word", 0, 1, none⟩ wordCodec 2 := by
  have hcache : AList.lookup "Amount" (AList.singleton "Amount" amountBlock : MetaCache) =
      some amountBlock := rfl
  have hfits : amountBlock.Fits := by
    unfold DataBlockDefinition.Fits DataBlockPropertyDefinition.Fits
    decide
  exact (hasEntry_iff hcache (by decide) (by decide) rfl rfl rfl rfl (by decide)).2
    ⟨by decide, hfits, by decide⟩

/-- **A field that is lost**: the amount is there, the codec reads 7, and the map has nothing. -/
theorem amount_lost :
    (amountBlock.dataBlockPropertyDefinitionList.map fun p => p.name).Nodup ∧
      getCodec bareHost "intAsBigDecimal" = some integerAsBigDecimalCodec ∧
      integerAsBigDecimalCodec.byteSize = some 2 ∧
      integerAsBigDecimalCodec.decode (List.slice 2 2 [0, 5, 0, 7]) = .ok (.string "7") ∧
      entryOf bareHost [0, 5, 0, 7] "Amount" (AList.singleton "Amount" amountBlock) "amount" =
        .ok none ∧
      ¬ HasEntry bareHost [0, 5, 0, 7] "Amount" (AList.singleton "Amount" amountBlock)
        ⟨"amount", "intAsBigDecimal", 2, 1, none⟩ integerAsBigDecimalCodec 2 := by
  have hentry : entryOf bareHost [0, 5, 0, 7] "Amount" (AList.singleton "Amount" amountBlock)
      "amount" = .ok none := rfl
  have hdecode : integerAsBigDecimalCodec.decode (List.slice 2 2 [0, 5, 0, 7]) =
      .ok (.string "7") := by
    have hbytes : List.slice 2 2 [0, 5, 0, 7] = BigEndian.write 2 7 := by decide
    have hholds : IntFormat.Holds ⟨2, true⟩ 7 := by decide
    have htext : "7" = toString (7 : ℤ) := rfl
    rw [hbytes, htext]
    exact integerDecode_write hholds "Not enough" fun n => .string (toString n)
  refine ⟨by decide, rfl, rfl, hdecode, hentry, fun h => ?_⟩
  obtain ⟨-, value, -, hvalue⟩ := (hasEntry_iff_entryOf rfl).1 h
  rw [hentry] at hvalue
  cases hvalue

end FillingPilot
