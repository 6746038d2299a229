/-
When the encoding of a block panics.

The bounds of a write come from three lengths: the size of the type (or its override), the size of
the block, and the number of bytes the codec gave.  The first two decide how many bytes are taken,
and the third is never compared with that number.

Main definitions:

* `FillingPilot.ElementFits` — what a type takes for a value reaches as far as its place in the
  block;
* `FillingPilot.PropertyFits` — the same for every element the object gives a property.

Main results:

* `FillingPilot.encode_ne_panic_iff` — **the exact condition** for `encode` to return;
* `FillingPilot.encode_string_panics` — a string shorter than its place, and a panic.
-/

import FillingPilot.Deploy

set_option relaxedAutoImplicit false
set_option autoImplicit false

namespace FillingPilot

open Json Rust

variable {host : Host}

/-! ### One element -/

/-- The type has a codec, and the codec accepts the value. -/
def Accepts (host : Host) (type : String) (value : Value) : Prop :=
  ∃ codec encoded, getCodec host type = some codec ∧ codec.encode value = .ok encoded

/-- If the value has a codec that accepts it, its place begins in the block and is there no longer
than what the type takes for the value. -/
def ElementFits (host : Host) (type : String) (size start blockSize : ℕ) (value : Value) : Prop :=
  Accepts host type value →
    start ≤ blockSize ∧ min (start + size) blockSize - start ≤ encodedLength host type value

theorem writeElement_ok {type : String} {size start : ℕ} {value : Value} {bytes : List UInt8}
    (h : ElementFits host type size start bytes.length value) :
    ∃ bytes', writeElement host type size start value bytes = .ok bytes' ∧
      bytes'.length = bytes.length := by
  by_cases haccepts : Accepts host type value
  · have hfits := h haccepts
    obtain ⟨codec, encoded, hcodec, hencode⟩ := haccepts
    rw [← length_of_encode hcodec hencode] at hfits
    refine ⟨_, by rw [writeElement_eq hcodec hencode, if_pos hfits], ?_⟩
    refine List.length_splice ?_
    rw [List.length_take]
    omega
  · have hskip : ∀ codec encoded, getCodec host type = some codec →
        codec.encode value ≠ .ok encoded := by
      intro codec encoded hcodec hencode
      exact haccepts ⟨codec, encoded, hcodec, hencode⟩
    exact ⟨bytes, writeElement_skip hskip size start bytes, rfl⟩

theorem writeElement_panic {type : String} {size start : ℕ} {value : Value} {bytes : List UInt8}
    (h : ¬ ElementFits host type size start bytes.length value) :
    writeElement host type size start value bytes = .panic := by
  rw [ElementFits, Classical.not_imp] at h
  obtain ⟨⟨codec, encoded, hcodec, hencode⟩, hbad⟩ := h
  rw [← length_of_encode hcodec hencode] at hbad
  rw [writeElement_eq hcodec hencode, if_neg hbad]

/-! ### One property -/

/-- Every element the object gives a property fits: the value itself, or the first `count` elements
of an array. -/
def PropertyFits (host : Host) (contentMap : List (String × Value)) (blockSize : ℕ)
    (p : DataBlockPropertyDefinition) : Prop :=
  ∀ value, contentMap.lookup p.name = some value →
    if p.count = 1 then ElementFits host p.propertyType p.elementSize p.offset blockSize value
    else ∀ arr, value = .array arr → ∀ item ∈ (arr.take p.count).zipIdx,
      ElementFits host p.propertyType p.elementSize (p.offset + item.2 * p.elementSize) blockSize
        item.1

/-- **One property**: it is written when it fits, and panics otherwise. -/
theorem encodeProperty_total (contentMap : List (String × Value)) (bytes : List UInt8)
    (p : DataBlockPropertyDefinition) :
    (PropertyFits host contentMap bytes.length p →
        ∃ bytes', encodeProperty host contentMap bytes p = .ok bytes' ∧
          bytes'.length = bytes.length) ∧
      (¬ PropertyFits host contentMap bytes.length p →
        encodeProperty host contentMap bytes p = .panic) := by
  unfold PropertyFits encodeProperty
  cases hvalue : contentMap.lookup p.name with
  | none => simp
  | some value =>
      simp only [Option.some.injEq, forall_eq']
      by_cases hcount : p.count = 1
      · simp only [if_pos hcount]
        exact ⟨writeElement_ok, writeElement_panic⟩
      · simp only [if_neg hcount]
        cases value with
        | array arr =>
            simp only [Value.array.injEq, forall_eq', writeElements]
            -- every element's write keeps the length the condition speaks about
            have hok : ∀ (s : List UInt8) (item : Value × ℕ), s.length = bytes.length →
                ElementFits host p.propertyType p.elementSize (p.offset + item.2 * p.elementSize)
                  bytes.length item.1 →
                ∃ t, writeElement host p.propertyType p.elementSize
                  (p.offset + item.2 * p.elementSize) item.1 s = .ok t ∧
                    t.length = bytes.length := by
              intro s item hs hfits
              rw [← hs] at hfits
              obtain ⟨t, ht, hlen⟩ := writeElement_ok hfits
              exact ⟨t, ht, hlen.trans hs⟩
            refine ⟨fun hfits => Outcome.foldlM_ok hok rfl hfits, fun hfits => ?_⟩
            refine Outcome.foldlM_panic hok (fun s item hs hbad => ?_) rfl hfits
            rw [← hs] at hbad
            exact writeElement_panic hbad
        | _ => simp

/-! ### Whole blocks -/

theorem encodeProperties_ne_panic_iff (contentMap : List (String × Value))
    (properties : List DataBlockPropertyDefinition) (bytes : List UInt8) :
    properties.foldlM (encodeProperty host contentMap) bytes ≠ .panic ↔
      ∀ p ∈ properties, PropertyFits host contentMap bytes.length p := by
  have hok : ∀ (s : List UInt8) (p : DataBlockPropertyDefinition), s.length = bytes.length →
      PropertyFits host contentMap bytes.length p →
      ∃ t, encodeProperty host contentMap s p = .ok t ∧ t.length = bytes.length := by
    intro s p hs hfits
    rw [← hs] at hfits
    obtain ⟨t, ht, hlen⟩ := (encodeProperty_total contentMap s p).1 hfits
    exact ⟨t, ht, hlen.trans hs⟩
  constructor
  · intro hne
    by_contra hbad
    refine hne (Outcome.foldlM_panic hok (fun s p hs hbad => ?_) rfl hbad)
    rw [← hs] at hbad
    exact (encodeProperty_total contentMap s p).2 hbad
  · intro hfits
    obtain ⟨t, ht, -⟩ := Outcome.foldlM_ok hok rfl hfits
    rw [ht]
    exact fun h => by cases h

/-- **The exact condition**: `encode` returns, with bytes or an error, exactly when every element
that the object gives a property of the definition fits. -/
theorem encode_ne_panic_iff (host : Host) (content : Value) (javaType : String)
    (cache : MetaCache) :
    encode host content javaType cache ≠ .panic ↔
      ∀ contentMap definition, content = .object contentMap →
        cache.lookup javaType = some definition →
        ∀ p ∈ definition.dataBlockPropertyDefinitionList,
          PropertyFits host contentMap definition.blockSize p := by
  unfold encode
  cases content with
  | object contentMap =>
      cases hdef : cache.lookup javaType with
      | none => simp
      | some definition =>
          have hiff := @encodeProperties_ne_panic_iff host contentMap
            definition.dataBlockPropertyDefinitionList (List.replicate definition.blockSize 0)
          rw [List.length_replicate] at hiff
          constructor
          · rintro hne _ _ ⟨⟩ ⟨⟩
            exact hiff.1 hne
          · intro hfits
            exact hiff.2 (hfits contentMap definition rfl rfl)
  | _ => simp

/-- A block of eight bytes with one property, a string. -/
def stringBlock : DataBlockDefinition where
  javaType := "Label"
  blockSize := 8
  dataBlockPropertyDefinitionList := [⟨"text", "string", 0, 1, none⟩]

/-- **A short string panics**: its place takes up the whole block, and the text `a` gives three
bytes. -/
theorem encode_string_panics :
    encode bareHost (.object [("text", .string "a")]) "Label"
      (AList.singleton "Label" stringBlock) = .panic := by
  rfl

end FillingPilot
