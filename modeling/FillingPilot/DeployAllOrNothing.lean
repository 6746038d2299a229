/-
What is left out of a deployment.

The encoder passes over a value whose type has no codec, that its codec rejects, or that is no array
where one is expected, and cuts the bytes of an element that are more than its place has.  It has no
error for any of these: for a JSON object and a definition in the cache it gives a block or panics,
also when the end of an element is no `usize`.

Main definitions:

* `FillingPilot.Encodable` — the whole value of a property can be encoded;
* `FillingPilot.Delivered` — a block has all values of an object, whole;
* `FillingPilot.AllOrNothing` — the encoder gives such a block, or an error.

Main results:

* `FillingPilot.propertyFits_iff` — the elements of a property, by its list;
* `FillingPilot.encode_cases` — a block or a panic, when no end leaves `usize`;
* `FillingPilot.allOrNothing_iff` — **the exact condition** for all or nothing.
-/

import FillingPilot.BlockWrites
import FillingPilot.DeployPanic
import FillingPilot.EncodeFaults

set_option relaxedAutoImplicit false
set_option autoImplicit false

namespace FillingPilot

open Json Rust

variable {host : Host}

/-! ### All or nothing -/

/-- The whole value of a property can be encoded: its type has a codec that accepts it, or accepts
all elements of an array of no more than the property counts. -/
def Encodable (host : Host) (p : DataBlockPropertyDefinition) (value : Value) : Prop :=
  if p.count = 1 then Accepts host p.propertyType value
  else ∃ arr, value = .array arr ∧ arr.length ≤ p.count ∧
    ∀ v ∈ arr, Accepts host p.propertyType v

/-- Every value that is supplied for a property can be encoded. -/
def AllEncodable (host : Host) (definition : DataBlockDefinition)
    (contentMap : List (String × Value)) : Prop :=
  ∀ p ∈ definition.dataBlockPropertyDefinitionList, ∀ value,
    contentMap.lookup p.name = some value → Encodable host p value

/-- The block has all values of the object: every value was encoded, the bytes of every element lie
whole in its place, and the block is what the writes of them make of zeros. -/
structure Delivered (host : Host) (definition : DataBlockDefinition)
    (contentMap : List (String × Value)) (bytes : List UInt8) : Prop where
  encoded : AllEncodable host definition contentMap
  whole : ∀ p ∈ definition.dataBlockPropertyDefinitionList,
    ∀ w ∈ propertyWrites host (contentMap.lookup p.name) p,
      w.2.length ≤ p.elementSize ∧ w.1 + w.2.length ≤ definition.blockSize
  written : bytes = List.spliceAll (blockWrites host (fun name => contentMap.lookup name)
    definition.dataBlockPropertyDefinitionList) (List.replicate definition.blockSize 0)

/-- A block is only given with all values, and a value that cannot be encoded is an error: in a
build with overflow checks. -/
structure AllOrNothing (host : Host) (definition : DataBlockDefinition) (javaType : String)
    (cache : MetaCache) (contentMap : List (String × Value)) : Prop where
  all : ∀ bytes, Machine.encode .checked host (.object contentMap) javaType cache = .ok bytes →
    Delivered host definition contentMap bytes
  nothing : ¬ AllEncodable host definition contentMap →
    ∃ message, Machine.encode .checked host (.object contentMap) javaType cache = .err message

/-- An element that is encoded takes no more than its place has in a block of `n` bytes. -/
def ElementWhole (host : Host) (p : DataBlockPropertyDefinition) (n : ℕ) (item : Value × ℕ) :
    Prop :=
  Accepts host p.propertyType item.1 →
    encodedLength host p.propertyType item.1 ≤ p.elementSize ∧
      p.offset + item.2 * p.elementSize + encodedLength host p.propertyType item.1 ≤ n

/-! ### Elements -/

theorem propertyFits_iff {contentMap : List (String × Value)} {n : ℕ}
    {p : DataBlockPropertyDefinition} :
    PropertyFits host contentMap n p ↔
      ∀ item ∈ propertyItems p.count (contentMap.lookup p.name),
        ElementFits host p.propertyType p.elementSize (p.offset + item.2 * p.elementSize) n
          item.1 := by
  unfold PropertyFits
  cases hvalue : contentMap.lookup p.name with
  | none => simp [propertyItems]
  | some value =>
      simp only [Option.some.injEq, forall_eq']
      by_cases hcount : p.count = 1
      · rw [if_pos hcount, propertyItems_one hcount]
        simp
      · rw [if_neg hcount]
        cases value with
        | array arr =>
            rw [propertyItems_array hcount]
            simp
        | _ => simp [propertyItems, hcount]

theorem accepts_of_elementWrite {p : DataBlockPropertyDefinition} {item : Value × ℕ}
    {w : ℕ × List UInt8} (h : elementWrite host p item = some w) :
    Accepts host p.propertyType item.1 ∧ w.1 = p.offset + item.2 * p.elementSize ∧
      w.2.length = encodedLength host p.propertyType item.1 := by
  unfold elementWrite at h
  split at h
  · cases h
  · rename_i codec hcodec
    split at h
    · cases h
    · rename_i encoded hencode
      cases h
      exact ⟨⟨codec, encoded, hcodec, hencode⟩, rfl, length_of_encode hcodec hencode⟩

theorem fillsPlace_of_whole {p : DataBlockPropertyDefinition} {n : ℕ} {item : Value × ℕ}
    (hfits : ElementFits host p.propertyType p.elementSize (p.offset + item.2 * p.elementSize) n
      item.1) (hwhole : ElementWhole host p n item) : FillsPlace host p n item := by
  intro w hw
  obtain ⟨haccepts, hstart, hlen⟩ := accepts_of_elementWrite hw
  obtain ⟨hbegin, hreach⟩ := hfits haccepts
  obtain ⟨hsize, hinside⟩ := hwhole haccepts
  rw [hlen, hstart]
  exact ⟨hbegin, by omega⟩

theorem whole_iff {contentMap : List (String × Value)} {n : ℕ} {p : DataBlockPropertyDefinition} :
    (∀ item ∈ propertyItems p.count (contentMap.lookup p.name), ElementWhole host p n item) ↔
      ∀ w ∈ propertyWrites host (contentMap.lookup p.name) p,
        w.2.length ≤ p.elementSize ∧ w.1 + w.2.length ≤ n := by
  constructor
  · intro h w hw
    obtain ⟨item, hitem, hw⟩ := List.mem_flatMap.1 hw
    obtain ⟨haccepts, hstart, hlen⟩ := accepts_of_elementWrite (Option.mem_toList.1 hw)
    rw [hlen, hstart]
    exact h item hitem haccepts
  · rintro h item hitem ⟨codec, encoded, hcodec, hencode⟩
    have hwrite := elementWrite_of_encode item hcodec hencode
    have hmem : (p.offset + item.2 * p.elementSize, encoded) ∈
        propertyWrites host (contentMap.lookup p.name) p :=
      List.mem_flatMap.2 ⟨item, hitem, Option.mem_toList.2 hwrite⟩
    rw [← length_of_encode hcodec hencode]
    exact h _ hmem

/-! ### Whole blocks -/

section

variable {definition : DataBlockDefinition} {javaType : String} {cache : MetaCache}

/-- Encoding an object by a definition of the cache panics when some element does not fit, and gives
a block otherwise. -/
theorem encode_cases (host : Host) (hcache : cache.lookup javaType = some definition)
    (contentMap : List (String × Value)) :
    (¬ (∀ p ∈ definition.dataBlockPropertyDefinitionList,
        PropertyFits host contentMap definition.blockSize p) ∧
      encode host (.object contentMap) javaType cache = .panic) ∨
    ((∀ p ∈ definition.dataBlockPropertyDefinitionList,
        PropertyFits host contentMap definition.blockSize p) ∧
      ∃ bytes, encode host (.object contentMap) javaType cache = .ok bytes) := by
  have hlen : (List.replicate definition.blockSize (0 : UInt8)).length = definition.blockSize :=
    List.length_replicate
  have hok : ∀ (s : List UInt8) (p : DataBlockPropertyDefinition),
      s.length = definition.blockSize → PropertyFits host contentMap definition.blockSize p →
      ∃ t, encodeProperty host contentMap s p = .ok t ∧ t.length = definition.blockSize := by
    intro s p hs hfits
    rw [← hs] at hfits ⊢
    exact (encodeProperty_total contentMap s p).1 hfits
  simp only [encode, hcache]
  by_cases hfits : ∀ p ∈ definition.dataBlockPropertyDefinitionList,
      PropertyFits host contentMap definition.blockSize p
  · obtain ⟨bytes, hbytes, -⟩ := Outcome.foldlM_ok hok hlen hfits
    exact Or.inr ⟨hfits, bytes, hbytes⟩
  · refine Or.inl ⟨hfits, Outcome.foldlM_panic hok (fun s p hs hbad => ?_) hlen hfits⟩
    rw [← hs] at hbad
    exact (encodeProperty_total contentMap s p).2 hbad

/-- **The exact condition** for all or nothing: every value that is supplied for a property can be
encoded, and unless some element makes the encoder panic, by its end or by its bytes, none takes more
than its place has. -/
theorem allOrNothing_iff (hcache : cache.lookup javaType = some definition)
    (contentMap : List (String × Value)) :
    AllOrNothing host definition javaType cache contentMap ↔
      AllEncodable host definition contentMap ∧
        ((∀ p ∈ definition.dataBlockPropertyDefinitionList,
            EndsFit contentMap p ∧ PropertyFits host contentMap definition.blockSize p) →
          ∀ p ∈ definition.dataBlockPropertyDefinitionList,
            ∀ item ∈ propertyItems p.count (contentMap.lookup p.name),
              ElementWhole host p definition.blockSize item) := by
  constructor
  · intro h
    refine ⟨?_, ?_⟩
    · by_contra hnot
      obtain ⟨message, hmessage⟩ := h.nothing hnot
      exact Machine.noErr_encode hcache contentMap message hmessage
    · intro hfits p hp
      rcases encode_cases host hcache contentMap with ⟨hbad, -⟩ | ⟨-, bytes, hbytes⟩
      · exact absurd (fun p hp => (hfits p hp).2) hbad
      · have hmachine := (Machine.encode_eq_ok_iff hcache).2 ⟨fun p hp => (hfits p hp).1, hbytes⟩
        exact whole_iff.2 ((h.all bytes hmachine).whole p hp)
  · rintro ⟨hencodable, hwhole⟩
    refine ⟨?_, fun hnot => absurd hencodable hnot⟩
    intro bytes hmachine
    obtain ⟨hends, hbytes⟩ := (Machine.encode_eq_ok_iff hcache).1 hmachine
    rcases encode_cases host hcache contentMap with ⟨-, hpanic⟩ | ⟨hfits, -⟩
    · rw [hpanic] at hbytes
      cases hbytes
    · have hwhole' := hwhole fun p hp => ⟨hends p hp, hfits p hp⟩
      refine ⟨hencodable, fun p hp => whole_iff.1 (hwhole' p hp), ?_⟩
      -- every element fills its place, so that none of its bytes are cut off
      have hfills : ∀ p ∈ definition.dataBlockPropertyDefinitionList,
          ∀ item ∈ propertyItems p.count (contentMap.lookup p.name),
            FillsPlace host p definition.blockSize item := by
        intro p hp item hitem
        exact fillsPlace_of_whole (propertyFits_iff.1 (hfits p hp) item hitem)
          (hwhole' p hp item hitem)
      rw [encode_eq_spliceAll hcache hfills] at hbytes
      exact (Outcome.ok.inj hbytes).symm

end

/-- A block with one number, of a registered type. -/
def integerBlock : DataBlockDefinition where
  javaType := "Level"
  blockSize := 2
  dataBlockPropertyDefinitionList := [⟨"level", "integer", 0, 1, none⟩]

/-- The same with the documented type name `int`, which is not registered. -/
def intBlock : DataBlockDefinition where
  javaType := "Level"
  blockSize := 2
  dataBlockPropertyDefinitionList := [⟨"level", "int", 0, 1, none⟩]

theorem allOrNothing_integer :
    AllOrNothing bareHost integerBlock "Level" (AList.singleton "Level" integerBlock)
      [("level", .ofInt 5)] := by
  refine (allOrNothing_iff rfl _).2 ⟨?_, fun _ => ?_⟩
  · intro p hp value hvalue
    obtain rfl := List.mem_singleton.1 hp
    obtain rfl : Value.ofInt 5 = value := Option.some.inj hvalue
    exact ⟨integerCodec, [0, 5], rfl, rfl⟩
  · intro p hp item hitem _
    obtain rfl := List.mem_singleton.1 hp
    obtain rfl : item = (Value.ofInt 5, 0) := List.mem_singleton.1 hitem
    exact ⟨by decide, by decide⟩

/-- **A number is deployed as 0**: the type has no codec, and the block is all zeros. -/
theorem intBlock_not_allOrNothing :
    ¬ AllOrNothing bareHost intBlock "Level" (AList.singleton "Level" intBlock)
      [("level", .ofInt 5)] := by
  intro h
  have hencode : Machine.encode .checked bareHost (.object [("level", .ofInt 5)]) "Level"
      (AList.singleton "Level" intBlock) = .ok [0, 0] := rfl
  have hencodable := (h.all _ hencode).encoded _ List.mem_cons_self _ rfl
  obtain ⟨codec, encoded, hcodec, -⟩ : Accepts bareHost "int" (.ofInt 5) := hencodable
  cases hcodec

end FillingPilot
