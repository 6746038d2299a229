/-
**The size of a block that is calculated from its properties.**

The size is the sum of the sizes of the properties, whatever their offsets are.  It reaches to the
end of the last property as long as the properties leave no gap, and also when what they share makes
up for the gaps; otherwise the properties behind the calculated end are neither written nor read.

Main definitions:

* `FillingPilot.DataBlock.calculateSize` — the calculation;
* `FillingPilot.DataBlock.places` — the places of the properties, as intervals;
* `FillingPilot.DataBlock.CoversLayout` — the size reaches every property.

Main results:

* `FillingPilot.DataBlock.coversLayout_iff` — **the exact condition**: the gaps have no more bytes
  than are counted again where places overlap;
* `FillingPilot.DataBlock.CoversLayout.encodeElement` — then no value is skipped for lack of space.
-/

import FillingPilot.DataBlock
import FillingPilot.Intervals

set_option relaxedAutoImplicit false
set_option autoImplicit false

namespace FillingPilot

namespace DataBlock

open Json Rust

/-! ### The calculation -/

/-- `DataBlockDefinition::calculate_size`: the size becomes the sum of the sizes of the
properties. -/
def calculateSize (definition : DataBlockDefinition) : DataBlockDefinition :=
  { definition with
    totalSize := (definition.properties.map fun prop => prop.elementSize * prop.count).sum }

/-- The place of a property: its offset, and the number of its bytes. -/
def DataBlockProperty.place (prop : DataBlockProperty) : ℕ × ℕ :=
  (prop.offset, prop.elementSize * prop.count)

/-- The places of the properties. -/
def places (definition : DataBlockDefinition) : List (ℕ × ℕ) :=
  definition.properties.map DataBlockProperty.place

theorem calculateSize_totalSize (definition : DataBlockDefinition) :
    (calculateSize definition).totalSize = Intervals.total (places definition) := by
  rw [Intervals.total, places, List.map_map]
  rfl

/-! ### The layout and the size -/

/-- The size reaches every property: every byte of a property lies below it, and so does every
element that has bytes, as the encoder and the decoder ask. -/
structure CoversLayout (definition : DataBlockDefinition) : Prop where
  inside : ∀ prop ∈ definition.properties, ∀ i, prop.offset ≤ i →
    i < prop.offset + prop.elementSize * prop.count → i < definition.totalSize
  fits : ∀ prop ∈ definition.properties, 0 < prop.elementSize → ∀ k < prop.count,
    prop.offset + k * prop.elementSize + prop.elementSize ≤ definition.totalSize

theorem coversLayout_of_inside {definition : DataBlockDefinition}
    (h : ∀ prop ∈ definition.properties, ∀ i, prop.offset ≤ i →
      i < prop.offset + prop.elementSize * prop.count → i < definition.totalSize) :
    CoversLayout definition where
  inside := h
  fits prop hprop hpos k hk := by
    have hmul : (k + 1) * prop.elementSize ≤ prop.count * prop.elementSize :=
      Nat.mul_le_mul_right _ hk
    rw [Nat.succ_mul, Nat.mul_comm prop.count] at hmul
    -- the last byte of the element
    have hlast := h prop hprop (prop.offset + k * prop.elementSize + prop.elementSize - 1)
      (by omega) (by omega)
    omega

/-- **The exact condition** under which the calculated size reaches every property: the bytes before
the end of the last place that lie in no place are no more than those that are counted again because
they lie in several. -/
theorem coversLayout_iff (definition : DataBlockDefinition) :
    CoversLayout (calculateSize definition) ↔
      Intervals.uncovered (places definition) ≤ Intervals.excess (places definition) := by
  rw [← Intervals.forall_lt_total_iff, ← calculateSize_totalSize]
  constructor
  · intro h iv hiv i hi
    obtain ⟨prop, hprop, rfl⟩ := List.mem_map.1 hiv
    exact h.inside prop hprop i hi.1 hi.2
  · intro h
    refine coversLayout_of_inside fun prop hprop i hle hlt => ?_
    exact h prop.place (List.mem_map_of_mem hprop) i ⟨hle, hlt⟩

/-- No value is skipped for lack of space: the codec's bytes are put into their place. -/
theorem CoversLayout.encodeElement {definition : DataBlockDefinition} (h : CoversLayout definition)
    {prop : DataBlockProperty} (hprop : prop ∈ definition.properties)
    (hpos : 0 < prop.elementSize) {k : ℕ} (hk : k < prop.count) {codec : Codec} {value : Value}
    {encoded : List UInt8} (hencode : codec.encode value = .ok encoded)
    {result : List UInt8} (hlen : result.length = definition.totalSize) :
    encodeElement codec prop.elementSize (prop.offset + k * prop.elementSize) value result =
      copyFromSlice (prop.offset + k * prop.elementSize)
        (prop.offset + k * prop.elementSize + prop.elementSize) encoded result := by
  have hfits := h.fits prop hprop hpos k hk
  rw [← hlen] at hfits
  rw [DataBlock.encodeElement, if_pos hfits]
  simp only [hencode]

/-- The elements of a block that was read with the calculated size are all there. -/
theorem CoversLayout.length_slice {definition : DataBlockDefinition} (h : CoversLayout definition)
    {prop : DataBlockProperty} (hprop : prop ∈ definition.properties)
    (hpos : 0 < prop.elementSize) {k : ℕ} (hk : k < prop.count) {bytes : List UInt8}
    (hlen : bytes.length = definition.totalSize) :
    (bytes.slice (prop.offset + k * prop.elementSize) prop.elementSize).length =
      prop.elementSize := by
  refine List.length_slice ?_
  rw [hlen]
  exact h.fits prop hprop hpos k hk

/-- One byte, behind ten that belong to nothing. -/
def gapBlock : DataBlockDefinition where
  properties := [⟨"level", .byte, 10, 1, none⟩]
  totalSize := 0

/-- **A gap before the only property**: the size is 1, the value is not written, and a read of this
size finds no value. -/
theorem gapBlock_not_coversLayout :
    (calculateSize gapBlock).totalSize = 1 ∧ ¬ CoversLayout (calculateSize gapBlock) ∧
      encode bareHost (calculateSize gapBlock) (AList.singleton "level" (.ofInt 7)) = .ok [0] ∧
      decode bareHost (calculateSize gapBlock) [7] = .ok ∅ := by
  refine ⟨rfl, fun h => ?_, rfl, rfl⟩
  have hlast := h.inside ⟨"level", .byte, 10, 1, none⟩ (by decide) 10 (by decide) (by decide)
  exact absurd hlast (by decide)

end DataBlock

end FillingPilot
