/-
Data blocks in memory: the second encoder and decoder of blocks.

A block has a definition with typed properties, as the deployments have, but the types are an
enumeration, elements that reach over the end of the block are skipped, and decoding reads at most
one element of a property.

Main definitions:

* `FillingPilot.DataBlock.PropertyType` — the types, with their registry names and sizes;
* `FillingPilot.DataBlock.DataBlockDefinition` — definitions;
* `FillingPilot.DataBlock.encode` — the bytes of values;
* `FillingPilot.DataBlock.decode`, `FillingPilot.DataBlock.fromBytes` — the values in bytes.

Main results:

* `FillingPilot.DataBlock.encodeElement_eq` — what one element's write comes to;
* `FillingPilot.DataBlock.length_decodeItems_le` — **an array is decoded to its first element** at
  most.
-/

import FillingPilot.Codec
import Mathlib.Data.List.AList

set_option relaxedAutoImplicit false
set_option autoImplicit false

namespace FillingPilot

namespace DataBlock

open Json Rust

/-! ### Types -/

/-- The type of a property. -/
inductive PropertyType
  | boolean | byte | integer | word | dword | dint | lint | real | string | wstring | dateTime
  | bigDecimal | ipAddress | long | longAsInt | longAsDateTime | integerAsBigDecimal
  deriving DecidableEq

/-- The name under which the registry is asked; the last four are not registered. -/
def PropertyType.asStr : PropertyType → String
  | .boolean => "boolean"
  | .byte => "byte"
  | .integer => "integer"
  | .word => "word"
  | .dword => "dword"
  | .dint => "dint"
  | .lint => "lint"
  | .real => "real"
  | .string => "string"
  | .wstring => "wstring"
  | .dateTime => "datetime"
  | .bigDecimal => "bigdecimal"
  | .ipAddress => "ip"
  | .long => "long"
  | .longAsInt => "longasint"
  | .longAsDateTime => "longasdatetime"
  | .integerAsBigDecimal => "integerasbigdecimal"

/-- `DataBlockDefinition::type_size`. -/
def typeSize : PropertyType → ℕ
  | .boolean => 1
  | .byte => 1
  | .integer => 2
  | .word => 2
  | .dword => 4
  | .dint => 4
  | .lint => 8
  | .real => 4
  | .string => 256
  | .wstring => 512
  | .dateTime => 8
  | .bigDecimal => 8
  | .ipAddress => 4
  | .long => 8
  | .longAsInt => 4
  | .longAsDateTime => 8
  | .integerAsBigDecimal => 8

/-! ### Definitions of blocks -/

/-- A property of a block. -/
structure DataBlockProperty where
  name : String
  propertyType : PropertyType
  offset : ℕ
  count : ℕ
  /-- Overrides the size of the type. -/
  byteSize : Option ℕ
  deriving DecidableEq

/-- The definition of a block. -/
structure DataBlockDefinition where
  properties : List DataBlockProperty
  totalSize : ℕ
  deriving DecidableEq

/-- The values of a block, by name. -/
abbrev Values := AList fun _ : String => Value

/-- The size of one element of a property. -/
def DataBlockProperty.elementSize (prop : DataBlockProperty) : ℕ :=
  prop.byteSize.getD (typeSize prop.propertyType)

section Blocks

variable (host : Host)

/-! ### Encoding -/

/-- One value written at its place; it is skipped when the place does not lie in the block or the
codec rejects the value. -/
def encodeElement (codec : Codec) (size start : ℕ) (value : Value) (result : List UInt8) :
    Outcome (List UInt8) :=
  if start + size ≤ result.length then
    match codec.encode value with
    | .ok encoded => copyFromSlice start (start + size) encoded result
    | .error _ => .ok result
  else .ok result

/-- One property of the values. -/
def encodeProperty (values : Values) (result : List UInt8) (prop : DataBlockProperty) :
    Outcome (List UInt8) :=
  match values.lookup prop.name with
  | none => .ok result
  | some value =>
      match getCodec host prop.propertyType.asStr with
      | none => .ok result
      | some codec =>
          if prop.count = 1 then encodeElement codec prop.elementSize prop.offset value result
          else
            match value with
            | .array arr =>
                (arr.take prop.count).zipIdx.foldlM (fun result item =>
                  encodeElement codec prop.elementSize (prop.offset + item.2 * prop.elementSize)
                    item.1 result) result
            | _ => .ok result

/-- `DataBlock::encode`. -/
def encode (definition : DataBlockDefinition) (values : Values) : Outcome (List UInt8) :=
  definition.properties.foldlM (encodeProperty host values)
    (List.replicate definition.totalSize 0)

/-! ### Decoding -/

/-- The value in some bytes; nothing when the codec rejects them. -/
def decodeValue (codec : Codec) (bytes : List UInt8) : Outcome (Option Value) :=
  match codec.decode bytes with
  | .ok value => .ok (some value)
  | .err _ => .ok none
  | .panic => .panic

/-- The values of the elements from number `i` on, `n` of them; those that reach over the end are
skipped. -/
def decodeItems (codec : Codec) (size : ℕ) (propBytes : List UInt8) :
    ℕ → ℕ → Outcome (List Value)
  | 0, _ => .ok []
  | n + 1, i =>
      if i * size + size ≤ propBytes.length then do
        let item ← slice (i * size) (i * size + size) propBytes
        let value ← decodeValue codec item
        let arr ← decodeItems codec size propBytes n (i + 1)
        return value.toList ++ arr
      else decodeItems codec size propBytes n (i + 1)

/-- One property of the block.  The bytes that are read are those of one element, also for an
array. -/
def decodeProperty (bytes : List UInt8) (values : Values) (prop : DataBlockProperty) :
    Outcome Values :=
  match getCodec host prop.propertyType.asStr with
  | none => .ok values
  | some codec =>
      let start := prop.offset
      let stop := start + prop.elementSize
      if stop ≤ bytes.length then do
        let propBytes ← slice start stop bytes
        if prop.count = 1 then do
          match ← decodeValue codec propBytes with
          | some value => return values.insert prop.name value
          | none => return values
        else do
          let arr ← decodeItems codec prop.elementSize propBytes prop.count 0
          if arr.isEmpty then return values else return values.insert prop.name (.array arr)
      else .ok values

/-- `DataBlock::decode`: the values that `bytes` has by the definition. -/
def decode (definition : DataBlockDefinition) (bytes : List UInt8) : Outcome Values :=
  definition.properties.foldlM (decodeProperty host bytes) ∅

/-- `DataBlock::from_bytes`: the definition, the bytes, and what they decode to. -/
def fromBytes (definition : DataBlockDefinition) (bytes : List UInt8) :
    Outcome (DataBlockDefinition × List UInt8 × Values) := do
  let values ← decode host definition bytes
  return (definition, bytes, values)

end Blocks

/-! ### One element -/

theorem encodeElement_eq {codec : Codec} {size start : ℕ} {result : List UInt8}
    (hinside : start + size ≤ result.length) {value : Value}
    (hsize : ∀ encoded, codec.encode value = .ok encoded → encoded.length = size) :
    encodeElement codec size start value result =
      match codec.encode value with
      | .ok encoded => .ok (List.splice start encoded result)
      | .error _ => .ok result := by
  rw [encodeElement, if_pos hinside]
  cases hencode : codec.encode value with
  | error message => rfl
  | ok encoded =>
      have hlen := hsize encoded hencode
      simp only [copyFromSlice]
      rw [if_pos (by omega)]

/-- **An array is decoded to its first element** at most: the bytes of the property are no more than
those of one element. -/
theorem length_decodeItems_le {codec : Codec} {size : ℕ} (hpos : 0 < size)
    {propBytes : List UInt8} (hlen : propBytes.length = size) {n i : ℕ} {arr : List Value}
    (h : decodeItems codec size propBytes n i = .ok arr) :
    arr.length ≤ if i = 0 then 1 else 0 := by
  induction n generalizing i arr with
  | zero =>
      cases h
      exact Nat.zero_le _
  | succ n ih =>
      rw [decodeItems] at h
      split_ifs at h with hinside
      · -- only the element number 0 ends in the bytes
        have hi : i = 0 := by
          by_contra hne
          have hmul : size ≤ i * size := Nat.le_mul_of_pos_left size (Nat.pos_of_ne_zero hne)
          omega
        subst hi
        obtain ⟨item, -, h⟩ := Outcome.bind_eq_ok.1 h
        obtain ⟨value, -, h⟩ := Outcome.bind_eq_ok.1 h
        obtain ⟨rest, hrest, h⟩ := Outcome.bind_eq_ok.1 h
        cases h
        have hle := ih hrest
        rw [if_neg (Nat.succ_ne_zero 0)] at hle
        have hhead : value.toList.length ≤ 1 := by cases value <;> simp
        rw [if_pos rfl, List.length_append]
        omega
      · have hle := ih h
        rw [if_neg (Nat.succ_ne_zero i)] at hle
        exact hle.trans (Nat.zero_le _)

end DataBlock

end FillingPilot
