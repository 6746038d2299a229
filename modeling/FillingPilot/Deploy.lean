/-
Data block definitions, and the encoding and decoding of whole blocks.

A definition gives the size of a block and its properties: each property has a name, a type, a byte
offset and a number of elements.  `encode` writes the values of a JSON object into a block of zeros,
`decode_as_map` reads them back.  The cache is read from outside the asynchronous tasks of the
runtime, where the read cannot fail, and memory for a block is always to be had.

Main definitions:

* `FillingPilot.DataBlockPropertyDefinition`, `FillingPilot.DataBlockDefinition` — definitions;
* `FillingPilot.typeSize` — the size table of the type names;
* `FillingPilot.encode` — the block of a JSON object;
* `FillingPilot.decodeAsMap` — the values in a block.

Main results:

* `FillingPilot.writeElement_eq` — what one element's write comes to;
* `FillingPilot.readElement_eq` — what one element's read comes to.
-/

import FillingPilot.Codec
import Mathlib.Data.List.AList

set_option relaxedAutoImplicit false
set_option autoImplicit false

namespace FillingPilot

open Json Rust

/-! ### Definitions of blocks -/

/-- The definition of a property. -/
structure DataBlockPropertyDefinition where
  name : String
  propertyType : String
  offset : ℕ
  count : ℕ
  /-- Overrides the size of the type. -/
  byteSize : Option ℕ
  deriving DecidableEq

/-- The definition of a data block. -/
structure DataBlockDefinition where
  javaType : String
  blockSize : ℕ
  dataBlockPropertyDefinitionList : List DataBlockPropertyDefinition
  deriving DecidableEq

/-- The cache of definitions, by Java type. -/
abbrev MetaCache := AList fun _ : String => DataBlockDefinition

/-- The byte size of a type name.  The name is compared in lower case, so the names with capital
letters in the table are never met. -/
def typeSize (typeName : String) : ℕ :=
  match toLowercase typeName with
  | "boolean" | "bool" => 1
  | "byte" => 1
  | "char" => 1
  | "integer" | "int" | "word" => 2
  | "intAsBigDecimal" => 2
  | "dint" | "dword" | "real" | "float" => 4
  | "longAsInt" => 8
  | "lint" | "long" | "datetime" | "bigdecimal" | "longAsDateTime" | "integerAsBigDecimal" => 8
  | "string" => 256
  | "wstring" => 512
  | "ip" | "ipaddress" => 4
  | _ => 1

/-- The size of one element of a property. -/
def DataBlockPropertyDefinition.elementSize (p : DataBlockPropertyDefinition) : ℕ :=
  p.byteSize.getD (typeSize p.propertyType)

section Blocks

variable (host : Host)

/-! ### Encoding -/

/-- One value written at its place, as far as the place lies in the block; a value that has no
codec or that its codec rejects is left out. -/
def writeElement (type : String) (size start : ℕ) (value : Value) (bytes : List UInt8) :
    Outcome (List UInt8) :=
  let stop := min (start + size) bytes.length
  match getCodec host type with
  | none => .ok bytes
  | some codec =>
      match codec.encode value with
      | .error _ => .ok bytes
      | .ok encoded => do
          let src ← slice 0 (stop - start) encoded
          copyFromSlice start stop src bytes

/-- The elements of an array, each at its own place. -/
def writeElements (p : DataBlockPropertyDefinition) (items : List (Value × ℕ))
    (bytes : List UInt8) : Outcome (List UInt8) :=
  items.foldlM (fun bytes item =>
    writeElement host p.propertyType p.elementSize (p.offset + item.2 * p.elementSize) item.1 bytes)
    bytes

/-- One property of the object. -/
def encodeProperty (contentMap : List (String × Value)) (bytes : List UInt8)
    (p : DataBlockPropertyDefinition) : Outcome (List UInt8) :=
  match contentMap.lookup p.name with
  | none => .ok bytes
  | some value =>
      if p.count = 1 then
        writeElement host p.propertyType p.elementSize p.offset value bytes
      else
        match value with
        | .array arr => writeElements host p (arr.take p.count).zipIdx bytes
        | _ => .ok bytes

/-- `PLCSerializeMetaFactory::encode`. -/
def encode (content : Value) (javaType : String) (cache : MetaCache) : Outcome (List UInt8) :=
  match content with
  | .object contentMap =>
      match cache.lookup javaType with
      | none => .err ("Missing DataBlockDefinition for type: " ++ javaType)
      | some definition =>
          definition.dataBlockPropertyDefinitionList.foldlM (encodeProperty host contentMap)
            (List.replicate definition.blockSize 0)
  | _ => .err "Content must be a JSON object"

/-! ### Decoding -/

/-- The value in some bytes; nothing without a codec or when the codec rejects them. -/
def readElement (type : String) (bytes : List UInt8) : Outcome (Option Value) :=
  match getCodec host type with
  | none => .ok none
  | some codec =>
      match codec.decode bytes with
      | .ok value => .ok (some value)
      | .err _ => .ok none
      | .panic => .panic

/-- The values of the elements from number `i` on, `n` of them or as many as begin in the data. -/
def readElements (p : DataBlockPropertyDefinition) (data : List UInt8) :
    ℕ → ℕ → Outcome (List Value)
  | 0, _ => .ok []
  | n + 1, i =>
      let itemStart := p.offset + i * p.elementSize
      let itemEnd := min (itemStart + p.elementSize) data.length
      if data.length ≤ itemStart then .ok []
      else do
        let propBytes ← slice itemStart itemEnd data
        let value ← readElement host p.propertyType propBytes
        let arr ← readElements p data n (i + 1)
        return value.toList ++ arr

/-- One property of the block. -/
def decodeProperty (data : List UInt8) (map : AList fun _ : String => Value)
    (p : DataBlockPropertyDefinition) : Outcome (AList fun _ : String => Value) :=
  let start := p.offset
  let stop := min (start + p.elementSize * p.count) data.length
  if data.length ≤ start then .ok map
  else if p.count = 1 then do
    let propBytes ← slice start stop data
    match ← readElement host p.propertyType propBytes with
    | some value => return map.insert p.name value
    | none => return map
  else do
    let arr ← readElements host p data p.count 0
    if arr.isEmpty then return map else return map.insert p.name (.array arr)

/-- `PLCSerializeMetaFactory::decode_as_map`. -/
def decodeAsMap (data : List UInt8) (javaType : String) (cache : MetaCache) :
    Outcome (AList fun _ : String => Value) :=
  match cache.lookup javaType with
  | none => .err ("Missing DataBlockDefinition for type: " ++ javaType)
  | some definition =>
      definition.dataBlockPropertyDefinitionList.foldlM (decodeProperty host data) ∅

/-! ### One element -/

variable {host}

theorem writeElement_skip {type : String} {value : Value}
    (h : ∀ codec encoded, getCodec host type = some codec → codec.encode value ≠ .ok encoded)
    (size start : ℕ) (bytes : List UInt8) :
    writeElement host type size start value bytes = .ok bytes := by
  unfold writeElement
  cases hcodec : getCodec host type with
  | none => rfl
  | some codec =>
      cases hencode : codec.encode value with
      | error message => simp only [hencode]
      | ok encoded => exact absurd hencode (h codec encoded hcodec)

/-- **What the write of an encoded value comes to**: its bytes cut to the place, or a panic when
the place starts after the block or the codec gave fewer bytes than the place has in the block. -/
theorem writeElement_eq {type : String} {value : Value} {codec : Codec} {encoded : List UInt8}
    (hcodec : getCodec host type = some codec) (hencode : codec.encode value = .ok encoded)
    (size start : ℕ) (bytes : List UInt8) :
    writeElement host type size start value bytes =
      if start ≤ bytes.length ∧ min (start + size) bytes.length - start ≤ encoded.length then
        .ok (List.splice start (encoded.take (min (start + size) bytes.length - start)) bytes)
      else .panic := by
  simp only [writeElement, hcodec, hencode, slice, Nat.zero_le, true_and, Nat.sub_zero]
  by_cases hlen : min (start + size) bytes.length - start ≤ encoded.length
  · have hsrc : (encoded.slice 0 (min (start + size) bytes.length - start)).length =
        min (start + size) bytes.length - start := List.length_slice (by omega)
    rw [if_pos hlen, Outcome.ok_bind, copyFromSlice, hsrc]
    by_cases hstart : start ≤ bytes.length
    · rw [if_pos (by omega), if_pos ⟨hstart, hlen⟩]
      rfl
    · rw [if_neg (by omega), if_neg (fun h => hstart h.1)]
  · rw [if_neg hlen, if_neg (fun h => hlen h.2), Outcome.panic_bind]

theorem readElement_eq {type : String} {bytes : List UInt8} {codec : Codec} {value : Value}
    (hcodec : getCodec host type = some codec) (hdecode : codec.decode bytes = .ok value) :
    readElement host type bytes = .ok (some value) := by
  simp only [readElement, hcodec, hdecode]

end Blocks

end FillingPilot
