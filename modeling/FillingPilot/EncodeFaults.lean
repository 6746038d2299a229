/-
Encoding a deployment, with the faults by their kind.

The encoder computes the end of each element with `usize`s before it looks for a codec, and cuts it
at the end of the block; what it writes is a slice of the encoded bytes of that length.

Main definitions:

* `FillingPilot.Machine.encode` — the encoder, with the arithmetic of `usize`;
* `FillingPilot.EndsFit` — the ends of the elements that an object gives a property.

Main results:

* `FillingPilot.Machine.encode_eq_ok_iff` — **when there is a block** in a build with overflow
  checks;
* `FillingPilot.Machine.noErr_encode` — there is no error message.
-/

import FillingPilot.BlockWrites
import FillingPilot.Faults

set_option relaxedAutoImplicit false
set_option autoImplicit false

namespace FillingPilot

open Json Rust

/-- The ends of all elements that the value gives the property are `usize`s. -/
def EndsFit (contentMap : List (String × Value)) (p : DataBlockPropertyDefinition) : Prop :=
  ∀ item ∈ propertyItems p.count (contentMap.lookup p.name),
    p.offset + item.2 * p.elementSize + p.elementSize < 2 ^ 64

namespace Machine

section Encoding

variable (build : Build) (host : Host)

/-- One value written at its place, as far as the place lies in the block. -/
def writeElement (type : String) (size start : ℕ) (value : Value) (bytes : List UInt8) :
    Faulty (List UInt8) := do
  let stop ← build.unsigned 64 (start + size : ℕ)
  let stop := min stop bytes.length
  match getCodec host type with
  | none => .ok bytes
  | some codec =>
      match codec.encode value with
      | .error _ => .ok bytes
      | .ok encoded => do
          let _ ← Faulty.slice start stop bytes
          let len ← build.unsigned 64 ((stop : ℤ) - start)
          let src ← Faulty.slice 0 len encoded
          return List.splice start src bytes

/-- One element of an array. -/
def writeItem (p : DataBlockPropertyDefinition) (bytes : List UInt8) (item : Value × ℕ) :
    Faulty (List UInt8) := do
  let before ← build.unsigned 64 (item.2 * p.elementSize : ℕ)
  let itemStart ← build.unsigned 64 (p.offset + before : ℕ)
  writeElement build host p.propertyType p.elementSize itemStart item.1 bytes

/-- One property of the object. -/
def encodeProperty (contentMap : List (String × Value)) (bytes : List UInt8)
    (p : DataBlockPropertyDefinition) : Faulty (List UInt8) :=
  match contentMap.lookup p.name with
  | none => .ok bytes
  | some value =>
      if p.count = 1 then
        writeElement build host p.propertyType p.elementSize p.offset value bytes
      else
        match value with
        | .array arr => (arr.take p.count).zipIdx.foldlM (writeItem build host p) bytes
        | _ => .ok bytes

/-- `PLCSerializeMetaFactory::encode`. -/
def encode (content : Value) (javaType : String) (cache : MetaCache) : Faulty (List UInt8) :=
  match content with
  | .object contentMap =>
      match cache.lookup javaType with
      | none => .err ("Missing DataBlockDefinition for type: " ++ javaType)
      | some definition =>
          definition.dataBlockPropertyDefinitionList.foldlM (encodeProperty build host contentMap)
            (List.replicate definition.blockSize 0)
  | _ => .err "Content must be a JSON object"

end Encoding

/-! ### With overflow checks -/

variable {build : Build} {host : Host}

/-- **When an element is written**: its end is a `usize`, and it is written without the bounds. -/
theorem writeElement_eq_ok_iff {type : String} {size start : ℕ} {value : Value}
    {bytes bytes' : List UInt8} :
    writeElement .checked host type size start value bytes = .ok bytes' ↔
      start + size < 2 ^ 64 ∧
        FillingPilot.writeElement host type size start value bytes = .ok bytes' := by
  by_cases hend : start + size < 2 ^ 64
  · rw [and_iff_right hend, ← Faulty.outcome_eq_ok_iff]
    suffices hsame : (writeElement .checked host type size start value bytes).outcome =
        FillingPilot.writeElement host type size start value bytes by rw [hsame]
    unfold writeElement
    rw [Build.unsigned_ok .checked hend, Faulty.ok_bind]
    cases hcodec : getCodec host type with
    | none => simp only [FillingPilot.writeElement, hcodec, Faulty.outcome_ok]
    | some codec =>
        cases hencode : codec.encode value with
        | error message =>
            simp only [FillingPilot.writeElement, hcodec, hencode, Faulty.outcome_ok]
        | ok encoded =>
            rw [writeElement_eq hcodec hencode]
            simp only [hencode]
            by_cases hstart : start ≤ bytes.length
            · -- the place begins in the block, and its length is no overflow
              have hlen : min (start + size) bytes.length - start < 2 ^ 64 := by omega
              have hcast : ((min (start + size) bytes.length : ℕ) : ℤ) - start =
                  (min (start + size) bytes.length - start : ℕ) := by omega
              rw [Faulty.slice_ok (by omega) (by omega), Faulty.ok_bind, hcast,
                Build.unsigned_ok .checked hlen, Faulty.ok_bind, Faulty.slice]
              simp only [Nat.zero_le, true_and, Nat.sub_zero, hstart]
              split_ifs
              · rfl
              · rfl
            · rw [if_neg fun h => hstart h.1, Faulty.slice, if_neg (by omega)]
              rfl
  · refine iff_of_false (fun h => ?_) fun h => hend h.1
    unfold writeElement at h
    rw [Build.unsigned_checked (Nat.le_of_not_lt hend)] at h
    cases h

/-- The place of an element of an array is computed before its end. -/
theorem writeItem_eq_ok_iff {p : DataBlockPropertyDefinition} {bytes bytes' : List UInt8}
    {item : Value × ℕ} :
    writeItem .checked host p bytes item = .ok bytes' ↔
      p.offset + item.2 * p.elementSize + p.elementSize < 2 ^ 64 ∧
        FillingPilot.writeElement host p.propertyType p.elementSize
          (p.offset + item.2 * p.elementSize) item.1 bytes = .ok bytes' := by
  unfold writeItem
  rw [Faulty.bind_eq_ok]
  constructor
  · rintro ⟨before, hbefore, h⟩
    obtain ⟨itemStart, hstart, h⟩ := Faulty.bind_eq_ok.1 h
    obtain ⟨-, rfl⟩ := Build.unsigned_checked_eq_ok_iff.1 hbefore
    obtain ⟨-, rfl⟩ := Build.unsigned_checked_eq_ok_iff.1 hstart
    exact writeElement_eq_ok_iff.1 h
  · intro h
    have hstart : p.offset + item.2 * p.elementSize < 2 ^ 64 := by omega
    refine ⟨_, Build.unsigned_ok .checked (by omega), ?_⟩
    rw [Build.unsigned_ok .checked hstart, Faulty.ok_bind]
    exact writeElement_eq_ok_iff.2 h

/-- **When a property is encoded**: the ends of its elements are `usize`s, and it is encoded without
the bounds. -/
theorem encodeProperty_eq_ok_iff {contentMap : List (String × Value)} {bytes bytes' : List UInt8}
    {p : DataBlockPropertyDefinition} :
    encodeProperty .checked host contentMap bytes p = .ok bytes' ↔
      EndsFit contentMap p ∧
        FillingPilot.encodeProperty host contentMap bytes p = .ok bytes' := by
  unfold EndsFit encodeProperty FillingPilot.encodeProperty
  cases hvalue : contentMap.lookup p.name with
  | none => simp [propertyItems]
  | some value =>
      by_cases hcount : p.count = 1
      · simp only [if_pos hcount, propertyItems_one hcount, List.forall_mem_singleton,
          Nat.zero_mul, Nat.add_zero]
        exact writeElement_eq_ok_iff
      · cases value with
        | array arr =>
            simp only [if_neg hcount, propertyItems_array hcount]
            exact Faulty.foldlM_eq_ok_iff
              (C := fun item : Value × ℕ =>
                p.offset + item.2 * p.elementSize + p.elementSize < 2 ^ 64)
              fun _ _ _ => writeItem_eq_ok_iff
        | _ => simp [propertyItems, hcount]

/-- **When there is a block** in a build with overflow checks: the ends of all elements are `usize`s,
and there is one without the bounds. -/
theorem encode_eq_ok_iff {definition : DataBlockDefinition} {javaType : String} {cache : MetaCache}
    (hcache : cache.lookup javaType = some definition) {contentMap : List (String × Value)}
    {bytes : List UInt8} :
    encode .checked host (.object contentMap) javaType cache = .ok bytes ↔
      (∀ p ∈ definition.dataBlockPropertyDefinitionList, EndsFit contentMap p) ∧
        FillingPilot.encode host (.object contentMap) javaType cache = .ok bytes := by
  simp only [encode, FillingPilot.encode, hcache]
  exact Faulty.foldlM_eq_ok_iff (C := EndsFit contentMap) fun _ _ _ => encodeProperty_eq_ok_iff

/-! ### Errors -/

theorem noErr_writeElement (type : String) (size start : ℕ) (value : Value) (bytes : List UInt8) :
    (writeElement build host type size start value bytes).NoErr := by
  refine (build.noErr_unsigned _ _).bind fun stop => ?_
  cases getCodec host type with
  | none => exact Faulty.noErr_ok _
  | some codec =>
      dsimp only
      cases codec.encode value with
      | error message => exact Faulty.noErr_ok _
      | ok encoded =>
          refine (Faulty.noErr_slice _ _ _).bind fun _ => ?_
          refine (build.noErr_unsigned _ _).bind fun len => ?_
          exact (Faulty.noErr_slice _ _ _).bind fun src => Faulty.noErr_ok _

theorem noErr_encodeProperty (contentMap : List (String × Value)) (bytes : List UInt8)
    (p : DataBlockPropertyDefinition) : (encodeProperty build host contentMap bytes p).NoErr := by
  unfold encodeProperty
  cases contentMap.lookup p.name with
  | none => exact Faulty.noErr_ok _
  | some value =>
      dsimp only
      split_ifs
      · exact noErr_writeElement _ _ _ _ _
      · cases value with
        | array arr =>
            refine Faulty.NoErr.foldlM (fun bytes item => ?_) _ _
            refine (build.noErr_unsigned _ _).bind fun before => ?_
            refine (build.noErr_unsigned _ _).bind fun itemStart => ?_
            exact noErr_writeElement _ _ _ _ _
        | _ => exact Faulty.noErr_ok _

/-- **There is no error** for an object and a definition of the cache. -/
theorem noErr_encode {definition : DataBlockDefinition} {javaType : String} {cache : MetaCache}
    (hcache : cache.lookup javaType = some definition) (contentMap : List (String × Value)) :
    (encode build host (.object contentMap) javaType cache).NoErr := by
  simp only [encode, hcache]
  exact Faulty.NoErr.foldlM (noErr_encodeProperty contentMap) _ _

end Machine

end FillingPilot
