/-
The decoders of values, with the faults by their kind.

The decoders of the registry read the bytes of a block one by one and in slices.  They count the
bytes before they read, the ones whose texts have a length in the data after they have read it, so
that no read is outside the bytes.  One decoder does arithmetic that does not fit its type.

Main definitions:

* `FillingPilot.Machine.decoders`, `FillingPilot.Machine.getDecoder` — the registry.

Main results:

* `FillingPilot.Machine.getDecoder_of_getCodec` — **the decoders are those of the codecs**, with the
  kinds of their faults;
* `FillingPilot.Machine.decoder_faults` — **no decoder reads outside its bytes**, and one overflows.
-/

import FillingPilot.DecodePanic
import FillingPilot.Faults

set_option relaxedAutoImplicit false
set_option autoImplicit false

namespace FillingPilot

namespace Machine

open Json Rust

/-! ### The decoders -/

/-- The first bytes, after they have been counted. -/
def readHead (n : ℕ) (short : String) (f : List UInt8 → Value) (bytes : List UInt8) :
    Faulty Value :=
  if bytes.length < n then .err short
  else do
    let head ← Faulty.slice 0 n bytes
    return f head

/-- The first byte of some. -/
def readByte (f : UInt8 → Value) (bytes : List UInt8) : Faulty Value :=
  if bytes = [] then .err "Empty"
  else do
    let b ← Faulty.index bytes 0
    return f b

/-- The `decode` of the integer codecs. -/
def integerDecode (f : IntFormat) (short : String) (toJson : ℤ → Value) :
    List UInt8 → Faulty Value :=
  readHead f.len short fun head => toJson (f.read head)

/-- `BooleanCodec::decode`. -/
def booleanDecode : List UInt8 → Faulty Value := readByte fun b => .bool (b ≠ 0)

/-- `CharCodec::decode`. -/
def charDecode : List UInt8 → Faulty Value :=
  readByte fun b => .string (String.singleton (Char.ofNat b.toNat))

/-- `IpCodec::decode`. -/
def ipDecode (bytes : List UInt8) : Faulty Value :=
  if bytes.length < 4 then .err "Not enough"
  else do
    let a ← Faulty.index bytes 0
    let b ← Faulty.index bytes 1
    let c ← Faulty.index bytes 2
    let d ← Faulty.index bytes 3
    return .string (".".intercalate ([a, b, c, d].map fun n => toString n.toNat))

/-- `DateTimeCodec::decode`. -/
def dateTimeDecode (bytes : List UInt8) : Faulty Value :=
  if bytes.length < 8 then .err "Not enough"
  else do
    let year ← Faulty.index bytes 0
    let month ← Faulty.index bytes 1
    let day ← Faulty.index bytes 2
    let hour ← Faulty.index bytes 3
    let minute ← Faulty.index bytes 4
    let second ← Faulty.index bytes 5
    return .string (padded 4 (2000 + year.toNat) ++ "-" ++ padded 2 month.toNat ++ "-" ++
      padded 2 day.toNat ++ "T" ++ padded 2 hour.toNat ++ ":" ++ padded 2 minute.toNat ++ ":" ++
      padded 2 second.toNat ++ "Z")

/-- The code units `WStringCodec::decode` reads. -/
def wstringUnits (bytes : List UInt8) (len : ℕ) : Faulty (List ℕ) :=
  (List.range len).mapM fun i => do
    let hi ← Faulty.index bytes (2 + i * 2)
    let lo ← Faulty.index bytes (2 + i * 2 + 1)
    return BigEndian.value [hi, lo]

/-- `WStringCodec::decode`; a length is a `u16`, so that its sums fit. -/
def wstringDecode (bytes : List UInt8) : Faulty Value :=
  if bytes.length < 4 then .err "WString header too short"
  else do
    let lo ← Faulty.index bytes 0
    let hi ← Faulty.index bytes 1
    let len := BigEndian.value [hi, lo]
    if bytes.length < 4 + len * 2 then .err "WString truncated"
    else
      let utf16 ← wstringUnits bytes len
      return .string (String.ofList (fromUtf16Lossy utf16))

section Host

variable (build : Build) (host : Host)

/-- `StringCodec::decode`; a length is a `u8`, so that its sums fit. -/
def stringDecode (bytes : List UInt8) : Faulty Value :=
  if bytes.length < 2 then .err "Header"
  else do
    let len := (← Faulty.index bytes 1).toNat
    if bytes.length < 2 + len then .err "Truncated"
    else
      let data ← Faulty.slice 2 (2 + len) bytes
      match String.fromUTF8? ⟨data.toArray⟩ with
      | some s => return .string s
      | none => .err (host.utf8Error data)

/-- `RealCodec::decode`. -/
def realDecode : List UInt8 → Faulty Value :=
  readHead 4 "Not enough" fun head =>
    .number ((host.fromF32 (UInt32.ofNat (BigEndian.value head))).getD (Number.ofInt 0))

/-- `BigDecimalCodec::decode`. -/
def bigDecimalDecode : List UInt8 → Faulty Value :=
  readHead 8 "Not enough" fun head =>
    .string (host.printF64 (UInt64.ofNat (BigEndian.value head)))

/-- `LongAsDateTimeCodec::decode`: the nanoseconds are a product of `u32`s. -/
def longAsDateTimeDecode (bytes : List UInt8) : Faulty Value :=
  if bytes.length < 8 then .err "Not enough"
  else do
    let head ← Faulty.slice 0 8 bytes
    let millis := BigEndian.readSigned 8 head
    let secs := millis.tdiv 1000
    let remaining := ((millis.tmod 1000) % 2 ^ 32).toNat
    let nanos ← build.unsigned 32 (remaining * 1000000 : ℕ)
    match host.fromTimestamp secs nanos with
    | some s => return .string s
    | none => .err ("Invalid timestamp: " ++ toString millis)

/-- The decoders of the registered codecs, by name. -/
def decoders : List (String × (List UInt8 → Faulty Value)) :=
  [("boolean", booleanDecode), ("byte", integerDecode ⟨1, false⟩ "Empty" Value.ofInt),
    ("integer", integerDecode ⟨2, true⟩ "Not enough" Value.ofInt),
    ("word", integerDecode ⟨2, false⟩ "Not enough" Value.ofInt),
    ("dword", integerDecode ⟨4, false⟩ "Not enough" Value.ofInt),
    ("dint", integerDecode ⟨4, true⟩ "Not enough" Value.ofInt),
    ("lint", integerDecode ⟨8, true⟩ "Not enough" Value.ofInt), ("real", realDecode host),
    ("string", stringDecode host), ("datetime", dateTimeDecode),
    ("bigdecimal", bigDecimalDecode host), ("ip", ipDecode), ("char", charDecode),
    ("wstring", wstringDecode),
    ("intAsBigDecimal", integerDecode ⟨2, true⟩ "Not enough" fun n => .string (toString n)),
    ("longAsInt", integerDecode ⟨8, true⟩ "Not enough" fun n => .ofInt (Int.bmod n (2 ^ 16))),
    ("longAsDateTime", longAsDateTimeDecode build host)]

/-- `CodecRegistry::get`, for decoding. -/
def getDecoder (name : String) : Option (List UInt8 → Faulty Value) :=
  (decoders build host).lookup name

end Host

/-! ### Against the codecs -/

theorem outcome_readHead (n : ℕ) (short : String) (f : List UInt8 → Value) (bytes : List UInt8) :
    (readHead n short f bytes).outcome =
      if bytes.length < n then .err short
      else do
        let head ← slice 0 n bytes
        return f head := by
  unfold readHead
  split_ifs with hshort
  · rfl
  · rw [Faulty.outcome_bind, Faulty.outcome_slice]
    rfl

theorem outcome_readByte (f : UInt8 → Value) (bytes : List UInt8) :
    (readByte f bytes).outcome =
      if bytes = [] then .err "Empty"
      else do
        let b ← index bytes 0
        return f b := by
  unfold readByte
  split_ifs with hempty
  · rfl
  · rw [Faulty.outcome_bind, Faulty.outcome_index]
    rfl

theorem outcome_ipDecode (bytes : List UInt8) :
    (ipDecode bytes).outcome = FillingPilot.ipDecode bytes := by
  unfold ipDecode FillingPilot.ipDecode
  split_ifs with hshort
  · rfl
  · simp only [Faulty.outcome_bind, Faulty.outcome_index]
    rfl

theorem outcome_dateTimeDecode (bytes : List UInt8) :
    (dateTimeDecode bytes).outcome = FillingPilot.dateTimeDecode bytes := by
  unfold dateTimeDecode FillingPilot.dateTimeDecode
  split_ifs with hshort
  · rfl
  · simp only [Faulty.outcome_bind, Faulty.outcome_index]
    rfl

theorem outcome_wstringUnits (bytes : List UInt8) (len : ℕ) :
    (wstringUnits bytes len).outcome = FillingPilot.wstringUnits bytes len := by
  simp only [wstringUnits, FillingPilot.wstringUnits, Faulty.outcome_mapM, Faulty.outcome_bind,
    Faulty.outcome_index]
  rfl

theorem outcome_wstringDecode (bytes : List UInt8) :
    (wstringDecode bytes).outcome = FillingPilot.wstringDecode bytes := by
  unfold wstringDecode FillingPilot.wstringDecode
  split_ifs with hshort
  · rfl
  · simp only [Faulty.outcome_bind, Faulty.outcome_index]
    congr 1
    funext lo
    congr 1
    funext hi
    split_ifs with htruncated
    · rfl
    · rw [Faulty.outcome_bind, outcome_wstringUnits]
      rfl

variable {host : Host} {build : Build}

theorem outcome_stringDecode (bytes : List UInt8) :
    (stringDecode host bytes).outcome = FillingPilot.stringDecode host bytes := by
  unfold stringDecode FillingPilot.stringDecode
  split_ifs with hshort
  · rfl
  · simp only [Faulty.outcome_bind, Faulty.outcome_index]
    congr 1
    funext len
    split_ifs with htruncated
    · rfl
    · rw [Faulty.outcome_bind, Faulty.outcome_slice]
      congr 1
      funext data
      cases String.fromUTF8? ⟨data.toArray⟩ <;> rfl

/-- With overflow checks, the product that does not fit is a panic. -/
theorem outcome_longAsDateTimeDecode (bytes : List UInt8) :
    (longAsDateTimeDecode .checked host bytes).outcome =
      FillingPilot.longAsDateTimeDecode host bytes := by
  unfold longAsDateTimeDecode FillingPilot.longAsDateTimeDecode
  split_ifs with hshort
  · rfl
  · have hhead : slice 0 8 bytes = .ok (bytes.slice 0 8) := if_pos (by omega)
    rw [hhead, Outcome.ok_bind, Faulty.slice_ok (by omega) (by omega), Faulty.ok_bind]
    dsimp only
    split_ifs with hover
    · rw [Build.unsigned_checked hover]
      rfl
    · rw [Build.unsigned_ok .checked (Nat.lt_of_not_le hover), Faulty.ok_bind, Nat.sub_zero]
      cases host.fromTimestamp _ _ <;> rfl

/-- **The decoders are those of the codecs**, but for the one that overflows in a program without
overflow checks. -/
theorem getDecoder_of_getCodec (build : Build) {type : String} {codec : Codec}
    (hcodec : getCodec host type = some codec) :
    ∃ decode, getDecoder build host type = some decode ∧
      ∀ bytes, (type = "longAsDateTime" → build = .checked) →
        (decode bytes).outcome = codec.decode bytes := by
  cases hcodec using getCodec_cases with
  | boolean | char => exact ⟨_, rfl, fun bytes _ => outcome_readByte _ bytes⟩
  | byte | integer | word | dword | dint | lint | real | bigdecimal | intAsBigDecimal
  | longAsInt => exact ⟨_, rfl, fun bytes _ => outcome_readHead _ _ _ bytes⟩
  | string => exact ⟨_, rfl, fun bytes _ => outcome_stringDecode bytes⟩
  | datetime => exact ⟨_, rfl, fun bytes _ => outcome_dateTimeDecode bytes⟩
  | ip => exact ⟨_, rfl, fun bytes _ => outcome_ipDecode bytes⟩
  | wstring => exact ⟨_, rfl, fun bytes _ => outcome_wstringDecode bytes⟩
  | longAsDateTime =>
      refine ⟨_, rfl, fun bytes hbuild => ?_⟩
      rw [hbuild rfl]
      exact outcome_longAsDateTimeDecode bytes

theorem getDecoder_eq_none {type : String} (hcodec : getCodec host type = none) :
    getDecoder build host type = none := by
  have hnames : (decoders build host).map Prod.fst = (codecs host).map Prod.fst := rfl
  rw [getDecoder, List.lookup_eq_none_iff]
  rw [getCodec, List.lookup_eq_none_iff] at hcodec
  intro e he
  have hname : e.1 ∈ (codecs host).map Prod.fst := hnames ▸ List.mem_map_of_mem he
  obtain ⟨e', he', hsame⟩ := List.mem_map.1 hname
  rw [← hsame]
  exact hcodec e' he'

/-! ### Faults -/

/-- The time in milliseconds is read inside its bytes; its product overflows for an odd time before
1970. -/
theorem longAsDateTimeDecode_faults {bytes : List UInt8} {kind : Fault}
    (h : longAsDateTimeDecode build host bytes = .fault kind) :
    kind = .overflow ∧ build = .checked ∧ OddMillis bytes := by
  cases build with
  | checked =>
      have hodd : OddMillis bytes := by
        rw [← @longAsDateTimeDecode_panics_iff host, ← outcome_longAsDateTimeDecode, h]
        rfl
      unfold longAsDateTimeDecode at h
      rw [if_neg (Nat.not_lt.2 hodd.1), Faulty.slice_ok (by omega) hodd.1, Faulty.ok_bind] at h
      dsimp only at h
      rw [Build.unsigned_checked ((nanos_overflow_iff _).2 hodd.2)] at h
      cases h
      exact ⟨rfl, rfl, hodd⟩
  | wrapping =>
      unfold longAsDateTimeDecode at h
      split_ifs at h with hshort
      rw [Faulty.slice_ok (by omega) (by omega), Faulty.ok_bind] at h
      dsimp only at h
      rw [Build.unsigned_wrapping, Faulty.ok_bind] at h
      split at h <;> cases h

/-- **No decoder reads outside its bytes**, whatever they are; the only fault is the overflow of the
decoder of times in milliseconds. -/
theorem decoder_faults {type : String} {decode : List UInt8 → Faulty Value}
    (hdecode : getDecoder build host type = some decode) {bytes : List UInt8} {kind : Fault}
    (h : decode bytes = .fault kind) :
    kind = .overflow ∧ build = .checked ∧ type = "longAsDateTime" ∧ OddMillis bytes := by
  by_cases htype : type = "longAsDateTime"
  · subst htype
    obtain rfl : longAsDateTimeDecode build host = decode := Option.some.inj hdecode
    obtain ⟨hkind, hbuild, hodd⟩ := longAsDateTimeDecode_faults h
    exact ⟨hkind, hbuild, rfl, hodd⟩
  · cases hcodec : getCodec host type with
    | none =>
        rw [getDecoder_eq_none hcodec] at hdecode
        cases hdecode
    | some codec =>
        obtain ⟨decode', hdecode', houtcome⟩ := getDecoder_of_getCodec build hcodec
        obtain rfl : decode = decode' := Option.some.inj (hdecode.symm.trans hdecode')
        have hpanic : codec.decode bytes = .panic := by
          rw [← houtcome bytes fun hlong => absurd hlong htype, h]
          rfl
        exact absurd ((decode_panics_iff hcodec bytes).1 hpanic).1 htype

end Machine

end FillingPilot
