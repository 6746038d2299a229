/-
When the decoding of a value panics.

A decoder counts the bytes before it reads them, so that no slice and no index of a decoder goes
over the end.  The one that panics multiplies: the milliseconds of a time, as a `u32`, become
nanoseconds, and for a time before 1970 that is no whole second the product overflows.

Main definitions:

* `FillingPilot.OddMillis` — such a time.

Main results:

* `FillingPilot.nanos_overflow_iff` — **when the product overflows**;
* `FillingPilot.decode_panics_iff` — **the codecs that panic**: one, and for which bytes.
-/

import FillingPilot.Codec

set_option relaxedAutoImplicit false
set_option autoImplicit false

namespace FillingPilot

open Json Rust

variable {host : Host}

/-! ### Times before 1970 -/

/-- The first eight bytes are a time in milliseconds before 1970 that is no whole second. -/
def OddMillis (bytes : List UInt8) : Prop :=
  8 ≤ bytes.length ∧ BigEndian.readSigned 8 (bytes.slice 0 8) < 0 ∧
    ¬ (1000 : ℤ) ∣ BigEndian.readSigned 8 (bytes.slice 0 8)

instance (bytes : List UInt8) : Decidable (OddMillis bytes) := by
  unfold OddMillis
  infer_instance

/-- The `u32` product of nanoseconds overflows exactly for a negative remainder. -/
theorem nanos_overflow_iff (millis : ℤ) :
    2 ^ 32 ≤ ((millis.tmod 1000) % 2 ^ 32).toNat * 1000000 ↔
      millis < 0 ∧ ¬ (1000 : ℤ) ∣ millis := by
  have hdvd : millis.tmod 1000 = 0 ↔ (1000 : ℤ) ∣ millis := Int.dvd_iff_tmod_eq_zero.symm
  have hlt : millis.tmod 1000 < 1000 := Int.tmod_lt_of_pos millis (by decide)
  rcases Int.lt_or_le millis 0 with hneg | hnonneg
  · -- the remainder has the sign of the dividend
    have hopp := Int.tmod_lt_of_pos (-millis) (show (0 : ℤ) < 1000 by decide)
    have hopp' := Int.tmod_nonneg 1000 (show 0 ≤ -millis by omega)
    rw [Int.neg_tmod] at hopp hopp'
    omega
  · have hge : 0 ≤ millis.tmod 1000 := Int.tmod_nonneg 1000 hnonneg
    omega

theorem longAsDateTimeDecode_panics_iff (bytes : List UInt8) :
    longAsDateTimeDecode host bytes = .panic ↔ OddMillis bytes := by
  unfold longAsDateTimeDecode OddMillis
  split_ifs with hshort
  · refine iff_of_false (fun h => by cases h) ?_
    omega
  · have hhead : slice 0 8 bytes = .ok (bytes.slice 0 8) := if_pos (by omega)
    rw [hhead, Outcome.ok_bind, ← nanos_overflow_iff]
    dsimp only
    split_ifs with hover
    · simp only [hover, and_true, true_iff]
      omega
    · simp only [hover, and_false, iff_false]
      split <;> simp

/-! ### Decoders that do not panic -/

theorem wstringDecode_ne_panic (bytes : List UInt8) : wstringDecode bytes ≠ .panic := by
  unfold wstringDecode
  split_ifs with hshort
  · exact nofun
  · refine Outcome.bind_ne_panic (index_ne_panic (by omega)) fun lo => ?_
    refine Outcome.bind_ne_panic (index_ne_panic (by omega)) fun hi => ?_
    dsimp only
    split_ifs with htruncated
    · exact nofun
    · -- every code unit lies in the bytes
      have hunits : wstringUnits bytes (BigEndian.value [hi, lo]) ≠ .panic := by
        refine Outcome.mapM_ne_panic fun i hrange => ?_
        rw [List.mem_range] at hrange
        refine Outcome.bind_ne_panic (index_ne_panic (by omega)) fun a => ?_
        exact Outcome.bind_ne_panic (index_ne_panic (by omega)) fun b => nofun
      exact Outcome.bind_ne_panic hunits fun utf16 => nofun

theorem stringDecode_ne_panic (bytes : List UInt8) : stringDecode host bytes ≠ .panic := by
  unfold stringDecode
  split_ifs with hshort
  · exact nofun
  · refine Outcome.bind_ne_panic (index_ne_panic (by omega)) fun len => ?_
    dsimp only
    split_ifs with htruncated
    · exact nofun
    · refine Outcome.bind_ne_panic (slice_ne_panic (by omega) (by omega)) fun data => ?_
      split <;> exact nofun

/-- A decoder that reads the first bytes after it has counted them. -/
theorem guardedSlice_ne_panic (n : ℕ) (short : String) (f : List UInt8 → Value)
    (bytes : List UInt8) :
    (if bytes.length < n then .err short
      else do
        let head ← slice 0 n bytes
        return f head) ≠ (.panic : Outcome Value) := by
  split_ifs with hshort
  · exact nofun
  · exact Outcome.bind_ne_panic (slice_ne_panic n.zero_le (by omega)) fun head => nofun

/-- A decoder that reads the first byte of some. -/
theorem guardedIndex_ne_panic (f : UInt8 → Value) (bytes : List UInt8) :
    (if bytes = [] then .err "Empty"
      else do
        let b ← index bytes 0
        return f b) ≠ (.panic : Outcome Value) := by
  split_ifs with hempty
  · exact nofun
  · have hindex : index bytes 0 ≠ .panic := index_ne_panic (List.length_pos_iff.2 hempty)
    exact Outcome.bind_ne_panic hindex fun b => nofun

theorem ipDecode_ne_panic (bytes : List UInt8) : ipDecode bytes ≠ .panic := by
  unfold ipDecode
  split_ifs with hshort
  · exact nofun
  · refine Outcome.bind_ne_panic (index_ne_panic (by omega)) fun a => ?_
    refine Outcome.bind_ne_panic (index_ne_panic (by omega)) fun b => ?_
    refine Outcome.bind_ne_panic (index_ne_panic (by omega)) fun c => ?_
    exact Outcome.bind_ne_panic (index_ne_panic (by omega)) fun d => nofun

theorem dateTimeDecode_ne_panic (bytes : List UInt8) : dateTimeDecode bytes ≠ .panic := by
  unfold dateTimeDecode
  split_ifs with hshort
  · exact nofun
  · refine Outcome.bind_ne_panic (index_ne_panic (by omega)) fun year => ?_
    refine Outcome.bind_ne_panic (index_ne_panic (by omega)) fun month => ?_
    refine Outcome.bind_ne_panic (index_ne_panic (by omega)) fun day => ?_
    refine Outcome.bind_ne_panic (index_ne_panic (by omega)) fun hour => ?_
    refine Outcome.bind_ne_panic (index_ne_panic (by omega)) fun minute => ?_
    exact Outcome.bind_ne_panic (index_ne_panic (by omega)) fun second => nofun

/-! ### The registry -/

/-- **The codecs that panic**: one, and for the odd times before 1970. -/
theorem decode_panics_iff {type : String} {codec : Codec} (hcodec : getCodec host type = some codec)
    (bytes : List UInt8) :
    codec.decode bytes = .panic ↔ type = "longAsDateTime" ∧ OddMillis bytes := by
  by_cases htype : type = "longAsDateTime"
  · subst htype
    obtain rfl : longAsDateTimeCodec host = codec := Option.some.inj hcodec
    rw [and_iff_right rfl]
    exact longAsDateTimeDecode_panics_iff bytes
  · refine iff_of_false ?_ fun h => htype h.1
    cases hcodec using getCodec_cases with
    | boolean | char => exact guardedIndex_ne_panic _ bytes
    | byte | integer | word | dword | dint | lint | real | bigdecimal | intAsBigDecimal
    | longAsInt => exact guardedSlice_ne_panic _ _ _ bytes
    | string => exact stringDecode_ne_panic bytes
    | datetime => exact dateTimeDecode_ne_panic bytes
    | ip => exact ipDecode_ne_panic bytes
    | wstring => exact wstringDecode_ne_panic bytes
    | longAsDateTime => exact absurd rfl htype

end FillingPilot
