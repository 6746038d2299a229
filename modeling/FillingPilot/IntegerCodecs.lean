/-
What the integer codecs make of numbers and texts.

A JSON number has a value, and a text of decimal digits with an optional sign denotes an integer.
The six integer codecs answer for every number and every text: what does not convert is written as
0, and what does not fit is cut to the width of the type.

Main definitions:

* `Json.Number.value`, `Json.floatValue` — the value of a number;
* `FillingPilot.denoted` — the number a JSON value stands for;
* `FillingPilot.KeepsValue` — a codec writes a value so that it is read back, or refuses it;
* `FillingPilot.Convertible` — the values that the conversion does not change.

Main results:

* `FillingPilot.IntFormat.parse_of_denotes` — **parsing is complete**: the integer a text denotes
  is what the type reads, if it is of the type, the text `-0` of an unsigned type aside;
* `FillingPilot.integerCodec_keepsValue_iff` — **the values an integer codec keeps**.
-/

import FillingPilot.Codec
import Mathlib.Data.Rat.Cast.Order
import Mathlib.Tactic.NormNum

set_option relaxedAutoImplicit false
set_option autoImplicit false

namespace Json

/-! ### The value of a number -/

/-- The value of a finite binary64 number: sign, 11 bits of exponent, 52 bits of fraction. -/
def floatValue (bits : UInt64) : ℚ :=
  let fraction : ℕ := bits.toNat % 2 ^ 52
  let exponent : ℕ := bits.toNat / 2 ^ 52 % 2 ^ 11
  let magnitude : ℚ :=
    -- A zero exponent field marks the subnormal numbers, which have no hidden bit.
    if exponent = 0 then (fraction : ℚ) / 2 ^ 1074
    else (2 ^ 52 + fraction : ℚ) * 2 ^ exponent / 2 ^ 1075
  if bits.toNat < 2 ^ 63 then magnitude else -magnitude

/-- The value of a number. -/
def Number.value : Number → ℚ
  | .int n _ => n
  | .float bits => floatValue bits

theorem Number.value_ofInt {n : ℤ} (h : -2 ^ 63 ≤ n ∧ n < 2 ^ 64) : (ofInt n).value = n := by
  rw [ofInt_eq h, value]

end Json

namespace FillingPilot

open Json Rust

/-! ### What a value stands for -/

/-- The integer a text denotes: an optional sign and decimal digits. -/
def textInteger (s : String) : Option ℤ := parseDecimal true s.toList

/-- The number a JSON value stands for: its value, or that of the integer its text denotes. -/
def denoted : Value → Option ℚ
  | .number n => some n.value
  | .string s => (textInteger s).map fun n : ℤ => (n : ℚ)
  | _ => none

/-- The value is an integer of the type. -/
def IsIntegerOf (f : IntFormat) (v : Value) : Prop := ∃ n : ℤ, f.Holds n ∧ denoted v = some (n : ℚ)

/-! ### Parsing -/

/-- An unsigned type reads what the text denotes; it refuses a minus, even that of `-0`. -/
theorem parseDecimal_false {cs : List Char} {n : ℤ} (h : parseDecimal true cs = some n)
    (hnonneg : 0 ≤ n) :
    parseDecimal false cs = some n ∨ (parseDecimal false cs = none ∧ n = 0) := by
  unfold parseDecimal at h ⊢
  split at h
  · exact Or.inl h
  · rw [if_pos rfl] at h
    obtain ⟨k, hk, hn⟩ := Option.map_eq_some_iff.1 h
    obtain ⟨d, -, hd⟩ := Option.bind_eq_some_iff.1 hk
    have hk : (d : ℤ) = k := Option.some.inj hd
    exact Or.inr ⟨rfl, by omega⟩
  · exact Or.inl h

namespace IntFormat

variable {f : IntFormat} {n : ℤ}

theorem pow_width (len : ℕ) : (2 : ℤ) ^ (8 * len) = 256 ^ len := by
  rw [pow_mul]
  norm_num

/-- The range of a signed type, as `str::parse` has it. -/
theorem holds_signed (hlen : 0 < f.len) (hsigned : f.signed = true) (h : f.Holds n) :
    -2 ^ (8 * f.len - 1) ≤ n ∧ n < 2 ^ (8 * f.len - 1) := by
  have hpow : (2 : ℤ) ^ (8 * f.len - 1) * 2 = 256 ^ f.len := by
    rw [← pow_succ, ← pow_width]
    congr 1
    omega
  unfold Holds at h
  rw [if_pos hsigned, ← hpow] at h
  omega

/-- **Parsing is complete**: the integer a text denotes is what the type reads.  Only a text with a
minus is refused by an unsigned type, and one that denotes a number of the type denotes 0. -/
theorem parse_of_denotes {s : String} (hlen : 0 < f.len) (hs : textInteger s = some n)
    (h : f.Holds n) : (f.parse s).getD 0 = n := by
  unfold parse
  split_ifs with hsigned
  · rw [parseSigned, ← textInteger, hs, Option.filter_some,
      if_pos (decide_eq_true (holds_signed hlen hsigned h)), Option.getD_some]
  · unfold Holds at h
    rw [if_neg hsigned] at h
    rcases parseDecimal_false hs h.1 with hparse | ⟨hparse, rfl⟩
    · rw [parseUnsigned, hparse, Option.filter_some, if_pos, Option.getD_some]
      rw [pow_width]
      exact decide_eq_true h.2
    · rw [parseUnsigned, hparse]
      rfl

end IntFormat

/-! ### The codecs -/

/-- The codec does not change the value: what it writes has its size and reads back as a number
equal to the value, and it refuses what is no integer of the type. -/
structure KeepsValue (codec : Codec) (f : IntFormat) (v : Value) : Prop where
  accepted : ∀ bytes, codec.encode v = .ok bytes → codec.byteSize = some bytes.length ∧
    ∃ n, codec.decode bytes = .ok (.number n) ∧ denoted v = some n.value
  refused : ¬ IsIntegerOf f v → ∃ message, codec.encode v = .error message

/-- The values that converting them to the type does not change: the integers of the type as
integers or texts, a float only when it is zero, and whatever is neither number nor text. -/
def Convertible (f : IntFormat) : Value → Prop
  | .number (.int n _) => f.Holds n
  | .number (.float bits) => floatValue bits = 0
  | .string s => ∃ n, textInteger s = some n ∧ f.Holds n
  | _ => True

theorem IntFormat.holds_range {f : IntFormat} {n : ℤ} (hlen : f.len ≤ 8) (h : f.Holds n) :
    -2 ^ 63 ≤ n ∧ n < 2 ^ 64 := by
  have hpow : (256 : ℤ) ^ f.len ≤ 256 ^ 8 := pow_le_pow_right₀ (by norm_num) hlen
  have h8 : (256 : ℤ) ^ 8 = 2 ^ 64 := by norm_num
  unfold Holds at h
  split_ifs at h with hsigned
  · omega
  · omega

theorem IntFormat.holds_zero (f : IntFormat) : f.Holds 0 := by
  have hpos : (0 : ℤ) < 256 ^ f.len := by positivity
  unfold Holds
  split_ifs with hsigned
  · omega
  · omega

/-- A value that is taken for the integer of the type it stands for is kept. -/
theorem keepsValue_of_taken {codec : Codec} {f : IntFormat} (hf : (codec, f) ∈ integerCodecs)
    {v : Value} {n : ℤ} (hn : f.Holds n) (hv : denoted v = some (n : ℚ))
    (htaken : ∀ invalid, integerEncode f invalid v = .ok (BigEndian.write f.len n)) :
    KeepsValue codec f v := by
  obtain ⟨invalid, short, hencode, hdecode, hsize, -, hlen⟩ := integerCodecs_spec hf
  refine ⟨?_, fun hno => absurd ⟨n, hn, hv⟩ hno⟩
  intro bytes hbytes
  rw [hencode, htaken] at hbytes
  cases hbytes
  refine ⟨by rw [hsize, BigEndian.length_write], Number.ofInt n, ?_, ?_⟩
  · rw [hdecode]
    exact integerDecode_write hn short Value.ofInt
  · rw [hv, Number.value_ofInt (IntFormat.holds_range hlen hn)]

/-- A value the codec writes is one it had to write. -/
theorem KeepsValue.isIntegerOf {codec : Codec} {f : IntFormat} {v : Value} {bytes : List UInt8}
    (h : KeepsValue codec f v) (hbytes : codec.encode v = .ok bytes) : IsIntegerOf f v := by
  by_contra hno
  obtain ⟨message, hmessage⟩ := h.refused hno
  rw [hbytes] at hmessage
  cases hmessage

theorem keepsValue_int_iff {codec : Codec} {f : IntFormat} (hf : (codec, f) ∈ integerCodecs) {n : ℤ}
    (range : -2 ^ 63 ≤ n ∧ n < 2 ^ 64) :
    KeepsValue codec f (.number (.int n range)) ↔ f.Holds n := by
  obtain ⟨invalid, short, hencode, -, -, -, hlen⟩ := integerCodecs_spec hf
  have hbytes : codec.encode (.number (.int n range)) =
      .ok (BigEndian.write f.len (f.ofNumber (.int n range))) := by
    rw [hencode]
    rfl
  constructor
  · intro h
    obtain ⟨m, hm, hv⟩ := h.isIntegerOf hbytes
    obtain rfl : n = m := Int.cast_injective (Option.some.inj hv)
    exact hm
  · intro h
    refine keepsValue_of_taken hf h rfl ?_
    intro invalid
    rw [integerEncode, ← Number.ofInt_eq range, IntFormat.ofNumber_ofInt hlen h]

theorem keepsValue_float_iff {codec : Codec} {f : IntFormat} (hf : (codec, f) ∈ integerCodecs)
    (bits : UInt64) : KeepsValue codec f (.number (.float bits)) ↔ floatValue bits = 0 := by
  obtain ⟨invalid, short, hencode, hdecode, -, -, -⟩ := integerCodecs_spec hf
  have htaken : f.ofNumber (.float bits) = 0 := by
    unfold IntFormat.ofNumber
    split_ifs <;> rfl
  have hbytes : codec.encode (.number (.float bits)) = .ok (BigEndian.write f.len 0) := by
    rw [hencode, integerEncode, htaken]
  constructor
  · intro h
    obtain ⟨-, m, hdecoded, hv⟩ := h.accepted _ hbytes
    rw [hdecode, integerDecode_write f.holds_zero] at hdecoded
    cases hdecoded
    rw [Number.value_ofInt (by decide)] at hv
    exact Option.some.inj hv
  · intro h
    refine keepsValue_of_taken hf f.holds_zero (congrArg some h) ?_
    intro invalid
    rw [integerEncode, htaken]

theorem keepsValue_string_iff {codec : Codec} {f : IntFormat} (hf : (codec, f) ∈ integerCodecs)
    (s : String) : KeepsValue codec f (.string s) ↔ ∃ n, textInteger s = some n ∧ f.Holds n := by
  obtain ⟨invalid, short, hencode, -, -, hpos, -⟩ := integerCodecs_spec hf
  have hbytes : codec.encode (.string s) =
      .ok (BigEndian.write f.len ((f.parse s).getD 0)) := by
    rw [hencode]
    rfl
  constructor
  · intro h
    obtain ⟨m, hm, hv⟩ := h.isIntegerOf hbytes
    obtain ⟨n, hs, hn⟩ := Option.map_eq_some_iff.1 hv
    obtain rfl : n = m := Int.cast_injective hn
    exact ⟨n, hs, hm⟩
  · rintro ⟨n, hs, hn⟩
    refine keepsValue_of_taken hf hn (by rw [denoted, hs]; rfl) ?_
    intro invalid
    rw [integerEncode, IntFormat.parse_of_denotes hpos hs hn]

/-- **The values an integer codec keeps.** -/
theorem integerCodec_keepsValue_iff {codec : Codec} {f : IntFormat}
    (hf : (codec, f) ∈ integerCodecs) (v : Value) : KeepsValue codec f v ↔ Convertible f v := by
  cases v with
  | number n =>
      cases n with
      | int n range => exact keepsValue_int_iff hf range
      | float bits => exact keepsValue_float_iff hf bits
  | string s => exact keepsValue_string_iff hf s
  | _ =>
      obtain ⟨invalid, short, hencode, -⟩ := integerCodecs_spec hf
      -- Neither a number nor a text: refused, and an integer of no type.
      refine ⟨fun _ => trivial, fun _ => ⟨?_, ?_⟩⟩
      · intro bytes hbytes
        rw [hencode] at hbytes
        cases hbytes
      · intro _
        exact ⟨invalid, by rw [hencode]; rfl⟩

/-- The codec of an unsigned byte keeps 255. -/
theorem byteCodec_keepsValue_max : KeepsValue byteCodec ⟨1, false⟩ (.ofInt 255) :=
  (integerCodec_keepsValue_iff List.mem_cons_self (.ofInt 255)).2
    (show IntFormat.Holds ⟨1, false⟩ 255 by decide)

/-- It writes 256 as 0. -/
theorem byteCodec_not_keepsValue : ¬ KeepsValue byteCodec ⟨1, false⟩ (.ofInt 256) := by
  intro h
  obtain ⟨n, hn, hv⟩ := h.isIntegerOf rfl
  have hvalue : n = 256 := Int.cast_injective (Option.some.inj hv).symm
  subst hvalue
  exact absurd hn (by decide)

end FillingPilot
