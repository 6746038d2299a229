/-
The codecs of the PLC data types and their registry.

A codec writes a JSON value as bytes and reads bytes back.  What the codecs take from elsewhere —
binary floating point, the printing of JSON, calendar time — is a parameter, `Host`; integers,
texts and their encodings are computed here.

Main definitions:

* `FillingPilot.Host` — what the codecs take from elsewhere;
* `FillingPilot.Codec` — a codec;
* `FillingPilot.IntFormat`, `FillingPilot.integerEncode`, `FillingPilot.integerDecode` — the integer
  codecs, by width and sign;
* `FillingPilot.codecs`, `FillingPilot.getCodec` — the registry;
* `FillingPilot.integerCodecs` — the six integer codecs and their ranges;
* `FillingPilot.encodedLength` — the bytes a type takes for a value.

Main results:

* `FillingPilot.integerEncode_ofInt`, `FillingPilot.integerDecode_write` — **the integer round
  trip**;
* `FillingPilot.charDecode_ofNat` — the round trip of a character;
* `FillingPilot.getCodec_cases` — the cases of the registry;
* `FillingPilot.length_of_encode` — **the length of an encoded value**, for every codec.
-/

import FillingPilot.BigEndian
import FillingPilot.Json
import FillingPilot.Outcome
import FillingPilot.RustStd

set_option relaxedAutoImplicit false
set_option autoImplicit false

namespace FillingPilot

open Json Rust

/-! ### Parameters -/

/-- The fields of a parsed timestamp that the codecs use: local calendar fields, and the instant in
milliseconds. -/
structure DateTime where
  year : ℤ
  month : ℕ
  day : ℕ
  hour : ℕ
  minute : ℕ
  second : ℕ
  numDaysFromSunday : ℕ
  timestampMillis : ℤ

/-- What the codecs take from elsewhere: floating point (by bits), JSON printing, calendar time. -/
structure Host where
  /-- `Value::to_string`. -/
  printJson : Value → String
  /-- The message of a failed `String::from_utf8`. -/
  utf8Error : List UInt8 → String
  /-- `Number::as_f64`, then `as f32`. -/
  toF32 : Number → UInt32
  /-- `str::parse::<f32>`. -/
  parseF32 : String → Option UInt32
  /-- `as f64`, then `Number::from_f64`. -/
  fromF32 : UInt32 → Option Number
  /-- `str::parse::<f64>`. -/
  parseF64 : String → Except String UInt64
  /-- An `f64` as text. -/
  printF64 : UInt64 → String
  /-- `DateTime::parse_from_rfc3339`. -/
  parseFromRfc3339 : String → Except String DateTime
  /-- `DateTime::from_timestamp` with seconds and nanoseconds, as text to the second. -/
  fromTimestamp : ℤ → ℕ → Option String

/-- A codec.  Writing does no more than fill a new vector and cannot panic. -/
structure Codec where
  name : String
  encode : Value → Except String (List UInt8)
  decode : List UInt8 → Outcome Value
  byteSize : Option ℕ

/-! ### Integers -/

/-- The layout of an integer type: its width in bytes and whether it is signed. -/
structure IntFormat where
  len : ℕ
  signed : Bool

namespace IntFormat

variable (f : IntFormat)

/-- The integers of the type. -/
def Holds (n : ℤ) : Prop :=
  if f.signed then -256 ^ f.len ≤ n * 2 ∧ n * 2 < 256 ^ f.len else 0 ≤ n ∧ n < 256 ^ f.len

instance (n : ℤ) : Decidable (f.Holds n) := by
  unfold Holds
  infer_instance

/-- The number a JSON number is taken for before it is cut to the width of the type. -/
def ofNumber (n : Number) : ℤ := ((if f.signed then n.asI64 else n.asU64)).getD 0

/-- `str::parse` into the type. -/
def parse (s : String) : Option ℤ :=
  if f.signed then parseSigned (8 * f.len) s else parseUnsigned (8 * f.len) s

/-- The number that many bytes denote. -/
def read (bytes : List UInt8) : ℤ :=
  if f.signed then BigEndian.readSigned f.len bytes else BigEndian.value bytes

variable {f}

theorem read_write {n : ℤ} (h : f.Holds n) : f.read (BigEndian.write f.len n) = n := by
  unfold Holds at h
  unfold read
  split_ifs at h ⊢ with hsigned
  · exact BigEndian.readSigned_write h.1 h.2
  · exact BigEndian.value_write h.1 h.2

theorem ofNumber_ofInt {n : ℤ} (hlen : f.len ≤ 8) (h : f.Holds n) :
    f.ofNumber (Number.ofInt n) = n := by
  have hpow : (256 : ℤ) ^ f.len ≤ 256 ^ 8 := pow_le_pow_right₀ (by norm_num) hlen
  have h8 : (256 : ℤ) ^ 8 = 2 ^ 64 := by norm_num
  unfold Holds at h
  unfold ofNumber
  split_ifs at h ⊢ with hsigned
  · have hrange : -2 ^ 63 ≤ n ∧ n < 2 ^ 64 := by omega
    rw [Number.ofInt_eq hrange, Number.asI64, if_pos (by omega), Option.getD_some]
  · have hrange : -2 ^ 63 ≤ n ∧ n < 2 ^ 64 := by omega
    rw [Number.ofInt_eq hrange, Number.asU64, if_pos h.1, Option.getD_some]

end IntFormat

/-- The bytes of a number or of a decimal text; what cannot be read is 0. -/
def integerEncode (f : IntFormat) (invalid : String) : Value → Except String (List UInt8)
  | .number n => .ok (BigEndian.write f.len (f.ofNumber n))
  | .string s => .ok (BigEndian.write f.len ((f.parse s).getD 0))
  | _ => .error invalid

/-- The number in the first bytes, shown as a JSON value. -/
def integerDecode (f : IntFormat) (short : String) (toJson : ℤ → Value) (bytes : List UInt8) :
    Outcome Value :=
  if bytes.length < f.len then .err short
  else do
    let head ← slice 0 f.len bytes
    return toJson (f.read head)

/-- **The integer round trip**, writing: a number of the type takes the width of the type. -/
theorem integerEncode_ofInt {f : IntFormat} (hlen : f.len ≤ 8) {n : ℤ} (h : f.Holds n)
    (invalid : String) :
    integerEncode f invalid (.ofInt n) = .ok (BigEndian.write f.len n) := by
  rw [Value.ofInt, integerEncode, IntFormat.ofNumber_ofInt hlen h]

/-- **The integer round trip**, reading. -/
theorem integerDecode_write {f : IntFormat} {n : ℤ} (h : f.Holds n) (short : String)
    (toJson : ℤ → Value) :
    integerDecode f short toJson (BigEndian.write f.len n) = .ok (toJson n) := by
  have hlen : (BigEndian.write f.len n).length = f.len := BigEndian.length_write _ _
  rw [integerDecode, if_neg (by omega), slice_all hlen, Outcome.ok_bind, IntFormat.read_write h]
  rfl

theorem length_integerEncode {f : IntFormat} {invalid : String} {value : Value}
    {bytes : List UInt8} (h : integerEncode f invalid value = .ok bytes) :
    bytes.length = f.len := by
  cases value with
  | number n =>
      cases h
      exact BigEndian.length_write _ _
  | string s =>
      cases h
      exact BigEndian.length_write _ _
  | _ => cases h

/-- `ByteCodec`. -/
def byteCodec : Codec where
  name := "byte"
  encode := integerEncode ⟨1, false⟩ "Invalid byte"
  decode := integerDecode ⟨1, false⟩ "Empty" Value.ofInt
  byteSize := some 1

/-- `IntegerCodec`. -/
def integerCodec : Codec where
  name := "integer"
  encode := integerEncode ⟨2, true⟩ "Invalid int"
  decode := integerDecode ⟨2, true⟩ "Not enough" Value.ofInt
  byteSize := some 2

/-- `WordCodec`. -/
def wordCodec : Codec where
  name := "word"
  encode := integerEncode ⟨2, false⟩ "Invalid word"
  decode := integerDecode ⟨2, false⟩ "Not enough" Value.ofInt
  byteSize := some 2

/-- `DWordCodec`. -/
def dwordCodec : Codec where
  name := "dword"
  encode := integerEncode ⟨4, false⟩ "Invalid dword"
  decode := integerDecode ⟨4, false⟩ "Not enough" Value.ofInt
  byteSize := some 4

/-- `DIntCodec`. -/
def dintCodec : Codec where
  name := "dint"
  encode := integerEncode ⟨4, true⟩ "Invalid dint"
  decode := integerDecode ⟨4, true⟩ "Not enough" Value.ofInt
  byteSize := some 4

/-- `LIntCodec`. -/
def lintCodec : Codec where
  name := "lint"
  encode := integerEncode ⟨8, true⟩ "Invalid lint"
  decode := integerDecode ⟨8, true⟩ "Not enough" Value.ofInt
  byteSize := some 8

/-- `IntegerAsBigDecimalCodec`. -/
def integerAsBigDecimalCodec : Codec where
  name := "intAsBigDecimal"
  encode := integerEncode ⟨2, true⟩ "Invalid intAsBigDecimal"
  decode := integerDecode ⟨2, true⟩ "Not enough" fun n => .string (toString n)
  byteSize := some 2

/-- `LongAsIntCodec`: what is read is cut to an `i16`. -/
def longAsIntCodec : Codec where
  name := "longAsInt"
  encode := integerEncode ⟨8, true⟩ "Invalid longAsInt"
  decode := integerDecode ⟨8, true⟩ "Not enough" fun n => .ofInt (Int.bmod n (2 ^ 16))
  byteSize := some 8

/-! ### Booleans and characters -/

/-- The number is not zero as a float. -/
def isNonzero : Number → Bool
  | .int n _ => n ≠ 0
  | .float bits => bits &&& 0x7FFFFFFFFFFFFFFF ≠ 0

/-- `BooleanCodec::encode`. -/
def booleanEncode : Value → Except String (List UInt8)
  | .bool b => .ok [if b then 1 else 0]
  | .number n => .ok [if isNonzero n then 1 else 0]
  | .string s => .ok [if toLowercase s ∈ ["true", "1", "on"] then 1 else 0]
  | _ => .error "Invalid boolean"

theorem length_booleanEncode {value : Value} {bytes : List UInt8}
    (h : booleanEncode value = .ok bytes) : bytes.length = 1 := by
  cases value with
  | null => cases h
  | array elems => cases h
  | object members => cases h
  | _ =>
      cases h
      rfl

/-- `BooleanCodec::decode`. -/
def booleanDecode (bytes : List UInt8) : Outcome Value :=
  if bytes = [] then .err "Empty"
  else do
    let b ← index bytes 0
    return .bool (b ≠ 0)

/-- `BooleanCodec`. -/
def booleanCodec : Codec where
  name := "boolean"
  encode := booleanEncode
  decode := booleanDecode
  byteSize := some 1

/-- `CharCodec::encode`: the low byte of the first character. -/
def charEncode : Value → Except String (List UInt8)
  | .string s => .ok [UInt8.ofNat (s.toList.headD ' ').toNat]
  | .number n => .ok (BigEndian.write 1 (n.asU64.getD 0))
  | _ => .error "Invalid char"

theorem length_charEncode {value : Value} {bytes : List UInt8} (h : charEncode value = .ok bytes) :
    bytes.length = 1 := by
  cases value with
  | number n =>
      cases h
      exact BigEndian.length_write _ _
  | string s =>
      cases h
      rfl
  | _ => cases h

/-- `CharCodec::decode`. -/
def charDecode (bytes : List UInt8) : Outcome Value :=
  if bytes = [] then .err "Empty"
  else do
    let b ← index bytes 0
    return .string (String.singleton (Char.ofNat b.toNat))

theorem charDecode_ofNat {c : Char} (h : c.toNat < 256) :
    charDecode [UInt8.ofNat c.toNat] = .ok (.string (String.singleton c)) := by
  have hbyte : (UInt8.ofNat c.toNat).toNat = c.toNat := UInt8.toNat_ofNat_of_lt' h
  have hchar : Char.ofNat c.toNat = c := Char.ofNat_toNat c
  simp only [charDecode, List.cons_ne_nil, if_false]
  rw [index]
  simp [hbyte, hchar]

/-- `CharCodec`. -/
def charCodec : Codec where
  name := "char"
  encode := charEncode
  decode := charDecode
  byteSize := some 1

/-! ### Texts -/

/-- The UTF-8 bytes of a text. -/
def utf8Bytes (s : String) : List UInt8 := s.toList.flatMap String.utf8EncodeChar

/-- The text that is written for a value: itself, or its JSON. -/
def stringText (host : Host) : Value → String
  | .string s => s
  | value => host.printJson value

/-- `StringCodec::encode`: capacity, length, bytes. -/
def stringEncode (host : Host) (value : Value) : Except String (List UInt8) :=
  let bytes := utf8Bytes (stringText host value)
  if 254 < bytes.length then .error "Too long"
  else .ok ([254, UInt8.ofNat bytes.length] ++ bytes)

theorem length_stringEncode {host : Host} {value : Value} {bytes : List UInt8}
    (h : stringEncode host value = .ok bytes) :
    bytes.length = 2 + (utf8Bytes (stringText host value)).length := by
  simp only [stringEncode] at h
  split_ifs at h
  cases h
  exact List.length_append

/-- `StringCodec::decode`. -/
def stringDecode (host : Host) (bytes : List UInt8) : Outcome Value :=
  if bytes.length < 2 then .err "Header"
  else do
    let len := (← index bytes 1).toNat
    if bytes.length < 2 + len then .err "Truncated"
    else
      let data ← slice 2 (2 + len) bytes
      match String.fromUTF8? ⟨data.toArray⟩ with
      | some s => return .string s
      | none => .err (host.utf8Error data)

/-- `StringCodec`. -/
def stringCodec (host : Host) : Codec where
  name := "string"
  encode := stringEncode host
  decode := stringDecode host
  byteSize := none

/-- The UTF-16 code units of a character. -/
def utf16Units (c : Char) : List ℕ :=
  if c.toNat < 0x10000 then [c.toNat]
  else [0xD800 + (c.toNat - 0x10000) / 0x400, 0xDC00 + (c.toNat - 0x10000) % 0x400]

/-- `String::from_utf16_lossy`: a surrogate without its other half is a replacement character. -/
def fromUtf16Lossy : List ℕ → List Char
  | [] => []
  | u :: us =>
      if u < 0xD800 ∨ 0xE000 ≤ u then Char.ofNat u :: fromUtf16Lossy us
      else match us with
        | [] => [Char.ofNat 0xFFFD]
        | v :: vs =>
            if u < 0xDC00 ∧ 0xDC00 ≤ v ∧ v < 0xE000 then
              Char.ofNat (0x10000 + (u - 0xD800) * 0x400 + (v - 0xDC00)) :: fromUtf16Lossy vs
            else Char.ofNat 0xFFFD :: fromUtf16Lossy (v :: vs)

/-- `WStringCodec::encode`: capacity and length in characters, little-endian, then the code units,
big-endian. -/
def wstringEncode : Value → Except String (List UInt8)
  | .string s =>
      let units := s.toList.flatMap utf16Units
      let utf16 := units.flatMap fun u => BigEndian.bytes 2 u
      let charCount := utf16.length / 2
      .ok ([254, 0, UInt8.ofNat charCount, UInt8.ofNat (charCount / 256)] ++ utf16)
  | _ => .error "WString needs string"

theorem length_wstringEncode {s : String} {bytes : List UInt8}
    (h : wstringEncode (.string s) = .ok bytes) :
    bytes.length = 4 + 2 * (s.toList.flatMap utf16Units).length := by
  cases h
  have hunits : ∀ units : List ℕ,
      (units.flatMap fun u => BigEndian.bytes 2 u).length = 2 * units.length := by
    intro units
    simp [List.length_flatMap, Nat.mul_comm]
  rw [List.length_append, hunits]
  rfl

/-- The big-endian code units `WStringCodec::decode` reads: from byte 2 on. -/
def wstringUnits (bytes : List UInt8) (len : ℕ) : Outcome (List ℕ) :=
  (List.range len).mapM fun i => do
    let hi ← index bytes (2 + i * 2)
    let lo ← index bytes (2 + i * 2 + 1)
    return BigEndian.value [hi, lo]

/-- `WStringCodec::decode`. -/
def wstringDecode (bytes : List UInt8) : Outcome Value :=
  if bytes.length < 4 then .err "WString header too short"
  else do
    let lo ← index bytes 0
    let hi ← index bytes 1
    let len := BigEndian.value [hi, lo]
    if bytes.length < 4 + len * 2 then .err "WString truncated"
    else
      let utf16 ← wstringUnits bytes len
      return .string (String.ofList (fromUtf16Lossy utf16))

/-- `WStringCodec`. -/
def wstringCodec : Codec where
  name := "wstring"
  encode := wstringEncode
  decode := wstringDecode
  byteSize := none

/-- `IpCodec::encode`. -/
def ipEncode : Value → Except String (List UInt8)
  | .string s => do
      let parts ← (s.toList.splitOn '.').mapM fun p =>
        match parseUnsigned 8 (String.ofList p) with
        | some n => Except.ok (UInt8.ofNat n.toNat)
        | none => Except.error "Bad IP"
      if parts.length ≠ 4 then .error "Invalid IP" else .ok parts
  | _ => .error "IP must be string"

theorem length_ipEncode {value : Value} {bytes : List UInt8} (h : ipEncode value = .ok bytes) :
    bytes.length = 4 := by
  cases value with
  | string s =>
      rw [ipEncode] at h
      obtain ⟨parts, -, h⟩ := bind_eq_ok.1 h
      split_ifs at h with hlen
      cases h
      exact not_not.1 hlen
  | _ => cases h

/-- `IpCodec::decode`. -/
def ipDecode (bytes : List UInt8) : Outcome Value :=
  if bytes.length < 4 then .err "Not enough"
  else do
    let a ← index bytes 0
    let b ← index bytes 1
    let c ← index bytes 2
    let d ← index bytes 3
    return .string (".".intercalate ([a, b, c, d].map fun n => toString n.toNat))

/-- `IpCodec`. -/
def ipCodec : Codec where
  name := "ip"
  encode := ipEncode
  decode := ipDecode
  byteSize := some 4

/-! ### Floating point -/

/-- `RealCodec::encode`. -/
def realEncode (host : Host) : Value → Except String (List UInt8)
  | .number n => .ok (BigEndian.write 4 (host.toF32 n).toNat)
  | .string s => .ok (BigEndian.write 4 ((host.parseF32 s).getD 0).toNat)
  | _ => .error "Invalid real"

theorem length_realEncode {host : Host} {value : Value} {bytes : List UInt8}
    (h : realEncode host value = .ok bytes) : bytes.length = 4 := by
  cases value with
  | number n =>
      cases h
      exact BigEndian.length_write _ _
  | string s =>
      cases h
      exact BigEndian.length_write _ _
  | _ => cases h

/-- `RealCodec::decode`: a number JSON cannot hold is 0. -/
def realDecode (host : Host) (bytes : List UInt8) : Outcome Value :=
  if bytes.length < 4 then .err "Not enough"
  else do
    let head ← slice 0 4 bytes
    return .number ((host.fromF32 (UInt32.ofNat (BigEndian.value head))).getD (Number.ofInt 0))

/-- `RealCodec`. -/
def realCodec (host : Host) : Codec where
  name := "real"
  encode := realEncode host
  decode := realDecode host
  byteSize := some 4

/-- The `encode` of the codecs for texts that are read first, and written as what was read. -/
def textEncode {α : Type} (invalid : String) (read : String → Except String α)
    (write : α → List UInt8) : Value → Except String (List UInt8)
  | .string s => do
      let a ← read s
      return write a
  | _ => .error invalid

theorem textEncode_of_read {α : Type} {read : String → Except String α} {s : String} {a : α}
    (h : read s = .ok a) (invalid : String) (write : α → List UInt8) :
    textEncode invalid read write (.string s) = .ok (write a) := by
  rw [textEncode, h]
  rfl

theorem length_textEncode {α : Type} {invalid : String} {read : String → Except String α}
    {write : α → List UInt8} {n : ℕ} (hwrite : ∀ a, (write a).length = n) {value : Value}
    {bytes : List UInt8} (h : textEncode invalid read write value = .ok bytes) :
    bytes.length = n := by
  cases value with
  | string s =>
      obtain ⟨a, -, h⟩ := bind_eq_ok.1 h
      cases h
      exact hwrite a
  | _ => cases h

/-- `BigDecimalCodec::encode`. -/
def bigDecimalEncode (host : Host) : Value → Except String (List UInt8) :=
  textEncode "Need string" host.parseF64 fun v => BigEndian.write 8 v.toNat

/-- `BigDecimalCodec::decode`. -/
def bigDecimalDecode (host : Host) (bytes : List UInt8) : Outcome Value :=
  if bytes.length < 8 then .err "Not enough"
  else do
    let head ← slice 0 8 bytes
    return .string (host.printF64 (UInt64.ofNat (BigEndian.value head)))

/-- `BigDecimalCodec`. -/
def bigDecimalCodec (host : Host) : Codec where
  name := "bigdecimal"
  encode := bigDecimalEncode host
  decode := bigDecimalDecode host
  byteSize := some 8

/-! ### Times -/

/-- `DateTimeCodec::encode`: plain bytes, not BCD; the weekday counts from 1 on Sunday. -/
def dateTimeEncode (host : Host) : Value → Except String (List UInt8) :=
  textEncode "Invalid datetime" host.parseFromRfc3339 fun dt =>
    let centis := (dt.timestampMillis.tmod 1000).tdiv 10
    BigEndian.write 1 ((dt.year - 2000).tmod 100) ++
      ([dt.month, dt.day, dt.hour, dt.minute, dt.second, dt.numDaysFromSunday + 1].map
        UInt8.ofNat) ++ BigEndian.write 1 centis

/-- A number with at least `width` digits. -/
def padded (width n : ℕ) : String :=
  String.ofList ((toString n).toList.leftpad width '0')

/-- `DateTimeCodec::decode`. -/
def dateTimeDecode (bytes : List UInt8) : Outcome Value :=
  if bytes.length < 8 then .err "Not enough"
  else do
    let year ← index bytes 0
    let month ← index bytes 1
    let day ← index bytes 2
    let hour ← index bytes 3
    let minute ← index bytes 4
    let second ← index bytes 5
    return .string (padded 4 (2000 + year.toNat) ++ "-" ++ padded 2 month.toNat ++ "-" ++
      padded 2 day.toNat ++ "T" ++ padded 2 hour.toNat ++ ":" ++ padded 2 minute.toNat ++ ":" ++
      padded 2 second.toNat ++ "Z")

/-- `DateTimeCodec`. -/
def dateTimeCodec (host : Host) : Codec where
  name := "datetime"
  encode := dateTimeEncode host
  decode := dateTimeDecode
  byteSize := none

/-- `LongAsDateTimeCodec::encode`. -/
def longAsDateTimeEncode (host : Host) : Value → Except String (List UInt8) :=
  textEncode "Need datetime string" host.parseFromRfc3339 fun dt =>
    BigEndian.write 8 dt.timestampMillis

/-- `LongAsDateTimeCodec::decode`: the nanoseconds are an overflow-checked `u32` product. -/
def longAsDateTimeDecode (host : Host) (bytes : List UInt8) : Outcome Value :=
  if bytes.length < 8 then .err "Not enough"
  else do
    let head ← slice 0 8 bytes
    let millis := BigEndian.readSigned 8 head
    let secs := millis.tdiv 1000
    let remaining := ((millis.tmod 1000) % 2 ^ 32).toNat
    if 2 ^ 32 ≤ remaining * 1000000 then .panic
    else match host.fromTimestamp secs (remaining * 1000000) with
      | some s => return .string s
      | none => .err ("Invalid timestamp: " ++ toString millis)

/-- `LongAsDateTimeCodec`. -/
def longAsDateTimeCodec (host : Host) : Codec where
  name := "longAsDateTime"
  encode := longAsDateTimeEncode host
  decode := longAsDateTimeDecode host
  byteSize := some 8

/-! ### The registry -/

/-- The registered codecs, by name. -/
def codecs (host : Host) : List (String × Codec) :=
  [("boolean", booleanCodec), ("byte", byteCodec), ("integer", integerCodec), ("word", wordCodec),
    ("dword", dwordCodec), ("dint", dintCodec), ("lint", lintCodec), ("real", realCodec host),
    ("string", stringCodec host), ("datetime", dateTimeCodec host),
    ("bigdecimal", bigDecimalCodec host), ("ip", ipCodec), ("char", charCodec),
    ("wstring", wstringCodec), ("intAsBigDecimal", integerAsBigDecimalCodec),
    ("longAsInt", longAsIntCodec), ("longAsDateTime", longAsDateTimeCodec host)]

/-- `CodecRegistry::get`. -/
def getCodec (host : Host) (name : String) : Option Codec := (codecs host).lookup name

/-- **The cases of the registry**: what holds of every registered codec under its name holds of what
the registry gives. -/
theorem getCodec_cases {host : Host}
    {motive : (type : String) → (codec : Codec) → getCodec host type = some codec → Prop}
    (boolean : motive "boolean" booleanCodec rfl)
    (byte : motive "byte" byteCodec rfl)
    (integer : motive "integer" integerCodec rfl)
    (word : motive "word" wordCodec rfl)
    (dword : motive "dword" dwordCodec rfl)
    (dint : motive "dint" dintCodec rfl)
    (lint : motive "lint" lintCodec rfl)
    (real : motive "real" (realCodec host) rfl)
    (string : motive "string" (stringCodec host) rfl)
    (datetime : motive "datetime" (dateTimeCodec host) rfl)
    (bigdecimal : motive "bigdecimal" (bigDecimalCodec host) rfl)
    (ip : motive "ip" ipCodec rfl)
    (char : motive "char" charCodec rfl)
    (wstring : motive "wstring" wstringCodec rfl)
    (intAsBigDecimal : motive "intAsBigDecimal" integerAsBigDecimalCodec rfl)
    (longAsInt : motive "longAsInt" longAsIntCodec rfl)
    (longAsDateTime : motive "longAsDateTime" (longAsDateTimeCodec host) rfl)
    {type : String} {codec : Codec} (h : getCodec host type = some codec) :
    motive type codec h := by
  obtain ⟨before, after, hsplit, -⟩ := List.lookup_eq_some_iff.1 h
  have hmem : (type, codec) ∈ codecs host := by
    rw [hsplit]
    exact List.mem_append_right _ List.mem_cons_self
  simp only [codecs, List.mem_cons, Prod.mk.injEq, List.not_mem_nil, or_false] at hmem
  rcases hmem with ⟨rfl, rfl⟩ | ⟨rfl, rfl⟩ | ⟨rfl, rfl⟩ | ⟨rfl, rfl⟩ | ⟨rfl, rfl⟩ | ⟨rfl, rfl⟩ |
    ⟨rfl, rfl⟩ | ⟨rfl, rfl⟩ | ⟨rfl, rfl⟩ | ⟨rfl, rfl⟩ | ⟨rfl, rfl⟩ | ⟨rfl, rfl⟩ | ⟨rfl, rfl⟩ |
    ⟨rfl, rfl⟩ | ⟨rfl, rfl⟩ | ⟨rfl, rfl⟩ | ⟨rfl, rfl⟩ <;> assumption

/-- The number of bytes a type takes for a value that its codec accepts: what the codec declares,
except for the three that declare nothing. -/
def encodedLength (host : Host) (type : String) (value : Value) : ℕ :=
  match type, value with
  | "string", value => 2 + (utf8Bytes (stringText host value)).length
  | "wstring", .string s => 4 + 2 * (s.toList.flatMap utf16Units).length
  | "datetime", _ => 8
  | type, _ => ((getCodec host type).bind Codec.byteSize).getD 0

/-- **The length of an encoded value**, for every registered codec. -/
theorem length_of_encode {host : Host} {type : String} {codec : Codec} {value : Value}
    {bytes : List UInt8} (hcodec : getCodec host type = some codec)
    (hencode : codec.encode value = .ok bytes) :
    bytes.length = encodedLength host type value := by
  cases hcodec using getCodec_cases with
  | boolean => exact length_booleanEncode hencode
  | byte | integer | word | dword | dint | lint | intAsBigDecimal | longAsInt =>
      exact length_integerEncode hencode
  | real => exact length_realEncode hencode
  | string => exact length_stringEncode hencode
  | datetime => exact length_textEncode (fun dt => by simp [encodedLength]) hencode
  | bigdecimal | longAsDateTime =>
      exact length_textEncode (fun _ => BigEndian.length_write _ _) hencode
  | ip => exact length_ipEncode hencode
  | char => exact length_charEncode hencode
  | wstring =>
      cases value with
      | string s => exact length_wstringEncode hencode
      | _ => cases hencode

/-- The integer codecs and the integers of their types. -/
def integerCodecs : List (Codec × IntFormat) :=
  [(byteCodec, ⟨1, false⟩), (integerCodec, ⟨2, true⟩), (wordCodec, ⟨2, false⟩),
    (dwordCodec, ⟨4, false⟩), (dintCodec, ⟨4, true⟩), (lintCodec, ⟨8, true⟩)]

/-- What the integer codecs have in common. -/
theorem integerCodecs_spec {codec : Codec} {f : IntFormat} (hf : (codec, f) ∈ integerCodecs) :
    ∃ invalid short, codec.encode = integerEncode f invalid ∧
      codec.decode = integerDecode f short Value.ofInt ∧ codec.byteSize = some f.len ∧
      0 < f.len ∧ f.len ≤ 8 := by
  simp only [integerCodecs, List.mem_cons, Prod.mk.injEq, List.not_mem_nil, or_false] at hf
  rcases hf with ⟨rfl, rfl⟩ | ⟨rfl, rfl⟩ | ⟨rfl, rfl⟩ | ⟨rfl, rfl⟩ | ⟨rfl, rfl⟩ | ⟨rfl, rfl⟩
  · exact ⟨_, _, rfl, rfl, rfl, by decide, by decide⟩
  · exact ⟨_, _, rfl, rfl, rfl, by decide, by decide⟩
  · exact ⟨_, _, rfl, rfl, rfl, by decide, by decide⟩
  · exact ⟨_, _, rfl, rfl, rfl, by decide, by decide⟩
  · exact ⟨_, _, rfl, rfl, rfl, by decide, by decide⟩
  · exact ⟨_, _, rfl, rfl, rfl, by decide, by decide⟩

theorem getCodec_integerCodecs (host : Host) :
    ∀ e ∈ integerCodecs, getCodec host e.1.name = some e.1 := by
  simp only [integerCodecs, List.forall_mem_cons]
  exact ⟨rfl, rfl, rfl, rfl, rfl, rfl, nofun⟩

/-- A host for values that need nothing from elsewhere. -/
def bareHost : Host where
  printJson := fun _ => ""
  utf8Error := fun _ => ""
  toF32 := fun _ => 0
  parseF32 := fun _ => none
  fromF32 := fun _ => none
  parseF64 := fun _ => .error ""
  printF64 := fun _ => ""
  parseFromRfc3339 := fun _ => .error ""
  fromTimestamp := fun _ _ => none

end FillingPilot
