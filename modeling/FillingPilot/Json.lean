/-
JSON values, as the program reads them.

A number is an integer of the range `serde_json` keeps exactly (`u64` and `i64` together) or a
binary64 float, kept as its bits; `as_u64` and `as_i64` answer only for integers of their own
range.  An object is a list of members read with `get`, where the first member of a name counts.

Main definitions:

* `Json.Number`, `Json.Value` — numbers and values;
* `Json.Value.get`, `Json.Value.asStr`, `Json.Value.asU64`, `Json.Value.asI64`,
  `Json.Value.asArray`, `Json.Value.asBool` — the accessors the parsers use;
* `Json.Number.ofInt` — the number built from a Rust integer.
-/

import Mathlib.Data.List.Basic
import Mathlib.Algebra.Order.Ring.Int

set_option relaxedAutoImplicit false
set_option autoImplicit false

namespace Json

/-- A JSON number. -/
inductive Number
  /-- An integer that fits `u64` or `i64`. -/
  | int (n : ℤ) (range : -2 ^ 63 ≤ n ∧ n < 2 ^ 64)
  /-- A finite binary64 number, by its bits. -/
  | float (bits : UInt64)
  deriving DecidableEq

namespace Number

/-- `Number::as_u64`. -/
def asU64 : Number → Option ℤ
  | int n _ => if 0 ≤ n then some n else none
  | float _ => none

/-- `Number::as_i64`. -/
def asI64 : Number → Option ℤ
  | int n _ => if n < 2 ^ 63 then some n else none
  | float _ => none

/-- The number made of a Rust integer; outside the exact range, which no Rust integer type of the
program leaves, it is 0. -/
def ofInt (n : ℤ) : Number :=
  if h : -2 ^ 63 ≤ n ∧ n < 2 ^ 64 then int n h else int 0 (by decide)

theorem ofInt_eq {n : ℤ} (h : -2 ^ 63 ≤ n ∧ n < 2 ^ 64) : ofInt n = int n h := by
  simp only [ofInt, dif_pos h]

end Number

/-- A JSON value. -/
inductive Value
  | null
  | bool (b : Bool)
  | number (n : Number)
  | string (s : String)
  | array (elems : List Value)
  | object (members : List (String × Value))

namespace Value

/-- A JSON integer. -/
def ofInt (n : ℤ) : Value := number (Number.ofInt n)

/-- `Value::get` with a name: the member of an object, nothing elsewhere. -/
def get (name : String) : Value → Option Value
  | object members => members.lookup name
  | _ => none

/-- `Value::as_str`. -/
def asStr : Value → Option String
  | string s => some s
  | _ => none

/-- `Value::as_u64`. -/
def asU64 : Value → Option ℤ
  | number n => n.asU64
  | _ => none

/-- `Value::as_i64`. -/
def asI64 : Value → Option ℤ
  | number n => n.asI64
  | _ => none

/-- `Value::as_array`. -/
def asArray : Value → Option (List Value)
  | array elems => some elems
  | _ => none

/-- `Value::as_bool`. -/
def asBool : Value → Option Bool
  | bool b => some b
  | _ => none

theorem asU64_nonneg {v : Value} {n : ℤ} (h : v.asU64 = some n) : 0 ≤ n := by
  unfold asU64 at h
  split at h
  · unfold Number.asU64 at h
    split at h
    · split_ifs at h with hnonneg
      exact Option.some.inj h ▸ hnonneg
    · cases h
  · cases h

theorem asU64_lt {v : Value} {n : ℤ} (h : v.asU64 = some n) : n < 2 ^ 64 := by
  unfold asU64 at h
  split at h
  · unfold Number.asU64 at h
    split at h
    · rename_i range
      split_ifs at h
      exact Option.some.inj h ▸ range.2
    · cases h
  · cases h

theorem asI64_lt {v : Value} {n : ℤ} (h : v.asI64 = some n) : n < 2 ^ 63 := by
  unfold asI64 at h
  split at h
  · unfold Number.asI64 at h
    split at h
    · split_ifs at h with hlt
      exact Option.some.inj h ▸ hlt
    · cases h
  · cases h

theorem asU64_ofInt {n : ℤ} (h0 : 0 ≤ n) (h1 : n < 2 ^ 64) : (ofInt n).asU64 = some n := by
  have hrange : -2 ^ 63 ≤ n ∧ n < 2 ^ 64 := ⟨by omega, h1⟩
  rw [ofInt, Number.ofInt_eq hrange, asU64, Number.asU64, if_pos h0]

theorem asI64_ofInt {n : ℤ} (h0 : -2 ^ 63 ≤ n) (h1 : n < 2 ^ 63) : (ofInt n).asI64 = some n := by
  have hrange : -2 ^ 63 ≤ n ∧ n < 2 ^ 64 := ⟨h0, by omega⟩
  rw [ofInt, Number.ofInt_eq hrange, asI64, Number.asI64, if_pos h1]

end Value

end Json
