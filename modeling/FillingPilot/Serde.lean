/-
Records in JSON, as the derived writers and readers have them.

A record is written as an object with a member for each field, in the order of the fields; a field
that is none can be left out.  It is read from an object, where the members may stand in any order
and members of other names do not count, or from an array of the values in the order of the fields.
A field that is there twice is an error, and so is one that is not there and has no default.

Main definitions:

* `Json.readUnsigned`, `Json.readVec`, `Json.readMap`, `Json.readOption` — the readers of values;
* `Json.fieldValues` — the values a record has for a field;
* `Json.required`, `Json.defaulted`, `Json.optional` — the readers of fields;
* `Json.writeOptional` — the member of a field that is left out when it is none.

Main results:

* `Json.readVec_map`, `Json.readMap_map` — a vector and a map are read back if their elements are;
* `Json.required_written`, `Json.defaulted_written`, `Json.optional_written` — **a field is read
  back** from an object without repeated names that has its member.
-/

import FillingPilot.Json
import Mathlib.Data.List.Nodup

set_option relaxedAutoImplicit false
set_option autoImplicit false

namespace Json

variable {α β : Type}

/-! ### Values -/

/-- An unsigned integer of so many bits. -/
def readUnsigned (bits : ℕ) (v : Value) : Option ℕ :=
  (v.asU64.filter fun n => decide (n < 2 ^ bits)).map Int.toNat

/-- A vector is read from an array, element by element. -/
def readVec (read : Value → Option α) : Value → Option (List α)
  | .array elems => elems.mapM read
  | _ => none

/-- A map is read from an object, member by member; the first error ends the reading. -/
def readMap (readKey : String → Option α) (read : Value → Option β) : Value → Option (List (α × β))
  | .object members => members.mapM fun m => do
      let key ← readKey m.1
      let value ← read m.2
      return (key, value)
  | _ => none

/-- An optional value: `null` stands for none. -/
def readOption (read : Value → Option α) : Value → Option (Option α)
  | .null => some none
  | v => (read v).map some

theorem readUnsigned_ofInt {bits n : ℕ} (hbits : bits ≤ 64) (h : n < 2 ^ bits) :
    readUnsigned bits (.ofInt n) = some n := by
  have hle : (2 : ℤ) ^ bits ≤ 2 ^ 64 := pow_le_pow_right₀ (by decide) hbits
  have hlt : (n : ℤ) < 2 ^ bits := by exact_mod_cast h
  rw [readUnsigned, Value.asU64_ofInt (by omega) (by omega), Option.filter_some,
    if_pos (decide_eq_true hlt), Option.map_some, Int.toNat_natCast]

theorem readUnsigned_lt {bits : ℕ} {v : Value} {n : ℕ} (h : readUnsigned bits v = some n) :
    n < 2 ^ bits := by
  obtain ⟨i, hi, rfl⟩ := Option.map_eq_some_iff.1 h
  have hlt : i < 2 ^ bits := of_decide_eq_true (Option.filter_eq_some_iff.1 hi).2
  have hcast : ((2 ^ bits : ℕ) : ℤ) = 2 ^ bits := by norm_cast
  have hpos : 0 < 2 ^ bits := Nat.two_pow_pos bits
  omega

theorem readOption_of_ne_null {read : Value → Option α} {v : Value} (h : v ≠ .null) :
    readOption read v = (read v).map some := by
  cases v with
  | null => exact absurd rfl h
  | _ => rfl

theorem readVec_map {read : Value → Option α} {write : α → Value} {l : List α}
    (h : ∀ a ∈ l, read (write a) = some a) : readVec read (.array (l.map write)) = some l := by
  rw [readVec]
  induction l with
  | nil => rfl
  | cons a l ih =>
      have hrest := ih fun b hb => h b (List.mem_cons_of_mem a hb)
      rw [List.map_cons, List.mapM_cons, h a List.mem_cons_self, hrest]
      rfl

theorem exists_of_mem_mapM {f : α → Option β} {as : List α} {bs : List β}
    (h : as.mapM f = some bs) : ∀ b ∈ bs, ∃ a ∈ as, f a = some b := by
  induction as generalizing bs with
  | nil =>
      obtain rfl := Option.some.inj h
      exact nofun
  | cons a as ih =>
      rw [List.mapM_cons] at h
      obtain ⟨b, hb, h⟩ := Option.bind_eq_some_iff.1 h
      obtain ⟨rest, hrest, hbs⟩ := Option.bind_eq_some_iff.1 h
      obtain rfl := Option.some.inj hbs
      intro c hc
      rcases List.mem_cons.1 hc with rfl | hc
      · exact ⟨a, List.mem_cons_self, hb⟩
      · obtain ⟨a', ha', heq⟩ := ih hrest c hc
        exact ⟨a', List.mem_cons_of_mem a ha', heq⟩

/-- The elements of a vector were read from values. -/
theorem exists_of_mem_readVec {read : Value → Option α} {v : Value} {l : List α}
    (h : readVec read v = some l) : ∀ a ∈ l, ∃ x, read x = some a := by
  intro a ha
  cases v with
  | array elems =>
      obtain ⟨x, -, hx⟩ := exists_of_mem_mapM h a ha
      exact ⟨x, hx⟩
  | null | bool | number | string | object => cases h

/-- The values of a map were read from values. -/
theorem exists_of_mem_readMap {readKey : String → Option α} {read : Value → Option β} {v : Value}
    {l : List (α × β)} (h : readMap readKey read v = some l) : ∀ p ∈ l, ∃ x, read x = some p.2 := by
  intro p hp
  cases v with
  | object members =>
      obtain ⟨m, -, hm⟩ := exists_of_mem_mapM h p hp
      obtain ⟨key, -, hm⟩ := Option.bind_eq_some_iff.1 hm
      obtain ⟨value, hvalue, hm⟩ := Option.bind_eq_some_iff.1 hm
      obtain rfl := Option.some.inj hm
      exact ⟨m.2, hvalue⟩
  | null | bool | number | string | array => cases h

theorem readMap_map {readKey : String → Option α} {read : Value → Option β}
    {writeKey : α → String} {write : β → Value} {l : List (α × β)}
    (hkey : ∀ p ∈ l, readKey (writeKey p.1) = some p.1) (h : ∀ p ∈ l, read (write p.2) = some p.2) :
    readMap readKey read (.object (l.map fun p => (writeKey p.1, write p.2))) = some l := by
  rw [readMap]
  induction l with
  | nil => rfl
  | cons p l ih =>
      have hrest := ih (fun q hq => hkey q (List.mem_cons_of_mem p hq))
        fun q hq => h q (List.mem_cons_of_mem p hq)
      rw [List.map_cons, List.mapM_cons, hrest, hkey p List.mem_cons_self, h p List.mem_cons_self]
      rfl

/-- A map whose keys cannot be read is read from the empty object only. -/
theorem readMap_of_unreadable {readKey : String → Option α} (hkey : ∀ name, readKey name = none)
    {read : Value → Option β} {members : List (String × Value)} (hne : members ≠ []) :
    readMap readKey read (.object members) = none := by
  cases members with
  | nil => exact absurd rfl hne
  | cons m members => simp [readMap, hkey]

/-! ### Fields -/

/-- Whether a record of so many fields can be read from the value at all. -/
def isRecord (fields : ℕ) : Value → Bool
  | .object _ => true
  | .array elems => decide (elems.length ≤ fields)
  | _ => false

/-- The values a record has for a field: in an object those of its name, in an array the one at its
place. -/
def fieldValues (place : ℕ) (name : String) : Value → List Value
  | .object members => (members.filter fun m => m.1 == name).map Prod.snd
  | .array elems => elems[place]?.toList
  | _ => []

/-- A field; `missing` is what stands for a field that is not there. -/
def readField (place : ℕ) (name : String) (read : Value → Option α) (missing : Option α)
    (v : Value) : Option α :=
  match fieldValues place name v with
  | [] => missing
  | [x] => read x
  | _ => none

/-- A field that has to be there. -/
def required (place : ℕ) (name : String) (read : Value → Option α) (v : Value) : Option α :=
  readField place name read none v

/-- A field with a default. -/
def defaulted (place : ℕ) (name : String) (read : Value → Option α) (default : α) (v : Value) :
    Option α :=
  readField place name read (some default) v

/-- An optional field, which an object may leave out. -/
def optional (place : ℕ) (name : String) (read : Value → Option α) (v : Value) :
    Option (Option α) :=
  let missing := match v with
    | .object _ => some none
    | _ => none
  readField place name (readOption read) missing v

theorem readField_eq_some {place : ℕ} {name : String} {read : Value → Option α}
    {missing : Option α} {v : Value} {a : α} (h : readField place name read missing v = some a) :
    (∃ x, read x = some a) ∨ missing = some a := by
  rw [readField] at h
  split at h
  · exact Or.inr h
  · exact Or.inl ⟨_, h⟩
  · cases h

/-- A field that has to be there was read from a value. -/
theorem required_eq_some {place : ℕ} {name : String} {read : Value → Option α} {v : Value} {a : α}
    (h : required place name read v = some a) : ∃ x, read x = some a :=
  (readField_eq_some h).resolve_right nofun

theorem defaulted_eq_some {place : ℕ} {name : String} {read : Value → Option α} {default : α}
    {v : Value} {a : α} (h : defaulted place name read default v = some a) :
    (∃ x, read x = some a) ∨ a = default :=
  (readField_eq_some h).imp_right fun heq => (Option.some.inj heq).symm

theorem optional_eq_some {place : ℕ} {name : String} {read : Value → Option α} {v : Value} {a : α}
    (h : optional place name read v = some (some a)) : ∃ x, read x = some a := by
  rcases readField_eq_some h with ⟨x, hx⟩ | hmissing
  · by_cases hnull : x = .null
    · subst hnull
      cases hx
    · rw [readOption_of_ne_null hnull] at hx
      obtain ⟨b, hb, heq⟩ := Option.map_eq_some_iff.1 hx
      obtain rfl := Option.some.inj heq
      exact ⟨x, hb⟩
  · cases v with
    | object => cases hmissing
    | null | bool | number | string | array => cases hmissing

/-- The member of an optional field: none when the field is none. -/
def writeOptional (name : String) (write : α → Value) (o : Option α) : List (String × Value) :=
  (o.map fun a => (name, write a)).toList

section Objects

variable {members : List (String × Value)} {name : String}

theorem fieldValues_of_notMem (place : ℕ) (h : name ∉ members.map Prod.fst) :
    fieldValues place name (.object members) = [] := by
  have hnone : (members.filter fun m => m.1 == name) = [] := by
    rw [List.filter_eq_nil_iff]
    intro m hm hname
    exact h (List.mem_map.2 ⟨m, hm, beq_iff_eq.1 hname⟩)
  rw [fieldValues, hnone, List.map_nil]

/-- Without repeated names a member is the only one of its name. -/
theorem fieldValues_of_mem (place : ℕ) (hnodup : (members.map Prod.fst).Nodup) {x : Value}
    (h : (name, x) ∈ members) : fieldValues place name (.object members) = [x] := by
  induction members with
  | nil => cases h
  | cons m members ih =>
      rw [List.map_cons, List.nodup_cons] at hnodup
      rcases List.mem_cons.1 h with rfl | hmem
      · have hrest := fieldValues_of_notMem place hnodup.1
        rw [fieldValues] at hrest ⊢
        rw [List.filter_cons, if_pos (beq_self_eq_true name), List.map_cons, hrest]
      · have hname : m.1 ≠ name := fun heq =>
          hnodup.1 (List.mem_map.2 ⟨(name, x), hmem, heq.symm⟩)
        have hrest := ih hnodup.2 hmem
        rw [fieldValues] at hrest ⊢
        rw [List.filter_cons, if_neg (by simpa using hname), hrest]

theorem readField_of_mem {read : Value → Option α} {missing : Option α} {place : ℕ}
    (hnodup : (members.map Prod.fst).Nodup) {x : Value} (h : (name, x) ∈ members) :
    readField place name read missing (.object members) = read x := by
  rw [readField, fieldValues_of_mem place hnodup h]

theorem required_written {read : Value → Option α} {place : ℕ}
    (hnodup : (members.map Prod.fst).Nodup) {x : Value} (h : members[place]? = some (name, x))
    {a : α} (hread : read x = some a) : required place name read (.object members) = some a := by
  rw [required, readField_of_mem hnodup (List.mem_of_getElem? h), hread]

theorem defaulted_written {read : Value → Option α} {place : ℕ} {default : α}
    (hnodup : (members.map Prod.fst).Nodup) {x : Value} (h : members[place]? = some (name, x))
    {a : α} (hread : read x = some a) :
    defaulted place name read default (.object members) = some a := by
  rw [defaulted, readField_of_mem hnodup (List.mem_of_getElem? h), hread]

theorem optional_written {read : Value → Option α} {write : α → Value} {o : Option α} {place : ℕ}
    (hnodup : ((members ++ writeOptional name write o).map Prod.fst).Nodup)
    (hname : name ∉ members.map Prod.fst)
    (hnull : ∀ a, write a ≠ .null) (hread : ∀ a ∈ o, read (write a) = some a) :
    optional place name read (.object (members ++ writeOptional name write o)) = some o := by
  cases o with
  | none =>
      have hnil : members ++ writeOptional name write none = members := List.append_nil members
      rw [hnil, optional, readField, fieldValues_of_notMem place hname]
  | some a =>
      have hmem : (name, write a) ∈ members ++ writeOptional name write (some a) :=
        List.mem_append_right _ List.mem_cons_self
      rw [optional, readField_of_mem hnodup hmem, readOption_of_ne_null (hnull a), hread a rfl,
        Option.map_some]

end Objects

end Json
