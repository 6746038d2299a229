/-
**The S7 strings.**

A string is written as its capacity, its length in bytes and its UTF-8 bytes.  The length is one
byte, and the encoder takes no text beyond the capacity of 254 bytes; the decoder also takes a
length of 255.  Bytes behind the text are padding.

Main definitions:

* `FillingPilot.SString` — the layout: capacity, length, text, padding.

Main results:

* `FillingPilot.fromUTF8?_eq_some` — the bytes of a text determine it;
* `FillingPilot.stringDecode_eq_ok` — **what the decoder accepts** is of this layout;
* `FillingPilot.string_format` — **the format**: what is written, and that both directions agree.
-/

import FillingPilot.Codec

set_option relaxedAutoImplicit false
set_option autoImplicit false

namespace FillingPilot

open Json Rust

variable {host : Host}

/-! ### The bytes of a text -/

theorem toByteArray_utf8Bytes (s : String) : ⟨(utf8Bytes s).toArray⟩ = s.toByteArray := by
  rw [← String.utf8Encode_toList, List.utf8Encode]
  refine ByteArray.ext ?_
  rw [List.data_toByteArray]
  rfl

/-- **The bytes of a text determine it**, and only the bytes of a text are read as one. -/
theorem fromUTF8?_eq_some {data : List UInt8} {s : String} :
    String.fromUTF8? ⟨data.toArray⟩ = some s ↔ data = utf8Bytes s := by
  unfold String.fromUTF8?
  constructor
  · intro h
    split_ifs at h with hvalid
    have hbytes : s.toByteArray = ⟨data.toArray⟩ := by
      rw [← Option.some.inj h]
      rfl
    rw [← toByteArray_utf8Bytes] at hbytes
    exact (List.toArray_inj (congrArg ByteArray.data hbytes)).symm
  · rintro rfl
    have hvalid : ByteArray.IsValidUTF8 ⟨(utf8Bytes s).toArray⟩ := by
      rw [toByteArray_utf8Bytes]
      exact s.isValidUTF8
    rw [dif_pos hvalid, Option.some.injEq, ← String.toByteArray_inj]
    exact toByteArray_utf8Bytes s

/-! ### The layout -/

/-- A string in a block: its capacity, its text, as long as the length byte says, and padding. -/
structure SString where
  capacity : UInt8
  len : UInt8
  text : String
  padding : List UInt8
  len_eq : (utf8Bytes text).length = len.toNat

/-- The bytes of the layout. -/
def SString.bytes (s : SString) : List UInt8 :=
  s.capacity :: s.len :: (utf8Bytes s.text ++ s.padding)

/-- The decoder of two bytes and more: the text is as long as the second byte says. -/
theorem stringDecode_cons (capacity len : UInt8) (rest : List UInt8) :
    stringDecode host (capacity :: len :: rest) =
      if rest.length < len.toNat then .err "Truncated"
      else match String.fromUTF8? ⟨(rest.take len.toNat).toArray⟩ with
        | some s => .ok (.string s)
        | none => .err (host.utf8Error (rest.take len.toNat)) := by
  have hheader : ¬ (capacity :: len :: rest).length < 2 := by simp
  have hlen : index (capacity :: len :: rest) 1 = .ok len := rfl
  have hlength : (capacity :: len :: rest).length = 2 + rest.length := by
    simp only [List.length_cons]
    omega
  unfold stringDecode
  rw [if_neg hheader, hlen, Outcome.ok_bind, hlength]
  by_cases htruncated : rest.length < len.toNat
  · rw [if_pos (by omega), if_pos htruncated]
  · have hslice : slice 2 (2 + len.toNat) (capacity :: len :: rest) =
        .ok (rest.take len.toNat) := by
      rw [slice, if_pos ⟨by omega, by omega⟩, Nat.add_sub_cancel_left]
      rfl
    rw [if_neg (by omega), if_neg htruncated, hslice, Outcome.ok_bind]
    rfl

/-- **What the decoder accepts**: the bytes of the layout, of which it gives the text. -/
theorem stringDecode_eq_ok {bytes : List UInt8} {value : Value} :
    stringDecode host bytes = .ok value ↔
      ∃ s : SString, bytes = s.bytes ∧ value = .string s.text := by
  constructor
  · intro h
    match bytes with
    | [] => cases h
    | [_] => cases h
    | capacity :: len :: rest =>
        rw [stringDecode_cons] at h
        split_ifs at h with htruncated
        cases htext : String.fromUTF8? ⟨(rest.take len.toNat).toArray⟩ with
        | none =>
            rw [htext] at h
            cases h
        | some s =>
            rw [htext] at h
            cases h
            have hbytes : rest.take len.toNat = utf8Bytes s := fromUTF8?_eq_some.1 htext
            have hcount : (utf8Bytes s).length = len.toNat := by
              rw [← hbytes, List.length_take, Nat.min_eq_left (Nat.le_of_not_lt htruncated)]
            refine ⟨⟨capacity, len, s, rest.drop len.toNat, hcount⟩, ?_, rfl⟩
            rw [SString.bytes, ← hbytes, List.take_append_drop]
  · rintro ⟨⟨capacity, len, s, padding, hlen⟩, rfl, rfl⟩
    have htake : (utf8Bytes s ++ padding).take len.toNat = utf8Bytes s := by
      rw [← hlen]
      exact List.take_left
    have hlong : ¬ (utf8Bytes s ++ padding).length < len.toNat := by
      rw [List.length_append]
      omega
    rw [SString.bytes, stringDecode_cons, if_neg hlong, htake, fromUTF8?_eq_some.2 rfl]

/-! ### The format -/

theorem stringEncode_eq_ok {s : String} {bytes : List UInt8} :
    stringEncode host (.string s) = .ok bytes ↔
      (utf8Bytes s).length ≤ 254 ∧
        bytes = 254 :: UInt8.ofNat (utf8Bytes s).length :: utf8Bytes s := by
  have htext : stringText host (.string s) = s := rfl
  simp only [stringEncode, htext]
  split_ifs with hlong
  · simp only [false_iff]
    omega
  · simp only [Except.ok.injEq, List.cons_append, List.nil_append, Nat.le_of_not_lt hlong,
      true_and]
    exact eq_comm

/-- **The format.**  A text is written exactly when it has at most 254 bytes, and is then read back
from what was written with any padding behind it; and of bytes that are read, with a length of at
most 254, the text they hold is written again with the same length and the same data. -/
theorem string_format (host : Host) :
    (∀ s, (∃ bytes, stringEncode host (.string s) = .ok bytes) ↔ (utf8Bytes s).length ≤ 254) ∧
      (∀ s bytes, stringEncode host (.string s) = .ok bytes → ∀ padding,
        stringDecode host (bytes ++ padding) = .ok (.string s)) ∧
      ∀ bytes value, stringDecode host bytes = .ok value → (bytes.getD 1 0).toNat ≤ 254 →
        ∃ s encoded, value = .string s ∧ stringEncode host (.string s) = .ok encoded ∧
          encoded.getD 1 0 = bytes.getD 1 0 ∧
            encoded.drop 2 = bytes.slice 2 (bytes.getD 1 0).toNat := by
  refine ⟨fun s => ?_, fun s bytes h padding => ?_, fun bytes value h hlen => ?_⟩
  · constructor
    · rintro ⟨bytes, h⟩
      exact (stringEncode_eq_ok.1 h).1
    · intro h
      exact ⟨_, stringEncode_eq_ok.2 ⟨h, rfl⟩⟩
  · obtain ⟨hshort, rfl⟩ := stringEncode_eq_ok.1 h
    have hlen : (utf8Bytes s).length = (UInt8.ofNat (utf8Bytes s).length).toNat :=
      (UInt8.toNat_ofNat_of_lt' (hshort.trans_lt (by decide))).symm
    exact stringDecode_eq_ok.2 ⟨⟨254, _, s, padding, hlen⟩, rfl, rfl⟩
  · obtain ⟨⟨capacity, len, s, padding, hcount⟩, rfl, rfl⟩ := stringDecode_eq_ok.1 h
    have hshort : (utf8Bytes s).length ≤ 254 := hcount.trans_le hlen
    refine ⟨s, _, rfl, stringEncode_eq_ok.2 ⟨hshort, rfl⟩, ?_, ?_⟩
    · change UInt8.ofNat (utf8Bytes s).length = len
      rw [hcount, UInt8.ofNat_toNat]
    · change utf8Bytes s = (utf8Bytes s ++ padding).take len.toNat
      rw [← hcount, List.take_left]

example : stringDecode bareHost [9, 2, 0xC3, 0xA9, 7] = .ok (.string "é") :=
  stringDecode_eq_ok.2 ⟨⟨9, 2, "é", [7], by decide⟩, by decide, rfl⟩

end FillingPilot
