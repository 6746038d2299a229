/-
**The wide strings.**

The encoder writes the capacity, the length and then the UTF-16 code units, so that the units start
at byte 4.  The decoder takes the capacity for the length and reads the units from byte 2 on, the
length first.  A text of at most 254 units is read back as it was only when the shift by one unit
does not show, and only when it has 254 units.

Main definitions:

* `FillingPilot.units` — the code units of a text;
* `FillingPilot.fullOfSelectors` — the one text that is read back.

Main results:

* `FillingPilot.fromUtf16Lossy_units` — the code units of a text determine it;
* `FillingPilot.length_units_fromUtf16Lossy` — reading code units keeps their number;
* `FillingPilot.wstringDecode_wstringEncode` — **what the decoder reads** of an encoded text;
* `FillingPilot.wstring_roundTrip_iff` — **the texts that are read back**.
-/

import FillingPilot.Codec

set_option relaxedAutoImplicit false
set_option autoImplicit false

namespace FillingPilot

open Json Rust

/-! ### Code units -/

/-- The code units of a text. -/
def units (cs : List Char) : List ℕ := cs.flatMap utf16Units

@[simp] theorem units_nil : units [] = [] := rfl

@[simp] theorem units_cons (c : Char) (cs : List Char) :
    units (c :: cs) = utf16Units c ++ units cs := rfl

theorem length_utf16Units (c : Char) :
    (utf16Units c).length = if c.toNat < 0x10000 then 1 else 2 := by
  unfold utf16Units
  split_ifs <;> rfl

theorem toNat_ofNat_of_valid {n : ℕ} (h : n.isValidChar) : (Char.ofNat n).toNat = n := by
  rw [Char.ofNat, dif_pos h]
  rfl

/-- A character is none of the surrogates. -/
theorem toNat_valid (c : Char) :
    c.toNat < 0xD800 ∨ (0xE000 ≤ c.toNat ∧ c.toNat < 0x110000) := by
  have h : c.toNat.isValidChar := c.valid
  unfold Nat.isValidChar at h
  omega

theorem fromUtf16Lossy_bmp {u : ℕ} (h : u < 0xD800 ∨ 0xE000 ≤ u) (us : List ℕ) :
    fromUtf16Lossy (u :: us) = Char.ofNat u :: fromUtf16Lossy us := by
  rw [fromUtf16Lossy.eq_def]
  exact if_pos h

theorem fromUtf16Lossy_pair {u v : ℕ} (hu : 0xD800 ≤ u ∧ u < 0xDC00)
    (hv : 0xDC00 ≤ v ∧ v < 0xE000) (us : List ℕ) :
    fromUtf16Lossy (u :: v :: us) =
      Char.ofNat (0x10000 + (u - 0xD800) * 0x400 + (v - 0xDC00)) :: fromUtf16Lossy us := by
  have hsurrogate : ¬ (u < 0xD800 ∨ 0xE000 ≤ u) := by omega
  rw [fromUtf16Lossy.eq_def]
  dsimp only
  rw [if_neg hsurrogate, if_pos ⟨hu.2, hv⟩]

theorem lt_of_mem_units {cs : List Char} {u : ℕ} (h : u ∈ units cs) : u < 0x10000 := by
  obtain ⟨c, -, hu⟩ := List.mem_flatMap.1 h
  have hvalid := toNat_valid c
  unfold utf16Units at hu
  split_ifs at hu with hsmall
  · rw [List.mem_singleton] at hu
    omega
  · rw [List.mem_cons, List.mem_singleton] at hu
    omega

theorem fromUtf16Lossy_units (cs : List Char) : fromUtf16Lossy (units cs) = cs := by
  induction cs with
  | nil => rfl
  | cons c cs ih =>
      have hvalid := toNat_valid c
      rw [units_cons, utf16Units]
      split_ifs with hsmall
      · rw [List.singleton_append, fromUtf16Lossy_bmp (by omega), ih, Char.ofNat_toNat]
      · -- a surrogate pair, which adds up to the character
        have hpair : 0x10000 + (0xD800 + (c.toNat - 0x10000) / 0x400 - 0xD800) * 0x400 +
            (0xDC00 + (c.toNat - 0x10000) % 0x400 - 0xDC00) = c.toNat := by omega
        rw [List.cons_append, List.singleton_append,
          fromUtf16Lossy_pair (by omega) (by omega), hpair, ih, Char.ofNat_toNat]

/-- Reading code units keeps their number. -/
theorem length_units_fromUtf16Lossy {us : List ℕ} (h : ∀ u ∈ us, u < 0x10000) :
    (units (fromUtf16Lossy us)).length = us.length := by
  fun_induction fromUtf16Lossy us with
  | case1 => rfl
  | case2 u us hbmp ih =>
      rw [List.forall_mem_cons] at h
      have hvalid : u.isValidChar := by
        unfold Nat.isValidChar
        omega
      rw [units_cons, List.length_append, length_utf16Units, toNat_ofNat_of_valid hvalid,
        if_pos h.1, ih h.2, List.length_cons, Nat.add_comm]
  | case3 u hsurrogate => rfl
  | case4 u hsurrogate v vs hpair ih =>
      rw [List.forall_mem_cons, List.forall_mem_cons] at h
      have hvalid : (0x10000 + (u - 0xD800) * 0x400 + (v - 0xDC00)).isValidChar := by
        unfold Nat.isValidChar
        omega
      rw [units_cons, List.length_append, length_utf16Units, toNat_ofNat_of_valid hvalid,
        if_neg (by omega), ih h.2.2, List.length_cons, List.length_cons, Nat.add_comm]
  | case5 u hsurrogate v vs hpair ih =>
      rw [List.forall_mem_cons] at h
      have hreplacement : (utf16Units (Char.ofNat 0xFFFD)).length = 1 := by decide
      rw [units_cons, List.length_append, hreplacement, ih h.2, Nat.add_comm]
      rfl

/-! ### What the decoder reads -/

/-- The bytes of code units. -/
def unitBytes (us : List ℕ) : List UInt8 := us.flatMap fun u => BigEndian.bytes 2 u

@[simp] theorem unitBytes_cons (u : ℕ) (us : List ℕ) :
    unitBytes (u :: us) = BigEndian.bytes 2 u ++ unitBytes us := rfl

theorem unitBytes_append (us vs : List ℕ) : unitBytes (us ++ vs) = unitBytes us ++ unitBytes vs :=
  List.flatMap_append

@[simp] theorem length_unitBytes (us : List ℕ) : (unitBytes us).length = 2 * us.length := by
  simp [unitBytes, List.length_flatMap, Nat.mul_comm]

/-- Bytes start with any number of code units, as far as there are enough of them. -/
theorem exists_units (k : ℕ) : ∀ {bytes : List UInt8}, 2 * k ≤ bytes.length →
    ∃ (us : List ℕ) (tail : List UInt8), us.length = k ∧ (∀ u ∈ us, u < 0x10000) ∧
      bytes = unitBytes us ++ tail := by
  induction k with
  | zero => intro bytes _; exact ⟨[], bytes, rfl, nofun, rfl⟩
  | succ k ih =>
      intro bytes h
      match bytes, h with
      | [], h => exact absurd h (by simp)
      | [a], h =>
          rw [List.length_singleton] at h
          omega
      | a :: b :: bytes, h =>
          have hrest : 2 * k ≤ bytes.length := by
            simp only [List.length_cons] at h
            omega
          obtain ⟨us, tail, hlen, hus, htail⟩ := ih hrest
          have hbytes : BigEndian.bytes 2 (BigEndian.value [a, b]) = [a, b] :=
            BigEndian.bytes_value [a, b]
          have hlt : BigEndian.value [a, b] < 0x10000 := by
            simpa using BigEndian.value_lt [a, b]
          refine ⟨BigEndian.value [a, b] :: us, tail, by rw [List.length_cons, hlen],
            List.forall_mem_cons.2 ⟨hlt, hus⟩, ?_⟩
          rw [unitBytes_cons, hbytes, htail]
          rfl

/-- The unit at byte 2, and then those from byte 4 on. -/
theorem wstringUnits_succ (a b x y : UInt8) (rest : List UInt8) (n : ℕ) :
    wstringUnits (a :: b :: x :: y :: rest) (n + 1) = (do
      let us ← wstringUnits (x :: y :: rest) n
      return BigEndian.value [x, y] :: us) := by
  have hlater : ∀ i : ℕ, 2 + (i + 1) * 2 = 2 + i * 2 + 1 + 1 := fun i => by omega
  unfold wstringUnits
  rw [List.range_succ_eq_map, List.mapM_cons, List.mapM_map]
  simp only [index, Function.comp_def, Nat.succ_eq_add_one, hlater, List.getElem?_cons_succ]
  rfl

/-- The decoder reads the code units that stand from byte 2 on. -/
theorem wstringUnits_eq {us : List ℕ} (tail : List UInt8) : ∀ (a b : UInt8),
    (∀ u ∈ us, u < 0x10000) →
      wstringUnits (a :: b :: (unitBytes us ++ tail)) us.length = .ok us := by
  induction us with
  | nil => intro a b _; rfl
  | cons u us ih =>
      intro a b hus
      rw [List.forall_mem_cons] at hus
      have hbytes : BigEndian.bytes 2 u = [UInt8.ofNat (u / 256), UInt8.ofNat u] := rfl
      have hvalue : BigEndian.value [UInt8.ofNat (u / 256), UInt8.ofNat u] = u := by
        rw [← hbytes, BigEndian.value_bytes]
        exact Nat.mod_eq_of_lt hus.1
      rw [unitBytes_cons, hbytes, List.length_cons]
      simp only [List.cons_append, List.nil_append]
      rw [wstringUnits_succ, ih _ _ hus.2, Outcome.ok_bind, hvalue]
      rfl

/-- The encoder writes the capacity and, as the decoder sees it, one unit more than the text
has. -/
theorem wstringEncode_eq {s : String} (h : (units s.toList).length ≤ 254) :
    wstringEncode (.string s) =
      .ok (254 :: 0 :: unitBytes ((units s.toList).length * 256 :: units s.toList)) := by
  have hcount : (unitBytes (units s.toList)).length / 2 = (units s.toList).length := by
    rw [length_unitBytes]
    omega
  have hheader : BigEndian.bytes 2 ((units s.toList).length * 256) =
      [UInt8.ofNat (units s.toList).length, UInt8.ofNat ((units s.toList).length / 256)] := by
    have hlow : UInt8.ofNat ((units s.toList).length * 256) = 0 := by
      refine UInt8.toNat_inj.1 ?_
      rw [UInt8.toNat_ofNat', Nat.mul_mod_left]
      rfl
    have hhigh : (units s.toList).length / 256 = 0 := by omega
    rw [hhigh]
    simp only [BigEndian.bytes, Nat.mul_div_cancel _ (show 0 < 256 by decide), hlow,
      List.nil_append, List.singleton_append]
    rfl
  rw [unitBytes_cons, hheader, ← hcount]
  rfl

theorem wstringDecode_short {rest : List UInt8} (h : rest.length < 510) :
    ∃ message, wstringDecode (254 :: 0 :: rest) = .err message := by
  unfold wstringDecode
  split_ifs with hheader
  · exact ⟨_, rfl⟩
  · have hlen : BigEndian.value [0, 254] = 254 := by decide
    simp only [index, List.getElem?_cons_zero, List.getElem?_cons_succ, Outcome.ok_bind, hlen,
      List.length_cons]
    rw [if_pos (by omega)]
    exact ⟨_, rfl⟩

/-- **What the decoder reads** behind a capacity of 254: as many units, from byte 2 on. -/
theorem wstringDecode_capacity {us : List ℕ} {tail : List UInt8} (hlen : us.length = 254)
    (hus : ∀ u ∈ us, u < 0x10000) (htail : 2 ≤ tail.length) :
    wstringDecode (254 :: 0 :: (unitBytes us ++ tail)) =
      .ok (.string (String.ofList (fromUtf16Lossy us))) := by
  have hcapacity : BigEndian.value [0, 254] = us.length := by
    rw [hlen]
    decide
  have hbytes : (254 :: 0 :: (unitBytes us ++ tail)).length = 510 + tail.length := by
    simp only [List.length_cons, List.length_append, length_unitBytes, hlen]
    omega
  unfold wstringDecode
  rw [if_neg (by omega)]
  have h0 : index (254 :: 0 :: (unitBytes us ++ tail)) 0 = .ok 254 := rfl
  have h1 : index (254 :: 0 :: (unitBytes us ++ tail)) 1 = .ok 0 := rfl
  rw [h0, Outcome.ok_bind, h1, Outcome.ok_bind]
  simp only [hcapacity]
  rw [if_neg (by omega), wstringUnits_eq tail 254 0 hus, Outcome.ok_bind]
  rfl

/-! ### The text that is read back -/

/-- The character whose number has the length 254 in its high byte. -/
def selector : Char := Char.ofNat 0xFE00

/-- The text of 254 such characters. -/
def fullOfSelectors : String := String.ofList (List.replicate 254 selector)

/-- Selectors are read one by one. -/
theorem fromUtf16Lossy_selectors (k : ℕ) (us : List ℕ) :
    fromUtf16Lossy (List.replicate k 0xFE00 ++ us) =
      List.replicate k selector ++ fromUtf16Lossy us := by
  induction k with
  | zero => rfl
  | succ k ih =>
      rw [List.replicate_succ, List.cons_append, fromUtf16Lossy_bmp (by decide), ih]
      rfl

theorem units_selectors (k : ℕ) (cs : List Char) :
    units (List.replicate k selector ++ cs) = List.replicate k 0xFE00 ++ units cs := by
  have hselector : utf16Units selector = [0xFE00] := by decide
  induction k with
  | zero => rfl
  | succ k ih =>
      rw [List.replicate_succ, List.cons_append, units_cons, ih, hselector]
      rfl

theorem units_fullOfSelectors : units fullOfSelectors.toList = List.replicate 254 0xFE00 := by
  have hall := units_selectors 254 []
  rw [List.append_nil, units_nil, List.append_nil] at hall
  rw [fullOfSelectors, String.toList_ofList, hall]

/-- A text of 254 units that is its own units read one unit late has selectors only. -/
theorem eq_selectors {cs : List Char} (hlen : (units cs).length = 254)
    (hshift : cs = fromUtf16Lossy (0xFE00 :: (units cs).take 253)) :
    cs = List.replicate 254 selector := by
  -- every selector at the start makes for one more
  have hstart : ∀ k ≤ 254, ∃ rest, cs = List.replicate k selector ++ rest := by
    intro k
    induction k with
    | zero => intro _; exact ⟨cs, rfl⟩
    | succ k ih =>
        intro hk
        obtain ⟨rest, hrest⟩ := ih (by omega)
        have htake : 0xFE00 :: (units cs).take 253 =
            List.replicate (k + 1) 0xFE00 ++ (units rest).take (253 - k) := by
          rw [hrest, units_selectors, List.take_append, List.take_replicate,
            List.length_replicate, Nat.min_eq_right (by omega), List.replicate_succ,
            List.cons_append]
        rw [htake, fromUtf16Lossy_selectors] at hshift
        exact ⟨_, hshift⟩
  obtain ⟨rest, hrest⟩ := hstart 254 le_rfl
  have hnone : (units rest).length = 0 := by
    rw [hrest, units_selectors, List.length_append, List.length_replicate] at hlen
    omega
  -- a text without units is empty
  have hempty : rest = [] := by
    rw [← fromUtf16Lossy_units rest, List.length_eq_zero_iff.1 hnone]
    rfl
  rw [hrest, hempty, List.append_nil]

/-- What the decoder reads of an encoded text of 254 units. -/
theorem wstringDecode_wstringEncode {us : List ℕ} (hlen : us.length = 254)
    (hus : ∀ u ∈ us, u < 0x10000) (padding : List UInt8) :
    wstringDecode (254 :: 0 :: (unitBytes (254 * 256 :: us) ++ padding)) =
      .ok (.string (String.ofList (fromUtf16Lossy (0xFE00 :: us.take 253)))) := by
  have hsplit : unitBytes (254 * 256 :: us) ++ padding =
      unitBytes (0xFE00 :: us.take 253) ++ (unitBytes (us.drop 253) ++ padding) := by
    rw [← List.append_assoc, ← unitBytes_append, List.cons_append, List.take_append_drop]
  rw [hsplit]
  refine wstringDecode_capacity ?_ ?_ ?_
  · rw [List.length_cons, List.length_take, hlen]
    rfl
  · exact List.forall_mem_cons.2 ⟨by decide, fun u hu => hus u (List.mem_of_mem_take hu)⟩
  · rw [List.length_append, length_unitBytes, List.length_drop, hlen]
    omega

/-- **The texts that are read back**, of those with at most 254 code units and whatever follows
their bytes: the one that has 254 selectors. -/
theorem wstring_roundTrip_iff {s : String} (h : (units s.toList).length ≤ 254)
    (padding : List UInt8) :
    (∃ bytes, wstringEncode (.string s) = .ok bytes ∧
      wstringDecode (bytes ++ padding) = .ok (.string s)) ↔ s = fullOfSelectors := by
  constructor
  · rintro ⟨bytes, hencode, hdecode⟩
    rw [wstringEncode_eq h] at hencode
    cases hencode
    rw [List.cons_append, List.cons_append] at hdecode
    by_cases hshort : (unitBytes ((units s.toList).length * 256 :: units s.toList) ++
        padding).length < 510
    · obtain ⟨message, herr⟩ := wstringDecode_short hshort
      rw [herr] at hdecode
      cases hdecode
    · -- the text has as many units as were read
      have hfull : (units s.toList).length = 254 := by
        have henough : 2 * 254 ≤ (unitBytes ((units s.toList).length * 256 :: units s.toList) ++
            padding).length := by omega
        obtain ⟨us, tail, hlen, hus, hbytes⟩ := exists_units 254 henough
        rw [hbytes, List.length_append, length_unitBytes, hlen] at hshort
        rw [hbytes, wstringDecode_capacity hlen hus (by omega), Outcome.ok.injEq,
          Value.string.injEq] at hdecode
        rw [← hdecode, String.toList_ofList, length_units_fromUtf16Lossy hus, hlen]
      rw [hfull, wstringDecode_wstringEncode hfull (fun u => lt_of_mem_units), Outcome.ok.injEq,
        Value.string.injEq] at hdecode
      have hshift : s.toList = fromUtf16Lossy (0xFE00 :: (units s.toList).take 253) := by
        conv_lhs => rw [← hdecode, String.toList_ofList]
      rw [fullOfSelectors, ← eq_selectors hfull hshift, String.ofList_toList]
  · rintro rfl
    refine ⟨_, wstringEncode_eq h, ?_⟩
    rw [units_fullOfSelectors, List.length_replicate, List.cons_append, List.cons_append,
      wstringDecode_wstringEncode List.length_replicate (fun u hu => ?_)]
    · have hread : fromUtf16Lossy (List.replicate 254 0xFE00) = List.replicate 254 selector := by
        have hall := fromUtf16Lossy_selectors 254 []
        rwa [List.append_nil, fromUtf16Lossy, List.append_nil] at hall
      rw [List.take_replicate, Nat.min_eq_left (by decide), ← List.replicate_succ, hread,
        fullOfSelectors]
    · rw [(List.mem_replicate.1 hu).2]
      decide

/-- The text that is read back. -/
theorem wstring_roundTrip_iff_fullOfSelectors :
    ∃ bytes, wstringEncode (.string fullOfSelectors) = .ok bytes ∧
      wstringDecode (bytes ++ [1, 2]) = .ok (.string fullOfSelectors) := by
  have hlen : (units fullOfSelectors.toList).length ≤ 254 := by
    rw [units_fullOfSelectors, List.length_replicate]
  exact (wstring_roundTrip_iff hlen [1, 2]).2 rfl

/-- **A letter is not read back**: its six bytes are too few for the capacity. -/
theorem wstring_letter_fails :
    (units "A".toList).length ≤ 254 ∧ wstringEncode (.string "A") = .ok [254, 0, 1, 0, 0, 65] ∧
      wstringDecode [254, 0, 1, 0, 0, 65] = .err "WString truncated" ∧
      ¬ ∀ padding, ∃ bytes, wstringEncode (.string "A") = .ok bytes ∧
        wstringDecode (bytes ++ padding) = .ok (.string "A") := by
  have hencode : wstringEncode (.string "A") = .ok [254, 0, 1, 0, 0, 65] := by decide
  have hdecode : wstringDecode [254, 0, 1, 0, 0, 65] = .err "WString truncated" := rfl
  refine ⟨by decide, hencode, hdecode, fun h => ?_⟩
  obtain ⟨bytes, hbytes, hread⟩ := h []
  rw [hencode] at hbytes
  cases hbytes
  rw [List.append_nil, hdecode] at hread
  cases hread

end FillingPilot
