/-
Slices of texts at a byte.

The length of a text and the positions in it are counted in bytes of its UTF-8 encoding.  A slice up
to a byte that is not the end of a character panics, and so does a slice that is longer than the
text.

Main definitions:

* `Rust.byteLen` — the length of a text in bytes;
* `Rust.sliceTo` — `&s[..n]`;
* `Rust.Splits` — a byte inside a text that is not the end of a character.

Main results:

* `Rust.takeBytes_eq_some` — a slice is the prefix of its length;
* `Rust.sliceTo_panicsIff` — **when a slice up to a byte panics**.
-/

import FillingPilot.Outcome

set_option relaxedAutoImplicit false
set_option autoImplicit false

namespace Rust

/-! ### Lengths in bytes -/

/-- The length of the encoding of a list of characters. -/
def charsLen : List Char → ℕ
  | [] => 0
  | c :: cs => c.utf8Size + charsLen cs

@[simp] theorem charsLen_nil : charsLen [] = 0 := rfl

@[simp] theorem charsLen_cons (c : Char) (cs : List Char) :
    charsLen (c :: cs) = c.utf8Size + charsLen cs := rfl

/-- `s.len()`. -/
def byteLen (s : String) : ℕ := charsLen s.toList

/-! ### Slices up to a byte -/

/-- The first characters of the list, whose encoding has `n` bytes, if there are such. -/
def takeBytes : ℕ → List Char → Option (List Char)
  | 0, _ => some []
  | _ + 1, [] => none
  | n + 1, c :: cs =>
      if c.utf8Size ≤ n + 1 then (takeBytes (n + 1 - c.utf8Size) cs).map fun p => c :: p else none

/-- **A slice is the prefix of its length.** -/
theorem takeBytes_eq_some {n : ℕ} {cs p : List Char} :
    takeBytes n cs = some p ↔ p <+: cs ∧ charsLen p = n := by
  fun_induction takeBytes n cs generalizing p with
  | case1 cs =>
      rw [Option.some.injEq]
      constructor
      · rintro rfl
        exact ⟨List.nil_prefix, rfl⟩
      · rintro ⟨-, hlen⟩
        cases p with
        | nil => rfl
        | cons c p =>
            -- a character has a byte at least
            have hpos := c.utf8Size_pos
            rw [charsLen_cons] at hlen
            omega
  | case2 n =>
      refine iff_of_false (by simp) ?_
      rintro ⟨hstart, hlen⟩
      rw [List.prefix_nil] at hstart
      subst hstart
      cases hlen
  | case3 n c cs hc ih =>
      rw [Option.map_eq_some_iff]
      constructor
      · rintro ⟨q, hq, rfl⟩
        obtain ⟨hstart, hlen⟩ := ih.1 hq
        refine ⟨List.cons_prefix_cons.2 ⟨rfl, hstart⟩, ?_⟩
        rw [charsLen_cons]
        omega
      · rintro ⟨hstart, hlen⟩
        cases p with
        | nil => cases hlen
        | cons d q =>
            obtain ⟨rfl, hq⟩ := List.cons_prefix_cons.1 hstart
            rw [charsLen_cons] at hlen
            exact ⟨q, ih.2 ⟨hq, by omega⟩, rfl⟩
  | case4 n c cs hc =>
      -- the first character alone goes beyond the bytes that are left
      refine iff_of_false (by simp) ?_
      rintro ⟨hstart, hlen⟩
      cases p with
      | nil => cases hlen
      | cons d q =>
          obtain ⟨rfl, -⟩ := List.cons_prefix_cons.1 hstart
          rw [charsLen_cons] at hlen
          omega

/-- `&s[..n]`. -/
def sliceTo (n : ℕ) (s : String) : Outcome String :=
  match takeBytes n s.toList with
  | some cs => .ok (String.ofList cs)
  | none => .panic

/-- The byte `n` is in the text and not the start of a character. -/
def Splits (n : ℕ) (s : String) : Prop := n < byteLen s ∧ ∀ p, p <+: s.toList → charsLen p ≠ n

theorem sliceTo_byteLen (s : String) : sliceTo (byteLen s) s = .ok s := by
  have htake : takeBytes (byteLen s) s.toList = some s.toList :=
    takeBytes_eq_some.2 ⟨List.prefix_rfl, rfl⟩
  simp only [sliceTo, htake, String.ofList_toList]

/-- **When a slice up to a byte panics**: when the byte splits a character. -/
theorem sliceTo_panicsIff {n : ℕ} {s : String} (h : n ≤ byteLen s) :
    (sliceTo n s).PanicsIff (Splits n s) := by
  rcases Nat.lt_or_eq_of_le h with hlt | rfl
  · unfold sliceTo
    cases htake : takeBytes n s.toList with
    | some cs =>
        obtain ⟨hstart, hlen⟩ := takeBytes_eq_some.1 htake
        exact Or.inr ⟨fun hsplits => hsplits.2 cs hstart hlen, _, rfl⟩
    | none =>
        refine Or.inl ⟨⟨hlt, fun p hstart hlen => ?_⟩, rfl⟩
        rw [takeBytes_eq_some.2 ⟨hstart, hlen⟩] at htake
        cases htake
  · exact Or.inr ⟨fun hsplits => absurd hsplits.1 (Nat.lt_irrefl _), s, sliceTo_byteLen s⟩

end Rust
