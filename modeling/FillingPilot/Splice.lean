/-
Parts of a list, and writes over a part of it.

Main definitions:

* `List.slice` — the part of a list at a position;
* `List.splice` — a list with the part at a position overwritten;
* `List.spliceAll` — a list after several writes, one over the other;
* `List.Covers` — a write reaches a position.

Main results:

* `List.slice_splice_self`, `List.slice_splice_of_disjoint` — **what a write leaves**: its source at
  its place, and everything apart from it as it was;
* `List.splice_splice` — two adjacent writes are one;
* `List.slice_left`, `List.slice_right` — consecutive parts;
* `List.getElem?_spliceAll_filter` — **what stands at a position after several writes** is decided
  by those that reach it;
* `List.slice_spliceAll_of_mem` — writes in disjoint places can all be read back.
-/

import Mathlib.Data.List.Basic
import Mathlib.Data.List.Induction
import Mathlib.Tactic.Common

set_option relaxedAutoImplicit false
set_option autoImplicit false

universe u

namespace List

variable {α : Type u}

/-! ### Parts of a list -/

/-- The part of a list that starts at `start` and has `len` elements. -/
def slice (start len : ℕ) (xs : List α) : List α := (xs.drop start).take len

/-- The list with `src` written over the part that starts at `start`. -/
def splice (start : ℕ) (src xs : List α) : List α :=
  xs.take start ++ src ++ xs.drop (start + src.length)

theorem length_slice {start len : ℕ} {xs : List α} (h : start + len ≤ xs.length) :
    (xs.slice start len).length = len := by
  simp only [slice, length_take, length_drop]
  omega

theorem length_splice {start : ℕ} {src xs : List α} (h : start + src.length ≤ xs.length) :
    (splice start src xs).length = xs.length := by
  simp only [splice, length_append, length_take, length_drop]
  omega

theorem getElem?_slice (start len i : ℕ) (xs : List α) :
    (xs.slice start len)[i]? = if i < len then xs[start + i]? else none := by
  simp only [slice, getElem?_take, getElem?_drop]

theorem getElem?_splice {start : ℕ} {src xs : List α} (h : start + src.length ≤ xs.length)
    (i : ℕ) :
    (splice start src xs)[i]? =
      if start ≤ i ∧ i < start + src.length then src[i - start]? else xs[i]? := by
  have htake : (xs.take start).length = start := by rw [length_take]; omega
  rw [splice, append_assoc]
  rcases Nat.lt_or_ge i start with hlt | hge
  · rw [if_neg (by omega), getElem?_append_left (by omega), getElem?_take, if_pos hlt]
  · rw [getElem?_append_right (by omega), htake]
    rcases Nat.lt_or_ge i (start + src.length) with hin | hout
    · rw [if_pos ⟨hge, hin⟩, getElem?_append_left (by omega)]
    · rw [if_neg (by omega), getElem?_append_right (by omega), getElem?_drop]
      congr 1
      omega

/-- **A write can be read back.** -/
theorem slice_splice_self {start : ℕ} {src xs : List α} (h : start + src.length ≤ xs.length) :
    (splice start src xs).slice start src.length = src := by
  refine ext_getElem? fun i => ?_
  rw [getElem?_slice, getElem?_splice h]
  rcases Nat.lt_or_ge i src.length with hin | hout
  · rw [if_pos hin, if_pos (by omega), Nat.add_sub_cancel_left]
  · rw [if_neg (by omega), getElem?_eq_none hout]

/-- **A write leaves everything apart from its place alone.** -/
theorem slice_splice_of_disjoint {start start' len : ℕ} {src xs : List α}
    (h : start + src.length ≤ xs.length)
    (hdisjoint : start' + len ≤ start ∨ start + src.length ≤ start') :
    (splice start src xs).slice start' len = xs.slice start' len := by
  refine ext_getElem? fun i => ?_
  rw [getElem?_slice, getElem?_slice, getElem?_splice h]
  rcases Nat.lt_or_ge i len with hin | hout
  · rw [if_pos hin, if_pos hin, if_neg (by omega)]
  · rw [if_neg (by omega), if_neg (by omega)]

@[simp] theorem splice_nil (start : ℕ) (xs : List α) : splice start [] xs = xs := by
  simp [splice]

theorem splice_splice {start : ℕ} {a b xs : List α}
    (h : start + a.length + b.length ≤ xs.length) :
    splice (start + a.length) b (splice start a xs) = splice start (a ++ b) xs := by
  have ha : start + a.length ≤ xs.length := by omega
  have hab : start + (a ++ b).length ≤ xs.length := by rw [length_append]; omega
  have hb : start + a.length + b.length ≤ (splice start a xs).length := by
    rw [length_splice ha]
    omega
  refine ext_getElem? fun i => ?_
  rw [getElem?_splice hb, getElem?_splice ha, getElem?_splice hab, length_append]
  rcases Nat.lt_or_ge i (start + a.length) with hlt | hge
  · rw [if_neg (by omega)]
    rcases Nat.lt_or_ge i start with hlt' | hge'
    · rw [if_neg (by omega), if_neg (by omega)]
    · rw [if_pos (by omega), if_pos (by omega), getElem?_append_left (by omega)]
  · rcases Nat.lt_or_ge i (start + a.length + b.length) with hin | hout
    · rw [if_pos (by omega), if_pos (by omega), getElem?_append_right (by omega)]
      congr 1
      omega
    · rw [if_neg (by omega), if_neg (by omega), if_neg (by omega)]

theorem slice_left {start len : ℕ} {xs a b : List α} (h : xs.slice start len = a ++ b)
    (hlen : len = a.length + b.length) : xs.slice start a.length = a := by
  have htake : (xs.drop start).take a.length = ((xs.drop start).take len).take a.length := by
    rw [take_take, Nat.min_eq_left (by omega)]
  rw [slice] at h ⊢
  rw [htake, h, take_left]

theorem slice_right {start len : ℕ} {xs a b : List α} (h : xs.slice start len = a ++ b)
    (hlen : len = a.length + b.length) : xs.slice (start + a.length) b.length = b := by
  have hb : b.length = len - a.length := by omega
  rw [slice] at h ⊢
  rw [← drop_drop, hb, ← drop_take, h, drop_left]

/-! ### Several writes -/

/-- The list after writes of a source at a position each, in turn. -/
def spliceAll (writes : List (ℕ × List α)) (xs : List α) : List α :=
  writes.foldl (fun ys w => splice w.1 w.2 ys) xs

/-- The write reaches the position. -/
def Covers (i : ℕ) (w : ℕ × List α) : Prop := w.1 ≤ i ∧ i < w.1 + w.2.length

instance (i : ℕ) (w : ℕ × List α) : Decidable (Covers i w) := by
  unfold Covers
  infer_instance

@[simp] theorem spliceAll_nil (xs : List α) : spliceAll [] xs = xs := rfl

theorem spliceAll_cons (w : ℕ × List α) (writes : List (ℕ × List α)) (xs : List α) :
    spliceAll (w :: writes) xs = spliceAll writes (splice w.1 w.2 xs) := rfl

theorem spliceAll_append (writes writes' : List (ℕ × List α)) (xs : List α) :
    spliceAll (writes ++ writes') xs = spliceAll writes' (spliceAll writes xs) :=
  foldl_append

variable {writes : List (ℕ × List α)} {xs : List α}

theorem length_spliceAll (h : ∀ w ∈ writes, w.1 + w.2.length ≤ xs.length) :
    (spliceAll writes xs).length = xs.length := by
  induction writes generalizing xs with
  | nil => rfl
  | cons w writes ih =>
      have hlen : (splice w.1 w.2 xs).length = xs.length := length_splice (h w mem_cons_self)
      rw [spliceAll_cons, ih, hlen]
      intro w' hw'
      rw [hlen]
      exact h w' (mem_cons_of_mem w hw')

/-- **What stands at a position** is decided by the writes that reach it. -/
theorem getElem?_spliceAll_filter (h : ∀ w ∈ writes, w.1 + w.2.length ≤ xs.length) (i : ℕ) :
    (spliceAll writes xs)[i]? = (spliceAll (writes.filter fun w => Covers i w) xs)[i]? := by
  induction writes using reverseRecOn with
  | nil => rfl
  | append_singleton writes w ih =>
      have hold : ∀ w' ∈ writes, w'.1 + w'.2.length ≤ xs.length := fun w' hw' =>
        h w' (mem_append_left _ hw')
      have hw : w.1 + w.2.length ≤ xs.length := h w (mem_append_right _ (mem_singleton.2 rfl))
      have hreached : ∀ w' ∈ writes.filter fun w => Covers i w,
          w'.1 + w'.2.length ≤ xs.length := fun w' hw' => hold w' (mem_of_mem_filter hw')
      rw [filter_append, spliceAll_append, spliceAll_append, spliceAll_cons, spliceAll_nil,
        getElem?_splice (by rwa [length_spliceAll hold])]
      by_cases hcovers : w.1 ≤ i ∧ i < w.1 + w.2.length
      · -- the last write decides
        have hlast : [w].filter (fun w => Covers i w) = [w] := by simp [Covers, hcovers]
        rw [hlast, spliceAll_cons, spliceAll_nil,
          getElem?_splice (by rwa [length_spliceAll hreached]), if_pos hcovers, if_pos hcovers]
      · have hnone : [w].filter (fun w => Covers i w) = [] := by simp [Covers, hcovers]
        rw [hnone, spliceAll_nil, if_neg hcovers, ih hold]

theorem getElem?_spliceAll_of_notCovered (h : ∀ w ∈ writes, w.1 + w.2.length ≤ xs.length) {i : ℕ}
    (hi : ∀ w ∈ writes, ¬ Covers i w) : (spliceAll writes xs)[i]? = xs[i]? := by
  have hnone : (writes.filter fun w => Covers i w) = [] := by
    rw [filter_eq_nil_iff]
    intro w hw
    simpa using hi w hw
  rw [getElem?_spliceAll_filter h, hnone, spliceAll_nil]

theorem slice_spliceAll_of_disjoint {start len : ℕ}
    (h : ∀ w ∈ writes, w.1 + w.2.length ≤ xs.length)
    (hdisjoint : ∀ w ∈ writes, start + len ≤ w.1 ∨ w.1 + w.2.length ≤ start) :
    (spliceAll writes xs).slice start len = xs.slice start len := by
  refine ext_getElem? fun i => ?_
  rw [getElem?_slice, getElem?_slice]
  rcases Nat.lt_or_ge i len with hin | hout
  · rw [if_pos hin, if_pos hin, getElem?_spliceAll_of_notCovered h]
    rintro w hw ⟨hle, hlt⟩
    have hapart := hdisjoint w hw
    omega
  · rw [if_neg (by omega), if_neg (by omega)]

/-- **Writes in disjoint places can all be read back.** -/
theorem slice_spliceAll_of_mem (h : ∀ w ∈ writes, w.1 + w.2.length ≤ xs.length)
    (hdisjoint : writes.Pairwise fun w w' => w.1 + w.2.length ≤ w'.1 ∨ w'.1 + w'.2.length ≤ w.1)
    {w : ℕ × List α} (hw : w ∈ writes) : (spliceAll writes xs).slice w.1 w.2.length = w.2 := by
  induction writes generalizing xs with
  | nil => exact absurd hw not_mem_nil
  | cons first writes ih =>
      rw [pairwise_cons] at hdisjoint
      have hfirst : first.1 + first.2.length ≤ xs.length := h first mem_cons_self
      have hrest : ∀ w' ∈ writes, w'.1 + w'.2.length ≤ (splice first.1 first.2 xs).length := by
        intro w' hw'
        rw [length_splice hfirst]
        exact h w' (mem_cons_of_mem first hw')
      rw [spliceAll_cons]
      rcases mem_cons.1 hw with rfl | hw
      · -- the later writes leave this place alone
        rw [slice_spliceAll_of_disjoint hrest hdisjoint.1, slice_splice_self hfirst]
      · exact ih hrest hdisjoint.2 hw

end List
