/-
Finitely many intervals of natural numbers, with gaps between them and overlaps.

An interval is a start and a length.  Counting the pairs of an interval and one of its points in two
ways gives the sum of the lengths as a sum over the points, and so what the gaps and the overlaps
make it differ from the end of the last interval.

Main definitions:

* `Intervals.depth` — the number of intervals that a point lies in;
* `Intervals.stop`, `Intervals.total` — the end of the last interval, and the sum of the lengths;
* `Intervals.uncovered`, `Intervals.excess` — the points in the gaps, and the points that are
  counted more than once, as often as they are.

Main results:

* `Intervals.sum_depth` — **the sum of the lengths** is the sum of the depths;
* `Intervals.stop_add_excess` — **gaps against overlaps**;
* `Intervals.forall_lt_total_iff` — **the points lie below the sum of the lengths** exactly when the
  gaps have no more points than the overlaps count again.
-/

import Mathlib.Algebra.BigOperators.Group.Finset.Piecewise
import Mathlib.Algebra.Order.Ring.Int
import Mathlib.Order.Interval.Finset.Nat

set_option relaxedAutoImplicit false
set_option autoImplicit false

namespace Intervals

/-- The point lies in the interval. -/
def Contains (iv : ℕ × ℕ) (i : ℕ) : Prop := iv.1 ≤ i ∧ i < iv.1 + iv.2

instance (iv : ℕ × ℕ) (i : ℕ) : Decidable (Contains iv i) := by
  unfold Contains
  infer_instance

variable (ivs : List (ℕ × ℕ))

/-- The number of intervals that a point lies in. -/
def depth (i : ℕ) : ℕ := ivs.countP fun iv => Contains iv i

/-- The first point behind all intervals that have points. -/
def stop : ℕ := ivs.foldr (fun iv last => if iv.2 = 0 then last else max (iv.1 + iv.2) last) 0

/-- The sum of the lengths. -/
def total : ℕ := (ivs.map Prod.snd).sum

/-- The number of points before the last end that lie in no interval. -/
def uncovered : ℕ := {i ∈ Finset.range (stop ivs) | depth ivs i = 0}.card

/-- The number of points before the last end, each as often as it lies in one more interval than
one. -/
def excess : ℕ := ∑ i ∈ Finset.range (stop ivs), (depth ivs i - 1)

variable {ivs}

theorem depth_cons (iv : ℕ × ℕ) (ivs : List (ℕ × ℕ)) (i : ℕ) :
    depth (iv :: ivs) i = depth ivs i + if Contains iv i then 1 else 0 := by
  simp only [depth, List.countP_cons, decide_eq_true_eq]

/-! ### The last end -/

/-- The last end is the least bound of the points. -/
theorem stop_le_iff {n : ℕ} : stop ivs ≤ n ↔ ∀ iv ∈ ivs, ∀ i, Contains iv i → i < n := by
  induction ivs with
  | nil => simp [stop]
  | cons iv ivs ih =>
      have hstop : stop (iv :: ivs) =
          if iv.2 = 0 then stop ivs else max (iv.1 + iv.2) (stop ivs) := rfl
      have hpoints : (iv.2 = 0 ∨ iv.1 + iv.2 ≤ n) ↔ ∀ i, Contains iv i → i < n := by
        constructor
        · rintro h i ⟨hle, hlt⟩
          omega
        · intro h
          by_contra hno
          -- the last point of the interval
          have hlast := h (iv.1 + iv.2 - 1) ⟨by omega, by omega⟩
          omega
      rw [List.forall_mem_cons, ← hpoints, ← ih, hstop]
      split_ifs with hempty
      · simp [hempty]
      · simp [hempty]

/-! ### Counting in two ways -/

theorem sum_contains {iv : ℕ × ℕ} {n : ℕ} (h : ∀ i, Contains iv i → i < n) :
    (∑ i ∈ Finset.range n, if Contains iv i then 1 else 0) = iv.2 := by
  have hpoints : {i ∈ Finset.range n | Contains iv i} = Finset.Ico iv.1 (iv.1 + iv.2) := by
    ext i
    rw [Finset.mem_filter, Finset.mem_range, Finset.mem_Ico]
    exact ⟨fun hi => hi.2, fun hi => ⟨h i hi, hi⟩⟩
  rw [← Finset.card_filter, hpoints, Nat.card_Ico, Nat.add_sub_cancel_left]

/-- **The sum of the lengths** is the sum of the depths. -/
theorem sum_depth {n : ℕ} (h : stop ivs ≤ n) :
    ∑ i ∈ Finset.range n, depth ivs i = total ivs := by
  rw [stop_le_iff] at h
  induction ivs with
  | nil => simp [depth, total]
  | cons iv ivs ih =>
      rw [List.forall_mem_cons] at h
      have htotal : total (iv :: ivs) = iv.2 + total ivs := by
        rw [total, List.map_cons, List.sum_cons, total]
      simp only [depth_cons, Finset.sum_add_distrib]
      rw [ih h.2, sum_contains h.1, htotal, Nat.add_comm]

/-- **Gaps against overlaps**: the points before the last end, and once more those counted again,
are the lengths of all intervals and the points of the gaps. -/
theorem stop_add_excess : stop ivs + excess ivs = total ivs + uncovered ivs := by
  have hcount : ∀ i, 1 + (depth ivs i - 1) = depth ivs i + if depth ivs i = 0 then 1 else 0 := by
    intro i
    split_ifs with h
    · omega
    · omega
  calc stop ivs + excess ivs
      = ∑ i ∈ Finset.range (stop ivs), (1 + (depth ivs i - 1)) := by
        rw [Finset.sum_add_distrib, ← Finset.card_eq_sum_ones, Finset.card_range, excess]
    _ = ∑ i ∈ Finset.range (stop ivs), (depth ivs i + if depth ivs i = 0 then 1 else 0) :=
        Finset.sum_congr rfl fun i _ => hcount i
    _ = total ivs + uncovered ivs := by
        rw [Finset.sum_add_distrib, sum_depth le_rfl, uncovered, Finset.card_filter]

/-- **The points lie below the sum of the lengths** exactly when the gaps have no more points than
the overlaps count again. -/
theorem forall_lt_total_iff :
    (∀ iv ∈ ivs, ∀ i, Contains iv i → i < total ivs) ↔ uncovered ivs ≤ excess ivs := by
  rw [← stop_le_iff]
  have h := @stop_add_excess ivs
  omega

end Intervals
