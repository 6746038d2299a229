/-
**Memories of cells.**

A memory has areas, and each area has numbered cells.  Data are written over a range of cells of one
area and read from one; a read gives what the last writes have left there.  Nothing here depends on
what the areas and the cells are.

Main definitions:

* `CellMemory` — the content of each cell of each area;
* `CellMemory.read`, `CellMemory.write` — a range of cells;
* `CellMemory.Holds` — a range of cells has the data;
* `CellMemory.SameApart` — the same cells but for a range.

Main results:

* `CellMemory.holds_write_self` — **a write is there**;
* `CellMemory.sameApart_write` — **a write leaves every cell out of its range alone**;
* `CellMemory.Holds.sameApart` — **data apart from the range** are still there;
* `CellMemory.Holds.read` — a read inside the range gives the part of the data.
-/

import FillingPilot.Splice
import Mathlib.Data.List.Range

set_option relaxedAutoImplicit false
set_option autoImplicit false

universe u v

/-- The content of each cell of each area. -/
def CellMemory (κ : Type u) (β : Type v) := κ → ℕ → β

namespace CellMemory

variable {κ : Type u} {β : Type v}

/-! ### Reads and writes -/

/-- The cells of an area from `start` on. -/
def read (m : CellMemory κ β) (k : κ) (start len : ℕ) : List β :=
  (List.range len).map fun i => m k (start + i)

/-- The data over the cells of an area from `start` on. -/
def write [DecidableEq κ] (m : CellMemory κ β) (k : κ) (start : ℕ) (data : List β) :
    CellMemory κ β :=
  fun k' i => if k' = k ∧ start ≤ i then data[i - start]?.getD (m k' i) else m k' i

/-- The cells of an area from `start` on have the data. -/
def Holds (m : CellMemory κ β) (k : κ) (start : ℕ) (data : List β) : Prop :=
  ∀ (i : ℕ) b, data[i]? = some b → m k (start + i) = b

/-- Two ranges of cells have none in common. -/
def Apart (start len start' len' : ℕ) : Prop := start + len ≤ start' ∨ start' + len' ≤ start

/-- Two memories with the same cells but for a range. -/
def SameApart (m m' : CellMemory κ β) (k : κ) (start len : ℕ) : Prop :=
  ∀ k' i, (k' = k → i < start ∨ start + len ≤ i) → m' k' i = m k' i

/-- **A write leaves every cell out of its range alone.** -/
theorem sameApart_write [DecidableEq κ] (m : CellMemory κ β) (k : κ) (start : ℕ)
    (data : List β) : m.SameApart (m.write k start data) k start data.length := by
  intro k' i h
  unfold write
  split
  next hin =>
    have hout : data.length ≤ i - start := by
      have hrange := h hin.1
      omega
    rw [List.getElem?_eq_none hout, Option.getD_none]
  next => rfl

/-- **A write is there.** -/
theorem holds_write_self [DecidableEq κ] (m : CellMemory κ β) (k : κ) (start : ℕ)
    (data : List β) : (m.write k start data).Holds k start data := by
  intro i b hb
  unfold write
  rw [if_pos ⟨rfl, Nat.le_add_right start i⟩, Nat.add_sub_cancel_left, hb, Option.getD_some]

/-- **Data apart from the range** are still there. -/
theorem Holds.sameApart {m m' : CellMemory κ β} {k k' : κ} {start start' len : ℕ} {data : List β}
    (h : m.Holds k start data) (hsame : m.SameApart m' k' start' len)
    (hapart : k = k' → Apart start data.length start' len) : m'.Holds k start data := by
  intro i b hb
  obtain ⟨hi, -⟩ := List.getElem?_eq_some_iff.1 hb
  rw [hsame k _ fun hk => ?_]
  · exact h i b hb
  · rcases hapart hk with hbefore | hafter
    · exact Or.inl (by omega)
    · exact Or.inr (by omega)

/-- **A read inside the range** gives the part of the data. -/
theorem Holds.read {m : CellMemory κ β} {k : κ} {start start' len : ℕ} {data : List β}
    (h : m.Holds k start data) (hstart : start ≤ start')
    (hend : start' + len ≤ start + data.length) :
    m.read k start' len = data.slice (start' - start) len := by
  refine List.ext_getElem? fun i => ?_
  rw [List.getElem?_slice, CellMemory.read, List.getElem?_map]
  rcases Nat.lt_or_ge i len with hi | hi
  · have hlt : start' - start + i < data.length := by omega
    have hcell : m k (start + (start' - start + i)) = data[start' - start + i] :=
      h _ _ (List.getElem?_eq_getElem hlt)
    rw [if_pos hi, List.getElem?_range hi, Option.map_some, List.getElem?_eq_getElem hlt, ← hcell]
    congr 2
    omega
  · rw [if_neg (by omega), List.getElem?_eq_none (by simpa using hi), Option.map_none]

end CellMemory
