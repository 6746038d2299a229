/-
The changes of a key along a list.

A log that starts a new entry whenever the key of its input changes keeps, of every block of equal
keys, the first element.  `Mathlib`'s `List.destutter` says this for the list together with the
element before it; a log is rather built by a recursion that carries the current key.

Main definitions:

* `List.changes` — the elements at which the key changes, from a current key on.

Main results:

* `List.tail_destutter_cons_eq_changes` — the recursion is `destutter` without its head;
* `List.map_changes` — the keys of the changes are the keys with repetitions removed;
* `List.isChain_concat` — a log whose neighbours are related, with one more entry.
-/

import Mathlib.Data.List.Chain
import Mathlib.Data.List.Destutter

set_option relaxedAutoImplicit false
set_option autoImplicit false

namespace List

universe u v

variable {α : Type u} {κ : Type v} [DecidableEq κ]

/-- The elements at which the key changes, `k` being the key before the list. -/
def changes (key : α → κ) (k : κ) : List α → List α
  | [] => []
  | a :: l => if k = key a then changes key k l else a :: changes key (key a) l

@[simp] theorem changes_nil (key : α → κ) (k : κ) : changes key k [] = [] := rfl

theorem changes_cons_of_eq {key : α → κ} {k : κ} {a : α} {l : List α} (h : k = key a) :
    changes key k (a :: l) = changes key k l := by
  simp [changes, h]

theorem changes_cons_of_ne {key : α → κ} {k : κ} {a : α} {l : List α} (h : k ≠ key a) :
    changes key k (a :: l) = a :: changes key (key a) l := by
  simp [changes, h]

theorem destutter'_eq_cons_changes (key : α → κ) (a : α) (l : List α) :
    l.destutter' (fun x y => key x ≠ key y) a = a :: changes key (key a) l := by
  induction l generalizing a with
  | nil => rfl
  | cons b l ih =>
      by_cases h : key a = key b
      · rw [destutter'_cons_neg l (by simpa using h), ih a, changes_cons_of_eq h]
      · rw [destutter'_cons_pos l h, ih b, changes_cons_of_ne h]

/-- The recursion is `destutter` without its head. -/
theorem tail_destutter_cons_eq_changes (key : α → κ) (a : α) (l : List α) :
    ((a :: l).destutter fun x y => key x ≠ key y).tail = changes key (key a) l := by
  rw [destutter_cons', destutter'_eq_cons_changes, tail_cons]

theorem map_changes (key : α → κ) (k : κ) (l : List α) :
    (changes key k l).map key = ((k :: l.map key).destutter (· ≠ ·)).tail := by
  have hkeys : ((k :: l.map key).destutter (· ≠ ·)).tail = changes id k (l.map key) :=
    tail_destutter_cons_eq_changes id k (l.map key)
  rw [hkeys]
  clear hkeys
  induction l generalizing k with
  | nil => rfl
  | cons a l ih =>
      by_cases h : k = key a
      · have hid : k = id (key a) := h
        rw [changes_cons_of_eq h, map_cons, changes_cons_of_eq hid, ih]
      · have hid : k ≠ id (key a) := h
        rw [changes_cons_of_ne h, map_cons, map_cons, changes_cons_of_ne hid, ih, id]

/-- A chain with one more element. -/
theorem isChain_concat {R : α → α → Prop} {l : List α} {b : α} (hl : l.IsChain R)
    (hb : ∀ a ∈ l.getLast?, R a b) : (l ++ [b]).IsChain R :=
  isChain_append.2 ⟨hl, IsChain.singleton b, fun a ha b' hb' => by
    rw [head?_cons, Option.mem_some_iff] at hb'
    exact hb' ▸ hb a ha⟩

end List
