/-
Calls that run inside other calls.

A component with locks and data of its own is used by a larger system: its calls run on a part of
the larger data, one after the other, and while the caller holds locks of the larger system.  What
such a call asks for is what it asked for by itself, on top of what the caller holds.

In a system of several components most locks are only asked for in an order.  A deadlock then leads,
from lock to lock, up to the components whose calls do not keep an order.

Main definitions:

* `Locking.Prog.seq`, `Locking.Prog.within` — a program and then another, and a program of a
  component inside the larger system;
* `Locking.Prog.guarded` — a section of one lock;
* `Locking.Climbs` — outside of a core of locks, requests go up in rank.

Main results:

* `Locking.Prog.Follows.within_seq` — **the rule for nested calls**;
* `Locking.Prog.follows_guarded` — the rule for a section;
* `Locking.State.Stuck.exists_waits_core` — **a deadlock leads to the core**.
-/

import FillingPilot.Locking
import Mathlib.Logic.Function.Basic
import Mathlib.Data.Set.Operations

set_option relaxedAutoImplicit false
set_option autoImplicit false

namespace Locking

universe u v u' v'

variable {L : Type u} {D : Type v} {L' : Type u'} {D' : Type v'}

/-! ### Programs from programs -/

/-- A program, and then another. -/
def Prog.seq : Prog L D → Prog L D → Prog L D
  | .done, q => q
  | .acquire l a k, q => .acquire l a (k.seq q)
  | .release l k, q => .release l (k.seq q)
  | .io k, q => .io fun ok => (k ok).seq q
  | .act f k, q => .act f fun d => (k d).seq q

/-- The data of a component as a part of a larger data. -/
structure Part (D' : Type v') (D : Type v) where
  get : D' → D
  set : D → D' → D'

/-- A program of a component, whose locks are named by `f` in the larger system. -/
def Prog.within (f : L → L') (part : Part D' D) : Prog L D → Prog L' D'
  | .done => .done
  | .acquire l a k => .acquire (f l) a (k.within f part)
  | .release l k => .release (f l) (k.within f part)
  | .io k => .io fun ok => (k ok).within f part
  | .act g k => .act (fun d => part.set (g (part.get d)) d) fun d => (k (part.get d)).within f part

/-- A section of one lock: the data is changed by `f`, and what comes next may depend on the data
before. -/
def Prog.guarded (l : L) (a : Access) (f : D → D) (k : D → Prog L D) : Prog L D :=
  .acquire l a <| .act f fun d => .release l (k d)

/-- A program for each element of a list, and then another. -/
def Prog.each {α : Type*} (p : α → Prog L D → Prog L D) (as : List α) (k : Prog L D) : Prog L D :=
  as.foldr p k

section Rules

variable [DecidableEq L] [DecidableEq L']

variable {rule : List (L × Access) → L → Access → Prop}
  {rule' : List (L' × Access) → L' → Access → Prop}

/-- What a nested call holds: its own locks, and those of its caller. -/
def nestedHeld (f : L → L') (held : List (L × Access)) (outer : List (L' × Access)) :
    List (L' × Access) :=
  held.map (fun h => (f h.1, h.2)) ++ outer

/-- A nested call that releases a lock of its own keeps the others, and those of its caller. -/
theorem filter_nestedHeld {f : L → L'} (hf : Function.Injective f) {outer : List (L' × Access)}
    (houter : ∀ h ∈ outer, h.1 ∉ Set.range f) (l : L) (held : List (L × Access)) :
    (nestedHeld f held outer).filter (fun h => h.1 ≠ f l) =
      nestedHeld f (held.filter fun h => h.1 ≠ l) outer := by
  have hinner : (held.map fun h => (f h.1, h.2)).filter (fun h => decide (h.1 ≠ f l)) =
      (held.filter fun h => h.1 ≠ l).map fun h => (f h.1, h.2) := by
    rw [List.filter_map]
    congr 1
    refine List.filter_congr fun h _ => ?_
    simp [hf.eq_iff]
  have hkept : outer.filter (fun h => decide (h.1 ≠ f l)) = outer := by
    rw [List.filter_eq_self]
    intro h hh
    exact decide_eq_true fun heq => houter h hh ⟨l, heq.symm⟩
  rw [nestedHeld, List.filter_append, hinner, hkept]
  rfl

/-- **The rule for nested calls**: a program of a component that follows the component's rule, and
then another program, when the larger rule allows what the component's allows. -/
theorem Prog.Follows.within_seq {f : L → L'} (hf : Function.Injective f) {part : Part D' D}
    {outer : List (L' × Access)} (houter : ∀ h ∈ outer, h.1 ∉ Set.range f)
    (hrule : ∀ held l a, rule held l a → rule' (nestedHeld f held outer) (f l) a)
    {q : Prog L' D'} (hq : q.Follows rule' outer) :
    ∀ {p : Prog L D} {held : List (L × Access)}, p.Follows rule held →
      ((p.within f part).seq q).Follows rule' (nestedHeld f held outer) := by
  intro p
  induction p with
  | done =>
      intro held h
      obtain rfl : held = [] := h
      exact hq
  | acquire l a k ih =>
      intro held h
      exact ⟨hrule held l a h.1, ih h.2⟩
  | release l k ih =>
      intro held h
      have hk := ih h
      rw [← filter_nestedHeld hf houter] at hk
      exact hk
  | io k ih =>
      intro held h ok
      exact ih ok (h ok)
  | act g k ih =>
      intro held h d
      exact ih (part.get d) (h (part.get d))

/-- **The rule for a section** of a lock that is not held already. -/
theorem Prog.follows_guarded {l : L} {a : Access} {f : D → D} {k : D → Prog L D}
    {held : List (L × Access)} (hfree : ∀ h ∈ held, h.1 ≠ l) (hask : rule held l a)
    (hk : ∀ d, (k d).Follows rule held) : (Prog.guarded l a f k).Follows rule held := by
  refine ⟨hask, fun d => ?_⟩
  have hheld : ((l, a) :: held).filter (fun h => decide (h.1 ≠ l)) = held := by
    rw [List.filter_cons_of_neg (by simp), List.filter_eq_self]
    exact fun h hh => decide_eq_true (hfree h hh)
  rw [Prog.Follows, hheld]
  exact hk d

/-- A list of programs follows the rule when each of them hands on what it was given. -/
theorem Prog.follows_each {α : Type*} {p : α → Prog L D → Prog L D} {held : List (L × Access)}
    (hp : ∀ a k, k.Follows rule held → (p a k).Follows rule held) {k : Prog L D}
    (hk : k.Follows rule held) (as : List α) : (Prog.each p as k).Follows rule held := by
  induction as with
  | nil => exact hk
  | cons a as ih => exact hp a _ ih

/-! ### A deadlock leads to the core -/

/-- A call that holds a lock outside of the core asks for locks of the core, or of a higher rank. -/
def Climbs (core : L → Prop) (rank : L → ℕ) (rule : List (L × Access) → L → Access → Prop) :
    Prop :=
  ∀ held l a, rule held l a → ∀ h ∈ held, ¬ core h.1 → core l ∨ rank h.1 < rank l

/-- **A deadlock leads to the core**: in a stuck system where some call is unfinished, some call
waits for a lock of the core. -/
theorem State.Stuck.exists_waits_core {st : State L D} (hst : st.Stuck)
    (hrule : ∀ c ∈ st.calls, c.Follows rule) {core : L → Prop} {rank : L → ℕ} {bound : ℕ}
    (hclimbs : Climbs core rank rule) (hbound : ∀ l, rank l ≤ bound) {c : Call L D}
    (hc : c ∈ st.calls) (hunfinished : c.prog ≠ .done) :
    ∃ d ∈ st.calls, ∃ l a, core l ∧ d.WaitsFor l a := by
  -- a lock that is waited for leads to one of the core, by what is left up to the bound
  have hchain : ∀ (n : ℕ) (c : Call L D) (l : L) (a : Access), c ∈ st.calls → c.WaitsFor l a →
      bound - rank l = n → ∃ d ∈ st.calls, ∃ l a, core l ∧ d.WaitsFor l a := by
    intro n
    induction n using Nat.strong_induction_on with
    | _ n ih =>
        intro c l a hc hwaits hleft
        by_cases hcore : core l
        · exact ⟨c, hc, l, a, hcore, hwaits⟩
        · obtain ⟨d, hd, ⟨b, hheld⟩, l', a', hwaits', hask⟩ := hst.next hrule hc hwaits
          rcases hclimbs _ _ _ hask _ hheld hcore with hcore' | hup
          · exact ⟨d, hd, l', a', hcore', hwaits'⟩
          · have hle := hbound l'
            dsimp only at hup
            exact ih (bound - rank l') (by omega) d l' a' hd hwaits' rfl
  rcases hst.done_or_waits hc with hdone | ⟨l, a, hwaits⟩
  · exact absurd hdone hunfinished
  · exact hchain _ c l a hc hwaits rfl

end Rules

end Locking
