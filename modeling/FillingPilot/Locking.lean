/-
Calls that share reader-writer locks, one step at a time.

A call is a program: it acquires and releases locks, does I/O that may turn out either way, and
reads and writes shared data.  An asynchronous reader-writer lock serves its requests in the order
of their arrival: a request takes a ticket, and the lock is granted to the oldest ticket as soon as
no holder is in its way, so that a reader also waits behind a writer that came before it.

Main definitions:

* `Locking.Prog`, `Locking.Call`, `Locking.State` — programs, calls under way, and the whole
  system;
* `Locking.State.advance` — one step of one call;
* `Locking.Prog.Follows` — the program asks for each lock only while it holds what a rule allows;
* `Locking.State.Stuck` — no call can take a step;
* `Locking.Blocked` — two calls wait for each other.

Main results:

* `Locking.State.advance_follows` — a step keeps the rule;
* `Locking.State.Stuck.exists_holder` — in a stuck system every lock that is waited for has a
  holder;
* `Locking.State.Stuck.next` — **the chain**: that holder waits in turn, for a lock the rule lets
  it ask for;
* `Locking.State.advance_blocked` — **two calls that block each other stay where they are**.
-/

import Mathlib.Data.List.Basic
import Mathlib.Data.Nat.Find
import Mathlib.Tactic.Common

set_option relaxedAutoImplicit false
set_option autoImplicit false

namespace Locking

universe u v

variable {L : Type u} {D : Type v}

/-! ### Programs and calls -/

/-- The two ways to hold a lock. -/
inductive Access
  | read
  | write
  deriving DecidableEq

/-- What a call still has to do: `L` are the locks and `D` is the shared data. -/
inductive Prog (L : Type u) (D : Type v)
  | done
  | acquire (l : L) (a : Access) (k : Prog L D)
  | release (l : L) (k : Prog L D)
  /-- I/O with either outcome. -/
  | io (k : Bool → Prog L D)
  /-- The data is changed by `f`; what comes next may depend on the data before. -/
  | act (f : D → D) (k : D → Prog L D)

/-- A call under way: what is left of it, the locks it holds and, while it waits for the lock it
asks for, its ticket. -/
structure Call (L : Type u) (D : Type v) where
  prog : Prog L D
  held : List (L × Access)
  ticket : Option ℕ

/-- The calls, finished ones included, the shared data, and the next ticket. -/
structure State (L : Type u) (D : Type v) where
  calls : List (Call L D)
  data : D
  clock : ℕ

/-- A call that starts. -/
def Prog.start (p : Prog L D) : Call L D := ⟨p, [], none⟩

/-- The call has asked for the lock and waits for it. -/
def Call.WaitsFor (c : Call L D) (l : L) (a : Access) : Prop :=
  (∃ k, c.prog = .acquire l a k) ∧ c.ticket.isSome

/-- The call is about to ask for the lock. -/
def Call.AboutToAsk (c : Call L D) (l : L) (a : Access) : Prop :=
  (∃ k, c.prog = .acquire l a k) ∧ c.ticket = none

section Steps

variable [DecidableEq L]

/-- The call does not keep a request with ticket `n` from being granted: it holds the lock in no
way that conflicts, and it has not asked for it earlier. -/
def Call.allows (l : L) (a : Access) (n : ℕ) (c : Call L D) : Bool :=
  (c.held.all fun h => h.1 ≠ l || (a = .read && h.2 = .read)) &&
    match c.prog, c.ticket with
    | .acquire l' _ _, some n' => l' ≠ l || n ≤ n'
    | _, _ => true

/-- A request is granted when no call is in its way. -/
def State.grants (st : State L D) (l : L) (a : Access) (n : ℕ) : Bool :=
  st.calls.all (Call.allows l a n)

/-- One step of the call with index `i`; `ok` is the outcome of the I/O, if the step is one. -/
def State.advance (st : State L D) (i : ℕ) (ok : Bool) : Option (State L D) :=
  st.calls[i]?.bind fun c =>
    match c.prog with
    | .done => none
    | .acquire l a k =>
        match c.ticket with
        | none => some { st with
            calls := st.calls.set i { c with ticket := some st.clock }, clock := st.clock + 1 }
        | some n =>
            if st.grants l a n then
              some { st with calls := st.calls.set i ⟨k, (l, a) :: c.held, none⟩ }
            else none
    | .release l k =>
        some { st with calls := st.calls.set i ⟨k, c.held.filter fun h => h.1 ≠ l, none⟩ }
    | .io k => some { st with calls := st.calls.set i ⟨k ok, c.held, none⟩ }
    | .act f k =>
        some { st with calls := st.calls.set i ⟨k st.data, c.held, none⟩, data := f st.data }

/-- A new call. -/
def State.spawn (st : State L D) (p : Prog L D) : State L D :=
  { st with calls := st.calls ++ [p.start] }

/-- The step of a call from `c` to `c'`, apart from what it does to the clock and the data. -/
inductive Call.Moves : Call L D → Call L D → Prop
  | ask {l a k held} (n : ℕ) :
      Call.Moves ⟨.acquire l a k, held, none⟩ ⟨.acquire l a k, held, some n⟩
  | grant {l a k held} (n : ℕ) :
      Call.Moves ⟨.acquire l a k, held, some n⟩ ⟨k, (l, a) :: held, none⟩
  | release {l k held t} :
      Call.Moves ⟨.release l k, held, t⟩ ⟨k, held.filter fun h => h.1 ≠ l, none⟩
  | io {k held t} (ok : Bool) : Call.Moves ⟨.io k, held, t⟩ ⟨k ok, held, none⟩
  | act {f k held t} (d : D) : Call.Moves ⟨.act f k, held, t⟩ ⟨k d, held, none⟩

theorem Call.Moves.aboutToAsk {c c' : Call L D} (h : c.Moves c') {l : L} {a : Access}
    (hwaits : c'.WaitsFor l a) : c.AboutToAsk l a ∧ c'.held = c.held := by
  obtain ⟨hask, hticket⟩ := hwaits
  cases h with
  | ask n => exact ⟨⟨hask, rfl⟩, rfl⟩
  | grant n => cases hticket
  | release => cases hticket
  | io ok => cases hticket
  | act d => cases hticket

/-- **A step moves one call** and leaves the others alone. -/
theorem State.advance_cases {st st' : State L D} {i : ℕ} {ok : Bool}
    (h : st.advance i ok = some st') :
    ∃ c c', st.calls[i]? = some c ∧ c.Moves c' ∧ st'.calls = st.calls.set i c' := by
  obtain ⟨⟨prog, held, ticket⟩, hc, h⟩ := Option.bind_eq_some_iff.1 h
  cases prog with
  | done => cases h
  | acquire l a k =>
      cases ticket with
      | none =>
          cases h
          exact ⟨_, _, hc, .ask _, rfl⟩
      | some n =>
          simp only [Option.ite_none_right_eq_some] at h
          obtain ⟨-, h⟩ := h
          cases h
          exact ⟨_, _, hc, .grant n, rfl⟩
  | release l k =>
      cases h
      exact ⟨_, _, hc, .release, rfl⟩
  | io k =>
      cases h
      exact ⟨_, _, hc, .io ok, rfl⟩
  | act f k =>
      cases h
      exact ⟨_, _, hc, .act st.data, rfl⟩

/-! ### Rules for asking -/

/-- The program, holding the locks `held`, asks for each lock only where the rule allows it, and
ends with none. -/
def Prog.Follows (rule : List (L × Access) → L → Access → Prop) :
    Prog L D → List (L × Access) → Prop
  | .done, held => held = []
  | .acquire l a k, held => rule held l a ∧ k.Follows rule ((l, a) :: held)
  | .release l k, held => k.Follows rule (held.filter fun h => h.1 ≠ l)
  | .io k, held => ∀ ok, (k ok).Follows rule held
  | .act _ k, held => ∀ d, (k d).Follows rule held

/-- The call follows the rule in what is left of it. -/
def Call.Follows (rule : List (L × Access) → L → Access → Prop) (c : Call L D) : Prop :=
  c.prog.Follows rule c.held

variable {rule : List (L × Access) → L → Access → Prop}

theorem Call.Moves.follows {c c' : Call L D} (h : c.Moves c') (hc : c.Follows rule) :
    c'.Follows rule := by
  cases h with
  | ask n => exact hc
  | grant n => exact hc.2
  | release => exact hc
  | io ok => exact hc ok
  | act d => exact hc d

/-- **A step keeps the rule.** -/
theorem State.advance_follows {st st' : State L D} {i : ℕ} {ok : Bool}
    (hst : ∀ c ∈ st.calls, c.Follows rule) (h : st.advance i ok = some st') :
    ∀ c ∈ st'.calls, c.Follows rule := by
  obtain ⟨c, c', hc, hmove, hcalls⟩ := State.advance_cases h
  intro d hd
  rw [hcalls] at hd
  rcases List.mem_or_eq_of_mem_set hd with hold | rfl
  · exact hst d hold
  · exact hmove.follows (hst c (List.mem_of_getElem? hc))

/-! ### Stuck systems -/

/-- No call can take a step. -/
def State.Stuck (st : State L D) : Prop := ∀ i ok, st.advance i ok = none

theorem State.Stuck.done_or_waits {st : State L D} (hst : st.Stuck) {c : Call L D}
    (hc : c ∈ st.calls) : c.prog = .done ∨ ∃ l a, c.WaitsFor l a := by
  obtain ⟨i, hi⟩ := List.getElem?_of_mem hc
  have hnone : st.advance i true = none := hst i true
  simp only [State.advance, hi, Option.bind_some] at hnone
  obtain ⟨prog, held, ticket⟩ := c
  cases prog with
  | done => exact Or.inl rfl
  | acquire l a k =>
      cases ticket with
      | none => cases hnone
      | some n => exact Or.inr ⟨l, a, ⟨k, rfl⟩, rfl⟩
  | release l k => cases hnone
  | io k => cases hnone
  | act f k => cases hnone

theorem State.Stuck.exists_not_allows {st : State L D} (hst : st.Stuck) {c : Call L D}
    (hc : c ∈ st.calls) {l : L} {a : Access} {k : Prog L D} {n : ℕ}
    (hprog : c.prog = .acquire l a k) (hticket : c.ticket = some n) :
    ∃ d ∈ st.calls, d.allows l a n = false := by
  obtain ⟨i, hi⟩ := List.getElem?_of_mem hc
  have hnone : st.advance i true = none := hst i true
  simp only [State.advance, hi, Option.bind_some, hprog, hticket] at hnone
  have hgrants : st.grants l a n = false := by
    by_contra htrue
    rw [Bool.not_eq_false] at htrue
    rw [if_pos htrue] at hnone
    cases hnone
  simpa [State.grants] using hgrants

/-- In a stuck system every lock that is waited for has a holder: the oldest request is not
granted, and no earlier one is in its way. -/
theorem State.Stuck.exists_holder {st : State L D} (hst : st.Stuck) {c : Call L D}
    (hc : c ∈ st.calls) {l : L} {a : Access} (hwaits : c.WaitsFor l a) :
    ∃ d ∈ st.calls, ∃ b, (l, b) ∈ d.held := by
  classical
  have hexists : ∃ n, ∃ c ∈ st.calls, (∃ a k, c.prog = .acquire l a k) ∧ c.ticket = some n := by
    obtain ⟨⟨k, hask⟩, hticket⟩ := hwaits
    obtain ⟨n, hn⟩ := Option.isSome_iff_exists.1 hticket
    exact ⟨n, c, hc, ⟨a, k, hask⟩, hn⟩
  -- of all calls that wait for the lock, the one with the lowest ticket waits for a holder
  obtain ⟨oldest, holdest, ⟨a, k, hprog⟩, hticket⟩ := Nat.find_spec hexists
  obtain ⟨d, hd, hway⟩ := hst.exists_not_allows holdest hprog hticket
  refine ⟨d, hd, ?_⟩
  by_contra hfree
  have hheld : (d.held.all fun h => h.1 ≠ l || (a = .read && h.2 = .read)) = true := by
    rw [List.all_eq_true]
    rintro ⟨l', b⟩ hh
    have hne : l' ≠ l := by
      rintro rfl
      exact hfree ⟨b, hh⟩
    simp [hne]
  rw [Call.allows, hheld, Bool.true_and] at hway
  split at hway
  · rename_i l' a' k' n' hprog' hticket'
    simp only [ne_eq, Bool.or_eq_false_iff, decide_eq_false_iff_not, not_not] at hway
    obtain ⟨rfl, hlt⟩ := hway
    exact hlt (Nat.find_min' hexists ⟨d, hd, ⟨a', k', hprog'⟩, hticket'⟩)
  · cases hway

/-- **The chain**: in a stuck system that follows a rule, a lock that is waited for is held by a
call that waits in turn, for a lock the rule lets it ask for. -/
theorem State.Stuck.next {st : State L D} (hst : st.Stuck)
    (hrule : ∀ c ∈ st.calls, c.Follows rule) {c : Call L D} (hc : c ∈ st.calls) {l : L}
    {a : Access} (hwaits : c.WaitsFor l a) :
    ∃ d ∈ st.calls, (∃ b, (l, b) ∈ d.held) ∧
      ∃ l' a', d.WaitsFor l' a' ∧ rule d.held l' a' := by
  obtain ⟨d, hd, b, hheld⟩ := hst.exists_holder hc hwaits
  have hfollows : d.prog.Follows rule d.held := hrule d hd
  refine ⟨d, hd, ⟨b, hheld⟩, ?_⟩
  rcases hst.done_or_waits hd with hdone | ⟨l', a', hwaits'⟩
  · -- a finished call holds nothing
    rw [hdone, Prog.Follows] at hfollows
    rw [hfollows] at hheld
    cases hheld
  · obtain ⟨k, hprog⟩ := hwaits'.1
    rw [hprog] at hfollows
    exact ⟨l', a', hwaits', hfollows.1⟩

/-! ### Calls that block each other -/

/-- A call that waits for a lock which another call holds in a conflicting way cannot move. -/
theorem State.advance_eq_none {st : State L D} {i : ℕ} {c d : Call L D} {l : L} {a b : Access}
    (hi : st.calls[i]? = some c) (hd : d ∈ st.calls) (hwaits : c.WaitsFor l a)
    (hheld : (l, b) ∈ d.held) (hconflict : a = .write ∨ b = .write) (ok : Bool) :
    st.advance i ok = none := by
  obtain ⟨⟨k, hprog⟩, hticket⟩ := hwaits
  obtain ⟨n, hn⟩ := Option.isSome_iff_exists.1 hticket
  have hway : d.allows l a n = false := by
    have hnot : (d.held.all fun h => h.1 ≠ l || (a = .read && h.2 = .read)) = false := by
      rw [List.all_eq_false]
      refine ⟨(l, b), hheld, ?_⟩
      rcases hconflict with rfl | rfl <;> simp
    rw [Call.allows, hnot, Bool.false_and]
  have hgrants : st.grants l a n = false := by
    rw [State.grants, List.all_eq_false]
    exact ⟨d, hd, by simp [hway]⟩
  simp [State.advance, hi, hprog, hn, hgrants]

/-- Two calls, each waiting for a lock the other holds in a conflicting way. -/
structure Blocked (c d : Call L D) : Prop where
  there : ∃ l a b, c.WaitsFor l a ∧ (l, b) ∈ d.held ∧ (a = .write ∨ b = .write)
  back : ∃ l a b, d.WaitsFor l a ∧ (l, b) ∈ c.held ∧ (a = .write ∨ b = .write)

/-- **Two calls that block each other stay where they are**, whatever the others do. -/
theorem State.advance_blocked {st st' : State L D} {i j k : ℕ} {ok : Bool} {c d : Call L D}
    (hblocked : Blocked c d) (hi : st.calls[i]? = some c) (hj : st.calls[j]? = some d)
    (h : st.advance k ok = some st') : st'.calls[i]? = some c ∧ st'.calls[j]? = some d := by
  obtain ⟨-, c', -, -, hcalls⟩ := State.advance_cases h
  have hki : k ≠ i := by
    rintro rfl
    obtain ⟨l, a, b, hwaits, hheld, hconflict⟩ := hblocked.there
    rw [State.advance_eq_none hi (List.mem_of_getElem? hj) hwaits hheld hconflict] at h
    cases h
  have hkj : k ≠ j := by
    rintro rfl
    obtain ⟨l, a, b, hwaits, hheld, hconflict⟩ := hblocked.back
    rw [State.advance_eq_none hj (List.mem_of_getElem? hi) hwaits hheld hconflict] at h
    cases h
  rw [hcalls, List.getElem?_set_ne hki, List.getElem?_set_ne hkj]
  exact ⟨hi, hj⟩

end Steps

end Locking
