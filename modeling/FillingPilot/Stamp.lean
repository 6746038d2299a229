/-
A value that is read now and used later.

Tasks read a shared value, and use what they have read when their turn comes.  The value may be set
in between, and the use is then outdated.  A task reads again only after it has used, or dropped,
what it has.

Main definitions:

* `Stamp.State`, `Stamp.Event`, `Stamp.step` — the value, the tasks and their steps;
* `Stamp.outdated` — how many uses of a task were outdated;
* `Stamp.owes` — a task holds what is outdated.

Main results:

* `Stamp.step_outdated` — what one step adds;
* `Stamp.outdated_le` — **each setting makes at most one use of a task outdated**.
-/

import FillingPilot.Runs
import Mathlib.Logic.Function.Basic

set_option relaxedAutoImplicit false
set_option autoImplicit false

namespace Stamp

universe u v

variable {τ : Type u} {ν : Type v}

/-! ### Steps -/

/-- A use: who used, what it had read, and the value by then. -/
structure Use (τ : Type u) (ν : Type v) where
  task : τ
  taken : ν
  current : ν
  deriving DecidableEq

/-- The value, what the tasks have read and not used, and the uses so far. -/
structure State (τ : Type u) (ν : Type v) where
  value : ν
  taken : τ → Option ν
  uses : List (Use τ ν)

/-- What can happen. -/
inductive Event (τ : Type u) (ν : Type v)
  | set (v : ν)
  | take (t : τ)
  | use (t : τ)
  | drop (t : τ)

section Steps

variable [DecidableEq τ]

/-- The state with what a task has read. -/
def State.put (st : State τ ν) (t : τ) (held : Option ν) : State τ ν :=
  { st with taken := Function.update st.taken t held }

/-- The state with another use. -/
def State.record (st : State τ ν) (u : Use τ ν) : State τ ν := { st with uses := st.uses ++ [u] }

/-- A task that holds already what it is given. -/
theorem put_eq_self {st : State τ ν} {t : τ} {held : Option ν} (h : st.taken t = held) :
    st.put t held = st := by
  rw [State.put, ← h, Function.update_eq_self]

/-- One step. -/
def step (st : State τ ν) : Event τ ν → Option (State τ ν)
  | .set v => some { st with value := v }
  | .take t =>
      match st.taken t with
      | none => some (st.put t (some st.value))
      | some _ => none
  | .use t => (st.taken t).map fun v => (st.put t none).record ⟨t, v, st.value⟩
  | .drop t => (st.taken t).map fun _ => st.put t none

end Steps

/-! ### Outdated uses -/

/-- The use of a task is outdated. -/
def Use.OutdatedBy (t : τ) (u : Use τ ν) : Prop := u.task = t ∧ u.taken ≠ u.current

variable [DecidableEq ν]

/-- A task holds what is outdated, which counts as one. -/
def owes (t : τ) (st : State τ ν) : ℕ :=
  match st.taken t with
  | some v => if v = st.value then 0 else 1
  | none => 0

/-- The value is set. -/
def Event.isSet : Event τ ν → Bool
  | .set _ => true
  | _ => false

theorem owes_le_one (t : τ) (st : State τ ν) : owes t st ≤ 1 := by
  unfold owes
  split
  · split_ifs <;> omega
  · omega

@[simp] theorem owes_record (t : τ) (st : State τ ν) (u : Use τ ν) :
    owes t (st.record u) = owes t st := rfl

variable [DecidableEq τ]

instance (t : τ) (u : Use τ ν) : Decidable (u.OutdatedBy t) :=
  inferInstanceAs (Decidable (_ ∧ _))

/-- How many uses of a task were outdated. -/
def outdated (t : τ) (uses : List (Use τ ν)) : ℕ := uses.countP fun u => u.OutdatedBy t

@[simp] theorem owes_put_none (t : τ) (st : State τ ν) : owes t (st.put t none) = 0 := by
  simp [owes, State.put]

@[simp] theorem owes_put_value (t : τ) (st : State τ ν) :
    owes t (st.put t (some st.value)) = 0 := by
  simp [owes, State.put]

theorem owes_put_ne (st : State τ ν) {t t' : τ} (h : t ≠ t') (held : Option ν) :
    owes t (st.put t' held) = owes t st := by
  have htaken : (st.put t' held).taken t = st.taken t := Function.update_of_ne h _ _
  have hvalue : (st.put t' held).value = st.value := rfl
  rw [owes, htaken, hvalue, owes]

theorem outdated_record (t : τ) (st : State τ ν) (u : Use τ ν) :
    outdated t (st.record u).uses = outdated t st.uses + if u.OutdatedBy t then 1 else 0 := by
  simp [outdated, State.record, List.countP_append, List.countP_singleton]

/-- A use pays what is owed. -/
theorem outdatedBy_eq_owes {st : State τ ν} {t : τ} {v : ν} (h : st.taken t = some v) :
    (if Use.OutdatedBy t (⟨t, v, st.value⟩ : Use τ ν) then 1 else 0) = owes t st := by
  rw [owes, h]
  by_cases hcurrent : v = st.value
  · simp [Use.OutdatedBy, hcurrent]
  · simp [Use.OutdatedBy, hcurrent]

/-- **What one step adds**: a setting may make what a task holds outdated, and a use turns what is
owed into a use that is outdated. -/
theorem step_outdated {st st' : State τ ν} {e : Event τ ν} (h : step st e = some st') (t : τ) :
    outdated t st'.uses + owes t st' ≤
      outdated t st.uses + owes t st + if e.isSet then 1 else 0 := by
  cases e with
  | set v =>
      obtain rfl := Option.some.inj h
      have hone := owes_le_one t { st with value := v }
      simp only [Event.isSet, if_true]
      omega
  | take t' =>
      simp only [step] at h
      split at h
      · cases h
        have huses : (st.put t' (some st.value)).uses = st.uses := rfl
        rw [huses]
        by_cases ht : t = t'
        · subst ht
          rw [owes_put_value]
          omega
        · rw [owes_put_ne st ht]
          omega
      · cases h
  | use t' =>
      obtain ⟨v, hv, rfl⟩ := Option.map_eq_some_iff.1 h
      have huses : (st.put t' none).uses = st.uses := rfl
      rw [outdated_record, owes_record, huses]
      by_cases ht : t = t'
      · subst ht
        rw [owes_put_none, outdatedBy_eq_owes hv]
        omega
      · have hother : ¬ Use.OutdatedBy t (⟨t', v, st.value⟩ : Use τ ν) := fun hu => ht hu.1.symm
        rw [if_neg hother, owes_put_ne st ht]
        omega
  | drop t' =>
      obtain ⟨v, -, rfl⟩ := Option.map_eq_some_iff.1 h
      have huses : (st.put t' none).uses = st.uses := rfl
      rw [huses]
      by_cases ht : t = t'
      · subst ht
        rw [owes_put_none]
        omega
      · rw [owes_put_ne st ht]
        omega

/-- **Each setting makes at most one use of a task outdated.** -/
theorem outdated_le {st st' : State τ ν} {events : List (Event τ ν)}
    (h : Lts.run step st events = some st') (t : τ) :
    outdated t st'.uses + owes t st' ≤
      outdated t st.uses + owes t st + events.countP Event.isSet := by
  induction events generalizing st with
  | nil =>
      cases h
      simp
  | cons e events ih =>
      obtain ⟨u, hu, hrun⟩ := Lts.run_cons.1 h
      have hfirst := step_outdated hu t
      have hrest := ih hrun
      rw [List.countP_cons]
      omega

end Stamp
