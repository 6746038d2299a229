/-
Items that are handed out in batches.

A batch of items is handed out to tasks, one item each, and each task sends its item when its turn
comes, in any order.  Items of one key replace each other where they arrive.

Main definitions:

* `Batches.State`, `Batches.Event`, `Batches.step` — the items and the tasks;
* `Batches.latest` — the items of a key in the last batch that has any;
* `Batches.InTurn` — a batch comes when the items of the key have left, and they are not lost.

Main results:

* `Batches.conserved` — **every item is waiting, sent or lost, once**;
* `Batches.last_mem_latest` — **what was sent last of a key is of its latest batch**.
-/

import FillingPilot.Runs
import Mathlib.Data.List.Perm.Basic

set_option relaxedAutoImplicit false
set_option autoImplicit false

namespace Batches

universe u v

variable {α : Type u} {κ : Type v}

/-! ### Steps -/

/-- The items that wait, those that were sent and those that were lost, and the batches so far. -/
structure State (α : Type u) where
  waiting : List α
  sent : List α
  lost : List α
  batches : List (List α)

/-- What can happen. -/
inductive Event (α : Type u)
  | hand (items : List α)
  /-- The task of an item has its turn. -/
  | turn (i : ℕ) (delivered : Bool)

/-- The state after an item has had its turn. -/
def State.deliver (st : State α) (x : α) : Bool → State α
  | true => { st with sent := st.sent ++ [x] }
  | false => { st with lost := st.lost ++ [x] }

@[simp] theorem deliver_waiting (st : State α) (x : α) (delivered : Bool) :
    (st.deliver x delivered).waiting = st.waiting := by
  cases delivered <;> rfl

@[simp] theorem deliver_batches (st : State α) (x : α) (delivered : Bool) :
    (st.deliver x delivered).batches = st.batches := by
  cases delivered <;> rfl

/-- One step. -/
def step (st : State α) : Event α → Option (State α)
  | .hand items =>
      some { st with waiting := st.waiting ++ items, batches := st.batches ++ [items] }
  | .turn i delivered => st.waiting[i]?.map fun x =>
      { st with waiting := st.waiting.eraseIdx i }.deliver x delivered

/-- Nothing was handed out. -/
def start : State α := ⟨[], [], [], []⟩

/-- The item that has its turn is taken out of those that wait. -/
theorem perm_of_getElem? {xs : List α} {i : ℕ} {x : α} (h : xs[i]? = some x) :
    xs.Perm (x :: xs.eraseIdx i) := by
  obtain ⟨hi, rfl⟩ := List.getElem?_eq_some_iff.1 h
  exact (List.getElem_cons_eraseIdx_perm hi).symm

/-! ### Nothing is lost or doubled -/

/-- Every item of the batches is waiting, sent or lost, once. -/
def Conserved (st : State α) : Prop :=
  st.batches.flatten.Perm (st.waiting ++ (st.sent ++ st.lost))

theorem conserved_step {st st' : State α} {e : Event α} (hst : Conserved st)
    (h : step st e = some st') : Conserved st' := by
  cases e with
  | hand items =>
      cases h
      have hmove : (st.waiting ++ (st.sent ++ st.lost) ++ items).Perm
          (st.waiting ++ items ++ (st.sent ++ st.lost)) := by
        rw [List.append_assoc st.waiting, List.append_assoc st.waiting]
        exact List.perm_append_comm.append_left st.waiting
      rw [Conserved, List.flatten_concat]
      exact (hst.append_right items).trans hmove
  | turn i delivered =>
      obtain ⟨x, hx, rfl⟩ := Option.map_eq_some_iff.1 h
      have hbefore : st.batches.flatten.Perm
          (x :: (st.waiting.eraseIdx i ++ (st.sent ++ st.lost))) :=
        hst.trans ((perm_of_getElem? hx).append_right _)
      cases delivered with
      | true =>
          have hsent : (st.waiting.eraseIdx i ++ (st.sent ++ [x] ++ st.lost)).Perm
              (x :: (st.waiting.eraseIdx i ++ (st.sent ++ st.lost))) := by
            have hmiddle : (st.waiting.eraseIdx i ++ st.sent ++ x :: st.lost).Perm
                (x :: (st.waiting.eraseIdx i ++ st.sent ++ st.lost)) := List.perm_middle
            simpa using hmiddle
          exact hbefore.trans hsent.symm
      | false =>
          have hlost : (st.waiting.eraseIdx i ++ (st.sent ++ (st.lost ++ [x]))).Perm
              (x :: (st.waiting.eraseIdx i ++ (st.sent ++ st.lost))) := by
            simpa using List.perm_append_singleton x
              (st.waiting.eraseIdx i ++ (st.sent ++ st.lost))
          exact hbefore.trans hlost.symm

/-- **Every item is waiting, sent or lost, once.** -/
theorem conserved {events : List (Event α)} {st : State α}
    (h : Lts.run step start events = some st) : Conserved st := by
  have hstart : Conserved (start : State α) := List.Perm.refl _
  exact Lts.run_invariant' (fun _ _ _ hst h => conserved_step hst h) hstart h

theorem lost_eq_nil {events : List (Event α)} {st : State α}
    (hevents : Lts.Along step (fun _ e => ∀ i, e ≠ Event.turn i false) start events)
    (h : Lts.run step start events = some st) : st.lost = [] := by
  refine Lts.run_invariant (I := fun st => st.lost = []) (fun st e st' he hst h => ?_) rfl hevents h
  cases e with
  | hand items =>
      cases h
      exact hst
  | turn i delivered =>
      obtain ⟨x, hx, rfl⟩ := Option.map_eq_some_iff.1 h
      cases delivered with
      | true => exact hst
      | false => exact absurd rfl (he i)

/-! ### The last item of a key -/

section Keys

variable [DecidableEq κ] (key : α → κ) (k : κ)

/-- The items of the key. -/
def about (items : List α) : List α := items.filter fun x => key x = k

@[simp] theorem about_append (xs ys : List α) :
    about key k (xs ++ ys) = about key k xs ++ about key k ys := List.filter_append ..

/-- The items of the key in the last batch that has any. -/
def latest (batches : List (List α)) : List α :=
  (batches.reverse.map (about key k)).find? (· ≠ []) |>.getD []

theorem latest_concat (batches : List (List α)) (items : List α) :
    latest key k (batches ++ [items]) =
      if about key k items = [] then latest key k batches else about key k items := by
  by_cases hitems : about key k items = []
  · simp [latest, hitems]
  · simp [latest, hitems]

/-- A batch with items of the key comes when those of the batches before have left, and no item of
the key is lost. -/
def InTurn (st : State α) : Event α → Prop
  | .hand items => about key k items ≠ [] → about key k st.waiting = []
  | .turn i delivered => ∀ x ∈ st.waiting[i]?, key x = k → delivered = true

/-- What was sent of the key since its latest batch, and what waits, is that batch. -/
def Settling (st : State α) : Prop :=
  ∃ older newer, about key k st.sent = older ++ newer ∧
    (newer ++ about key k st.waiting).Perm (latest key k st.batches)

variable {key k}

/-- **What a step in turn keeps.** -/
theorem settling_step {st st' : State α} {e : Event α} (he : InTurn key k st e)
    (hst : Settling key k st) (h : step st e = some st') : Settling key k st' := by
  obtain ⟨older, newer, hsent, hperm⟩ := hst
  cases e with
  | hand items =>
      cases h
      by_cases hitems : about key k items = []
      · refine ⟨older, newer, hsent, ?_⟩
        rw [latest_concat, if_pos hitems, about_append, hitems, List.append_nil]
        exact hperm
      · -- what was sent before is of older batches
        refine ⟨about key k st.sent, [], (List.append_nil _).symm, ?_⟩
        rw [latest_concat, if_neg hitems, about_append, he hitems]
        exact List.Perm.refl _
  | turn i delivered =>
      obtain ⟨x, hx, rfl⟩ := Option.map_eq_some_iff.1 h
      have htaken : (about key k st.waiting).Perm
          (about key k [x] ++ about key k (st.waiting.eraseIdx i)) := by
        rw [← about_append]
        exact (perm_of_getElem? hx).filter _
      refine ⟨older, newer ++ about key k [x], ?_, ?_⟩
      · cases delivered with
        | true =>
            rw [← List.append_assoc, ← hsent, ← about_append]
            rfl
        | false =>
            -- the item that is lost has another key
            have hother : about key k [x] = [] := by
              refine List.filter_eq_nil_iff.2 fun y hy hkey => ?_
              obtain rfl := List.mem_singleton.1 hy
              exact absurd (he y hx (of_decide_eq_true hkey)) (by decide)
            rw [hother, List.append_nil]
            exact hsent
      · rw [deliver_waiting, deliver_batches, List.append_assoc]
        exact (htaken.symm.append_left newer).trans hperm

/-- **What was sent last of a key is of its latest batch**, when no item of the key waits. -/
theorem last_mem_latest {events : List (Event α)} {st : State α}
    (hevents : Lts.Along step (InTurn key k) start events)
    (h : Lts.run step start events = some st) (hnone : about key k st.waiting = [])
    (hlatest : latest key k st.batches ≠ []) :
    ∃ x ∈ latest key k st.batches, (about key k st.sent).getLast? = some x := by
  have hstart : Settling key k (start : State α) := ⟨[], [], rfl, List.Perm.refl _⟩
  obtain ⟨older, newer, hsent, hperm⟩ :=
    Lts.run_invariant (fun _ _ _ he hst h => settling_step he hst h) hstart hevents h
  rw [hnone, List.append_nil] at hperm
  obtain ⟨x, hx⟩ : ∃ x, newer.getLast? = some x := by
    refine Option.isSome_iff_exists.1 (List.getLast?_isSome.2 fun hnil => hlatest ?_)
    rw [hnil] at hperm
    exact hperm.nil_eq.symm
  refine ⟨x, hperm.subset (List.mem_of_getLast? hx), ?_⟩
  rw [hsent, List.getLast?_append, hx, Option.some_or]

end Keys

end Batches
