/-
A copy of a map that is kept by messages.

A source holds a map, and a copy of it is held elsewhere.  Whenever the source changes it sends an
update with the new values, one update at a time; in between it may be asked for everything it has,
and the answers travel on their own.  An update or an answer arrives, or is lost.  The source may
start again with an empty map, and what was under way is lost then; the copy stays as it is.

Main definitions:

* `Replica.overlay` — a map after a message;
* `Replica.State`, `Replica.Event`, `Replica.step` — the protocol as a transition system;
* `Replica.Faithful` — an update that is lost has nothing new, and no answer arrives that the source
  has overtaken;
* `Replica.Current` — the copy has what the source has, apart from what is under way.

Main results:

* `Replica.step_current` — what a faithful step keeps;
* `Replica.current_of_faithful` — **faithful runs keep the copy current**.
-/

import FillingPilot.Runs
import Mathlib.Data.List.Basic

set_option relaxedAutoImplicit false
set_option autoImplicit false

namespace Replica

universe u v

variable {κ : Type u} {ν : Type v} [DecidableEq κ]

/-! ### Messages -/

/-- The last value a message has for a key. -/
def lastValue (k : κ) (message : List (κ × ν)) : Option ν :=
  ((message.filter fun e => e.1 = k).map Prod.snd).getLast?

/-- A map after a message: each key of the message has its last value. -/
def overlay (message : List (κ × ν)) (m : κ → Option ν) : κ → Option ν :=
  fun k => (lastValue k message).or (m k)

@[simp] theorem overlay_nil (m : κ → Option ν) : overlay [] m = m := rfl

theorem overlay_of_lastValue {message : List (κ × ν)} {m : κ → Option ν} {k : κ} {v : ν}
    (h : lastValue k message = some v) : overlay message m k = some v := by
  rw [overlay, h, Option.some_or]

theorem overlay_of_none {message : List (κ × ν)} {m : κ → Option ν} {k : κ}
    (h : lastValue k message = none) : overlay message m k = m k := by
  rw [overlay, h, Option.none_or]

theorem mem_of_lastValue {message : List (κ × ν)} {k : κ} {v : ν}
    (h : lastValue k message = some v) : (k, v) ∈ message := by
  obtain ⟨⟨k', v'⟩, hmem, rfl⟩ := List.mem_map.1 (List.mem_of_getLast? h)
  rw [List.mem_filter, decide_eq_true_eq] at hmem
  obtain ⟨hmem, rfl⟩ := hmem
  exact hmem

theorem lastValue_eq_none_iff {message : List (κ × ν)} {k : κ} :
    lastValue k message = none ↔ k ∉ message.map Prod.fst := by
  rw [lastValue, List.getLast?_eq_none_iff, List.map_eq_nil_iff, List.filter_eq_nil_iff]
  constructor
  · intro h hk
    obtain ⟨e, he, rfl⟩ := List.mem_map.1 hk
    exact h e he (decide_eq_true rfl)
  · intro h e he hk
    obtain rfl : e.1 = k := of_decide_eq_true hk
    exact h (List.mem_map_of_mem he)

/-- A message that comes twice in a row comes once. -/
theorem overlay_self (message : List (κ × ν)) (m : κ → Option ν) :
    overlay message (overlay message m) = overlay message m := by
  funext k
  cases hlast : lastValue k message with
  | none => rw [overlay_of_none hlast]
  | some v => rw [overlay_of_lastValue hlast, overlay_of_lastValue hlast]

theorem lastValue_append (k : κ) (first second : List (κ × ν)) :
    lastValue k (first ++ second) = (lastValue k second).or (lastValue k first) := by
  simp only [lastValue, List.filter_append, List.map_append, List.getLast?_append]

/-- Two messages one after the other are one message. -/
theorem overlay_append (first second : List (κ × ν)) (m : κ → Option ν) :
    overlay (first ++ second) m = overlay second (overlay first m) := by
  funext k
  simp only [overlay, lastValue_append, Option.or_assoc]

/-- A message takes no key away. -/
theorem of_overlay_none {message : List (κ × ν)} {m : κ → Option ν} {k : κ}
    (h : overlay message m k = none) : m k = none :=
  (Option.or_eq_none_iff.1 h).2

/-! ### The protocol -/

/-- The source, the update and the answers under way, and the copy. -/
structure State (κ : Type u) (ν : Type v) where
  source : κ → Option ν
  update : Option (List (κ × ν))
  answers : List (List (κ × ν))
  copy : κ → Option ν

/-- What can happen. -/
inductive Event (κ : Type u) (ν : Type v)
  /-- The source changes, and the change is sent. -/
  | change (message : List (κ × ν))
  | updateEnd (delivered : Bool)
  /-- The source is asked, and an answer is sent. -/
  | ask (answer : List (κ × ν))
  | answerEnd (i : ℕ) (delivered : Bool)
  /-- The source starts again. -/
  | restart

/-- One step of the protocol. -/
def step (st : State κ ν) : Event κ ν → Option (State κ ν)
  | .change message =>
      match st.update with
      | none => some { st with source := overlay message st.source, update := some message }
      | some _ => none
  | .updateEnd delivered => st.update.map fun message =>
      { st with update := none, copy := if delivered then overlay message st.copy else st.copy }
  | .ask answer => some { st with answers := st.answers ++ [answer] }
  | .answerEnd i delivered => st.answers[i]?.map fun answer =>
      { st with
        answers := st.answers.eraseIdx i
        copy := if delivered then overlay answer st.copy else st.copy }
  | .restart => some { st with source := fun _ => none, update := none, answers := [] }

/-- An update that is lost has what the copy has, and an answer that arrives what the source has. -/
def Faithful (st : State κ ν) : Event κ ν → Prop
  | .updateEnd delivered => delivered = false →
      ∀ message, st.update = some message → ∀ e ∈ message, st.copy e.1 = some e.2
  | .answerEnd i delivered => delivered = true →
      ∀ answer, st.answers[i]? = some answer → ∀ e ∈ answer, st.source e.1 = some e.2
  | _ => True

/-! ### The copy is current -/

/-- **The copy has what the source has**, apart from what is under way; and that is what the source
has. -/
structure Current (st : State κ ν) : Prop where
  underWay : ∀ message, st.update = some message → ∀ k v, lastValue k message = some v →
    st.source k = some v
  copy : ∀ k v, st.source k = some v →
    (∀ message, st.update = some message → lastValue k message = none) → st.copy k = some v

/-- **What a faithful step keeps.** -/
theorem step_current {st st' : State κ ν} {e : Event κ ν} (hok : Faithful st e) (hst : Current st)
    (h : step st e = some st') : Current st' := by
  cases e with
  | change message =>
      simp only [step] at h
      split at h
      · rename_i hidle
        cases h
        refine ⟨fun m hm k v hv => ?_, fun k v hk hnone => ?_⟩
        · cases hm
          exact overlay_of_lastValue hv
        · have hsource : overlay message st.source k = some v := hk
          rw [overlay_of_none (hnone message rfl)] at hsource
          exact hst.copy k v hsource fun m hm => nomatch hidle.symm.trans hm
      · cases h
  | updateEnd delivered =>
      obtain ⟨message, hmessage, rfl⟩ := Option.map_eq_some_iff.1 h
      refine ⟨nofun, fun k v hk _ => ?_⟩
      cases hlast : lastValue k message with
      | none =>
          have hkept : st.copy k = some v := hst.copy k v hk fun m hm => by
            obtain rfl := Option.some.inj (hmessage.symm.trans hm)
            exact hlast
          cases delivered with
          | false => exact hkept
          | true => exact (overlay_of_none hlast).trans hkept
      | some v' =>
          -- the source has it, and the copy has it with the update or had it before
          rw [hst.underWay message hmessage k v' hlast] at hk
          rw [← hk]
          cases delivered with
          | false => exact hok rfl message hmessage (k, v') (mem_of_lastValue hlast)
          | true => exact overlay_of_lastValue hlast
  | ask answer =>
      cases h
      exact ⟨hst.underWay, hst.copy⟩
  | answerEnd i delivered =>
      obtain ⟨answer, hanswer, rfl⟩ := Option.map_eq_some_iff.1 h
      refine ⟨hst.underWay, fun k v hk hnone => ?_⟩
      cases delivered with
      | false => exact hst.copy k v hk hnone
      | true =>
          show overlay answer st.copy k = some v
          cases hlast : lastValue k answer with
          | none =>
              rw [overlay_of_none hlast]
              exact hst.copy k v hk hnone
          | some v' =>
              have hagrees := hok rfl answer hanswer (k, v') (mem_of_lastValue hlast)
              rw [overlay_of_lastValue hlast, ← hagrees]
              exact hk
  | restart =>
      cases h
      exact ⟨nofun, nofun⟩

/-- **Faithful runs keep the copy current.** -/
theorem current_of_faithful {st st' : State κ ν} {events : List (Event κ ν)} (hst : Current st)
    (hok : Lts.Along step Faithful st events) (hrun : Lts.run step st events = some st') :
    Current st' :=
  Lts.run_invariant (fun _ _ _ he hs h => step_current he hs h) hst hok hrun

end Replica
