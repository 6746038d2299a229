/-
A map in memory that is kept on a disk.

Values are put into the map, the whole map is written to the disk from time to time, and after a
crash the map is what the disk has.  What such a store holds is told by a log of the puts, of which
a crash forgets those since the last write.

Main definitions:

* `Durable.Store`, `Durable.Event`, `Durable.step` — the store as a transition system;
* `Durable.Log`, `Durable.logOf` — the puts that are on the disk, and those that are in memory only.

Main results:

* `Durable.run_follows` — **the store is its log**: after every run the disk has what was put before
  the last write, and memory that and what was put since.
-/

import FillingPilot.Replica

set_option relaxedAutoImplicit false
set_option autoImplicit false

namespace Durable

open Replica

universe u v

variable {κ : Type u} {ν : Type v}

/-! ### The store -/

/-- What is on the disk, and what is in memory. -/
structure Store (κ : Type u) (ν : Type v) where
  disk : κ → Option ν
  memory : κ → Option ν

inductive Event (κ : Type u) (ν : Type v)
  /-- Values are put into the map, one after the other. -/
  | put (message : List (κ × ν))
  /-- The map is written. -/
  | flush
  /-- What is in memory is lost, and the disk is read. -/
  | crash

def step [DecidableEq κ] (st : Store κ ν) : Event κ ν → Option (Store κ ν)
  | .put message => some { st with memory := overlay message st.memory }
  | .flush => some { st with disk := st.memory }
  | .crash => some { st with memory := st.disk }

/-- A write changes nothing when memory has what the disk has. -/
theorem step_flush_of_eq [DecidableEq κ] {st : Store κ ν} (h : st.memory = st.disk) :
    step st .flush = some st := by
  cases st
  cases h
  rfl

/-! ### The log -/

/-- What was put: what has been written since, and what has not. -/
structure Log (κ : Type u) (ν : Type v) where
  flushed : List (κ × ν)
  pending : List (κ × ν)

def Log.next (log : Log κ ν) : Event κ ν → Log κ ν
  | .put message => { log with pending := log.pending ++ message }
  | .flush => { flushed := log.flushed ++ log.pending, pending := [] }
  | .crash => { log with pending := [] }

/-- The log of a run. -/
def logOf (events : List (Event κ ν)) : Log κ ν :=
  events.foldl Log.next { flushed := [], pending := [] }

section Runs

variable [DecidableEq κ]

/-- A store is a log over what there was at first. -/
structure Follows (start : κ → Option ν) (log : Log κ ν) (st : Store κ ν) : Prop where
  disk : st.disk = overlay log.flushed start
  memory : st.memory = overlay (log.flushed ++ log.pending) start

/-- What a step keeps. -/
theorem step_follows {start : κ → Option ν} {log : Log κ ν} {st st' : Store κ ν} {e : Event κ ν}
    (hst : Follows start log st) (h : step st e = some st') : Follows start (log.next e) st' := by
  cases e with
  | put message =>
      obtain rfl := Option.some.inj h
      refine ⟨hst.disk, ?_⟩
      show overlay message st.memory = overlay (log.flushed ++ (log.pending ++ message)) start
      rw [hst.memory, ← List.append_assoc, overlay_append _ message]
  | flush =>
      obtain rfl := Option.some.inj h
      refine ⟨hst.memory, ?_⟩
      show st.memory = overlay ((log.flushed ++ log.pending) ++ []) start
      rw [hst.memory, List.append_nil]
  | crash =>
      obtain rfl := Option.some.inj h
      refine ⟨hst.disk, ?_⟩
      show st.disk = overlay (log.flushed ++ []) start
      rw [hst.disk, List.append_nil]

/-- What a run keeps, whatever was logged before. -/
theorem run_follows_from {start : κ → Option ν} {events : List (Event κ ν)} {log : Log κ ν}
    {st st' : Store κ ν} (hst : Follows start log st) (hrun : Lts.run step st events = some st') :
    Follows start (events.foldl Log.next log) st' := by
  induction events generalizing log st with
  | nil =>
      obtain rfl := Option.some.inj hrun
      exact hst
  | cons e events ih =>
      obtain ⟨u, hu, hrest⟩ := Lts.run_cons.1 hrun
      exact ih (step_follows hst hu) hrest

/-- **The store is its log**: after a run from a store that was just read, the disk has what was put
before the last write, and memory that and what was put since. -/
theorem run_follows {start : κ → Option ν} {events : List (Event κ ν)} {st : Store κ ν}
    (hrun : Lts.run step { disk := start, memory := start } events = some st) :
    Follows start (logOf events) st :=
  run_follows_from ⟨rfl, rfl⟩ hrun

end Runs

end Durable
