/-
**The end of the registrations.**

The task of the start registers once, and goes on as long as its stream brings `reConnect`.  The
watcher registers when it finds the session without a client.  No code takes a client away again, so
that the watcher acts at most once, and a stream that ends after that is never followed by another.

Main definitions:

* `FillingPilot.Registration.Deaf` — connected, and no task registers or reads a stream;
* `FillingPilot.Registration.Event.isConnect` — the watcher connects the session.

Main results:

* `FillingPilot.Registration.connects_once` — **the watcher acts at most once**, and never in a
  session that the start has connected;
* `FillingPilot.Registration.deaf_forever` — **a session that is deaf stays deaf**: heartbeats may
  go on, but nothing that they bring makes it register.
-/

import FillingPilot.Registration

set_option relaxedAutoImplicit false
set_option autoImplicit false

namespace FillingPilot

namespace Registration

open Rust

/-- The watcher connects the session. -/
def Event.isConnect : Event → Bool
  | connect => true
  | _ => false

/-- The session has a client, and no task registers or reads a stream. -/
structure Deaf (s : Session) : Prop where
  connected : s.connected = true
  idle : ∀ l, s.phase l = .idle

section Runs

variable {fromStr : String → Option Json.Value} {fromStrConf : String → Option ServerConf}

/-! ### The watcher -/

/-- **A client is never taken away**, and only the watcher gives one. -/
theorem connected_step {s t : Session} {e : Event} (h : step fromStr fromStrConf s e = some t) :
    (e.isConnect = true ∧ s.connected = false ∧ t.connected = true) ∨
      (e.isConnect = false ∧ t.connected = s.connected) := by
  cases steps_of_step h with
  | connect hconnected hwatcher => exact Or.inl ⟨rfl, hconnected, rfl⟩
  | build l hl => exact Or.inr ⟨rfl, rfl⟩
  | call l n hl hfree hconnected => exact Or.inr ⟨rfl, rfl⟩
  | skip l n hl hconnected => exact Or.inr ⟨rfl, rfl⟩
  | result l success n p hl hp => exact Or.inr ⟨rfl, rfl⟩
  | again l cmd now n intervals hl => exact Or.inr ⟨rfl, rfl⟩
  | command l cmd now intervals p hl hp => exact Or.inr ⟨rfl, rfl⟩
  | streamEnd l hl => exact Or.inr ⟨rfl, rfl⟩
  | heartbeat cmd hwaiting => exact Or.inr ⟨rfl, rfl⟩
  | heartbeatHandled cmd now n intervals heartbeat hanswered hheartbeat hn =>
      exact Or.inr ⟨rfl, rfl⟩

/-- How often the watcher can act in the rest of a run. -/
def connectsLeft (s : Session) : ℕ := if s.connected then 0 else 1

theorem connects_le {events : List Event} {s t : Session}
    (h : Lts.run (step fromStr fromStrConf) s events = some t) :
    events.countP Event.isConnect ≤ connectsLeft s := by
  induction events generalizing s with
  | nil => exact Nat.zero_le _
  | cons e events ih =>
      obtain ⟨u, hu, hrun⟩ := Lts.run_cons.1 h
      have hrest := ih hrun
      rcases connected_step hu with ⟨he, hs, hconnected⟩ | ⟨he, hsame⟩
      · rw [connectsLeft, hconnected, if_pos rfl] at hrest
        rw [List.countP_cons_of_pos he, connectsLeft, hs]
        simp only [Bool.false_eq_true, if_false]
        omega
      · rw [connectsLeft, hsame] at hrest
        rw [List.countP_cons_of_neg (by simp [he])]
        exact hrest

/-- **The watcher acts at most once** in the life of a process, and not at all when the start has
connected the session. -/
theorem connects_once (randomNumber : ℤ) (connected : Bool) (intervals : Intervals)
    {events : List Event} {t : Session}
    (h : Lts.run (step fromStr fromStrConf) (start randomNumber connected intervals) events =
      some t) :
    events.countP Event.isConnect ≤ if connected then 0 else 1 :=
  connects_le h

/-! ### Sessions that are deaf -/

/-- A step of a deaf session is one of the heartbeat loop. -/
theorem deaf_step {s t : Session} {e : Event} (hs : Deaf s)
    (h : step fromStr fromStrConf s e = some t) : Deaf t ∧ t.registered = s.registered := by
  have hne {l : Task} {p : Phase} (hl : s.phase l = p) (hp : p ≠ .idle) : False :=
    hp (hl.symm.trans (hs.idle l))
  cases steps_of_step h with
  | connect hconnected hwatcher => exact absurd (hconnected.symm.trans hs.connected) (by simp)
  | build l hl => exact (hne hl (by simp)).elim
  | call l n hl hfree hconnected => exact (hne hl (by simp)).elim
  | skip l n hl hconnected => exact (hne hl (by simp)).elim
  | result l success n p hl hp => exact (hne hl (by simp)).elim
  | again l cmd now n intervals hl => exact (hne hl (by simp)).elim
  | command l cmd now intervals p hl hp => exact (hne hl (by simp)).elim
  | streamEnd l hl => exact (hne hl (by simp)).elim
  | heartbeat cmd hwaiting => exact ⟨⟨hs.connected, hs.idle⟩, rfl⟩
  | heartbeatHandled cmd now n intervals heartbeat hanswered hheartbeat hn =>
      exact ⟨⟨hs.connected, hs.idle⟩, rfl⟩

/-- **A session that is deaf stays deaf**: once it is connected and its registrations have ended, it
reads no stream in any later state, and makes no register call, whatever the heartbeats bring. -/
theorem deaf_forever {s : Session} (hs : Deaf s) (events : List Event) :
    Lts.Always (step fromStr fromStrConf) (fun t => Deaf t ∧ t.registered = s.registered) s
      events := by
  refine Lts.always_of_invariant (I := fun t => Deaf t ∧ t.registered = s.registered)
    (fun _ ht => ht) (fun t e u ht h => ?_) ⟨hs, rfl⟩
  obtain ⟨hdeaf, hregistered⟩ := deaf_step ht.1 h
  exact ⟨hdeaf, hregistered.trans ht.2⟩

end Runs

/-- The register call of the start fails. -/
def failedCall : List Event := [.build .main, .call .main, .result .main false]

/-- A heartbeat brings `reConnect`, and the watcher looks at the session. -/
def reconnectByHeartbeat : List Event :=
  [.heartbeat ⟨"reConnect", "5"⟩, .heartbeatHandled none, .connect]

theorem deaf_forever_failedCall :
    ∃ s, Lts.run (step (fun _ => none) fun _ => none) (start 3 true defaultIntervals) failedCall =
        some s ∧
      Lts.Always (step (fun _ => none) fun _ => none)
        (fun t => Deaf t ∧ t.registered = s.registered) s reconnectByHeartbeat := by
  refine ⟨_, rfl, deaf_forever ⟨rfl, fun l => ?_⟩ reconnectByHeartbeat⟩
  cases l with
  | main => rfl
  | watcher => rfl

end Registration

end FillingPilot
