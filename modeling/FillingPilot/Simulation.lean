/-
Simulations between transition systems.

A system follows another along a map of the states when each of its steps is a run of the other: the
run may be empty, where the step changes nothing the other has, and it may take several steps.  What
the other system keeps over all its runs then holds of the images of the states.

Main definitions:

* `Lts.trace` — the labels of the other system along a run.

Main results:

* `Lts.run_append`, `Lts.along_append` — a run in two parts;
* `Lts.run_trace` — **a run is followed by a run**;
* `Lts.along_trace` — the conditions on the steps are carried over.
-/

import FillingPilot.Runs

set_option relaxedAutoImplicit false
set_option autoImplicit false

namespace Lts

universe u v w x

variable {σ : Type u} {α : Type v} {τ : Type w} {β : Type x} {step : σ → α → Option σ}
  {step' : τ → β → Option τ}

/-! ### Runs in two parts -/

theorem run_append {s u : σ} {as bs : List α} :
    run step s (as ++ bs) = some u ↔ ∃ t, run step s as = some t ∧ run step t bs = some u := by
  induction as generalizing s with
  | nil => simp
  | cons a as ih =>
      rw [List.cons_append, run_cons]
      constructor
      · rintro ⟨t, ht, hrun⟩
        obtain ⟨t', ht', hrun⟩ := ih.1 hrun
        exact ⟨t', run_cons.2 ⟨t, ht, ht'⟩, hrun⟩
      · rintro ⟨t', ht', hrun⟩
        obtain ⟨t, ht, ht'⟩ := run_cons.1 ht'
        exact ⟨t, ht, ih.2 ⟨t', ht', hrun⟩⟩

theorem along_append {ok : σ → α → Prop} {s : σ} {as bs : List α} :
    Along step ok s (as ++ bs) ↔
      Along step ok s as ∧ ∀ t, run step s as = some t → Along step ok t bs := by
  induction as generalizing s with
  | nil => simp [Along]
  | cons a as ih =>
      rw [List.cons_append, Along, Along, and_assoc]
      refine and_congr_right fun _ => ⟨fun h => ⟨fun t ht => (ih.1 (h t ht)).1, ?_⟩, ?_⟩
      · intro u hrun
        obtain ⟨t, ht, hrun⟩ := run_cons.1 hrun
        exact (ih.1 (h t ht)).2 u hrun
      · rintro ⟨has, hbs⟩ t ht
        exact ih.2 ⟨has t ht, fun u hrun => hbs u (run_cons.2 ⟨t, ht, hrun⟩)⟩

theorem Along.and {ok ok' : σ → α → Prop} :
    ∀ {as : List α} {s : σ}, Along step ok s as → Along step ok' s as →
      Along step (fun s a => ok s a ∧ ok' s a) s as := by
  intro as
  induction as with
  | nil => intro s _ _; trivial
  | cons a as ih => intro s h h'; exact ⟨⟨h.1, h'.1⟩, fun t ht => ih (h.2 t ht) (h'.2 t ht)⟩

/-! ### Traces -/

/-- The labels of the other system along a run, each step giving the labels of a run. -/
def trace (step : σ → α → Option σ) (labels : σ → α → List β) : σ → List α → List β
  | _, [] => []
  | s, a :: as => labels s a ++ ((step s a).map fun t => trace step labels t as).getD []

theorem trace_cons {labels : σ → α → List β} {s t : σ} {a : α} {as : List α}
    (h : step s a = some t) :
    trace step labels s (a :: as) = labels s a ++ trace step labels t as := by
  rw [trace, h]
  rfl

/-- Labels that do not depend on the state. -/
theorem trace_eq_flatMap {g : α → List β} {as : List α} {s t : σ} (h : run step s as = some t) :
    trace step (fun _ a => g a) s as = as.flatMap g := by
  induction as generalizing s with
  | nil => rfl
  | cons a as ih =>
      obtain ⟨u, hu, hrun⟩ := run_cons.1 h
      rw [trace_cons hu, ih hrun, List.flatMap_cons]

section Follows

variable {f : σ → τ} {labels : σ → α → List β} {I : σ → Prop} {ok : σ → α → Prop}

/-- **A run is followed by a run**: when every step that meets the condition in a state with the
invariant keeps the invariant and is a run of the other system, so is every run of such steps. -/
theorem run_trace
    (hstep : ∀ s a t, ok s a → I s → step s a = some t →
      I t ∧ run step' (f s) (labels s a) = some (f t)) :
    ∀ {as : List α} {s t : σ}, I s → Along step ok s as → run step s as = some t →
      I t ∧ run step' (f s) (trace step labels s as) = some (f t) := by
  intro as
  induction as with
  | nil =>
      intro s t hs _ hrun
      rw [run_nil, Option.some.injEq] at hrun
      subst hrun
      exact ⟨hs, rfl⟩
  | cons a as ih =>
      intro s t hs hok hrun
      obtain ⟨u, hu, hrun⟩ := run_cons.1 hrun
      obtain ⟨hI, hfirst⟩ := hstep s a u hok.1 hs hu
      obtain ⟨ht, hrest⟩ := ih hI (hok.2 u hu) hrun
      rw [trace_cons hu]
      exact ⟨ht, run_append.2 ⟨f u, hfirst, hrest⟩⟩

/-- A condition on the steps of the other system is met along the trace when every step gives labels
that meet it. -/
theorem along_trace {ok' : τ → β → Prop}
    (hstep : ∀ s a t, ok s a → I s → step s a = some t →
      I t ∧ run step' (f s) (labels s a) = some (f t) ∧ Along step' ok' (f s) (labels s a)) :
    ∀ {as : List α} {s t : σ}, I s → Along step ok s as → run step s as = some t →
      Along step' ok' (f s) (trace step labels s as) := by
  intro as
  induction as with
  | nil => intro s t _ _ _; trivial
  | cons a as ih =>
      intro s t hs hok hrun
      obtain ⟨u, hu, hrun⟩ := run_cons.1 hrun
      obtain ⟨hI, hfirst, halong⟩ := hstep s a u hok.1 hs hu
      rw [trace_cons hu]
      refine along_append.2 ⟨halong, fun v hv => ?_⟩
      obtain rfl : f u = v := Option.some.inj (hfirst.symm.trans hv)
      exact ih hI (hok.2 u hu) hrun

end Follows

end Lts
