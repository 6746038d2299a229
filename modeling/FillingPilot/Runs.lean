/-
Runs of a labelled transition system given by a partial step function.

A system is a step function `step : σ → α → Option σ`: from a state and a label it gives the next
state, or `none` when the label is not enabled.  A run is a list of labels.  Safety of a system is
a statement about every state of every run, and most systems are safe only as long as their steps
meet some condition on the state they are taken in; both are recursions over the labels.

Main definitions:

* `Lts.run` — the state a list of labels leads to, when all of them are enabled;
* `Lts.Always` — a predicate holds in every state of a run;
* `Lts.Along` — every step of a run meets a condition on the state it is taken in.

Main results:

* `Lts.run_invariant` — **the invariant rule**: what every conforming step keeps holds at the end
  of every conforming run;
* `Lts.run_blame_iff` — **the blame rule**: what only some steps lead to, and none leads out of;
* `Lts.run_exists` — **the progress rule**: where conforming steps are possible, so are conforming
  runs;
* `Lts.always_iff_along`, `Lts.always_and_along_iff`, `Lts.always_iff_along_of_enabled` — **the
  exactness rule**: when a step keeps the predicate exactly if it meets the condition, a run keeps it
  exactly if all its steps meet the condition.
-/

import Mathlib.Data.List.Basic

set_option relaxedAutoImplicit false
set_option autoImplicit false

namespace Lts

universe u v

variable {σ : Type u} {α : Type v} {step : σ → α → Option σ}

/-- The state a list of labels leads to, or `none` when one of them is not enabled. -/
def run (step : σ → α → Option σ) : σ → List α → Option σ
  | s, [] => some s
  | s, a :: as => (step s a).bind fun t => run step t as

/-- `P` holds in every state of the run. -/
def Always (step : σ → α → Option σ) (P : σ → Prop) : σ → List α → Prop
  | s, [] => P s
  | s, a :: as => P s ∧ ∀ t, step s a = some t → Always step P t as

/-- Every step of the run meets the condition `ok` in the state it is taken in. -/
def Along (step : σ → α → Option σ) (ok : σ → α → Prop) : σ → List α → Prop
  | _, [] => True
  | s, a :: as => ok s a ∧ ∀ t, step s a = some t → Along step ok t as

@[simp] theorem run_nil (s : σ) : run step s [] = some s := rfl

theorem run_cons {s u : σ} {a : α} {as : List α} :
    run step s (a :: as) = some u ↔ ∃ t, step s a = some t ∧ run step t as = some u := by
  simp [run, Option.bind_eq_some_iff]

/-! ### Invariants -/

/-- **The invariant rule**, for the runs whose steps all meet a condition. -/
theorem run_invariant {I : σ → Prop} {ok : σ → α → Prop}
    (hstep : ∀ s a t, ok s a → I s → step s a = some t → I t) :
    ∀ {as : List α} {s t : σ}, I s → Along step ok s as → run step s as = some t → I t := by
  intro as
  induction as with
  | nil =>
      intro s t hs _ hrun
      rw [run_nil, Option.some.injEq] at hrun
      exact hrun ▸ hs
  | cons a as ih =>
      intro s t hs hok hrun
      obtain ⟨u, hu, hrun⟩ := run_cons.1 hrun
      exact ih (hstep s a u hok.1 hs hu) (hok.2 u hu) hrun

/-- **The blame rule**: when a step leads to `P` exactly if `P` held before or the step is to blame,
`P` holds after a run exactly if it held before or some step is to blame. -/
theorem run_blame_iff {I P : σ → Prop} {blame : σ → α → Prop}
    (hstep : ∀ s a t, I s → step s a = some t → I t ∧ (P t ↔ P s ∨ blame s a)) :
    ∀ {as : List α} {s t : σ}, I s → run step s as = some t →
      (P t ↔ P s ∨ ∃ before a after u, as = before ++ a :: after ∧
        run step s before = some u ∧ blame u a) := by
  intro as
  induction as with
  | nil =>
      intro s t _ hrun
      rw [run_nil, Option.some.injEq] at hrun
      simp [hrun]
  | cons a as ih =>
      intro s t hs hrun
      obtain ⟨u, hu, hrest⟩ := run_cons.1 hrun
      obtain ⟨hI, hiff⟩ := hstep s a u hs hu
      rw [ih hI hrest, hiff, or_assoc]
      refine or_congr_right ⟨?_, ?_⟩
      · rintro (hblame | ⟨before, b, after, v, rfl, hbefore, hblame⟩)
        · exact ⟨[], a, as, s, rfl, rfl, hblame⟩
        · exact ⟨a :: before, b, after, v, rfl, run_cons.2 ⟨u, hu, hbefore⟩, hblame⟩
      · rintro ⟨before, b, after, v, has, hbefore, hblame⟩
        cases before with
        | nil =>
            rw [List.nil_append, List.cons.injEq] at has
            obtain ⟨rfl, rfl⟩ := has
            rw [run_nil, Option.some.injEq] at hbefore
            exact Or.inl (hbefore ▸ hblame)
        | cons c before =>
            rw [List.cons_append, List.cons.injEq] at has
            obtain ⟨rfl, rfl⟩ := has
            obtain ⟨u', hu', hbefore⟩ := run_cons.1 hbefore
            obtain rfl : u = u' := Option.some.inj (hu.symm.trans hu')
            exact Or.inr ⟨before, b, after, v, rfl, hbefore, hblame⟩

theorem Along.mono {ok ok' : σ → α → Prop} (h : ∀ s a, ok s a → ok' s a) :
    ∀ {as : List α} {s : σ}, Along step ok s as → Along step ok' s as := by
  intro as
  induction as with
  | nil => intro s _; trivial
  | cons a as ih => intro s hs; exact ⟨h s a hs.1, fun t ht => ih (hs.2 t ht)⟩

/-- A condition that can be decided can be decided along a run. -/
instance decidableAlong {ok : σ → α → Prop} [∀ s, DecidablePred (ok s)] :
    ∀ (s : σ) (as : List α), Decidable (Along step ok s as)
  | _, [] => isTrue trivial
  | s, a :: as =>
      have : Decidable (∀ t, step s a = some t → Along step ok t as) :=
        match step s a with
        | none => isTrue fun _ h => absurd h.symm (Option.some_ne_none _)
        | some t =>
            have : Decidable (Along step ok t as) := decidableAlong t as
            decidable_of_iff (Along step ok t as)
              ⟨fun h _ hu => Option.some.inj hu ▸ h, fun h => h t rfl⟩
      inferInstanceAs (Decidable (ok s a ∧ ∀ t, step s a = some t → Along step ok t as))

theorem along_of_forall {ok : σ → α → Prop} (h : ∀ s a, ok s a) :
    ∀ (as : List α) (s : σ), Along step ok s as := by
  intro as
  induction as with
  | nil => intro s; trivial
  | cons a as ih => intro s; exact ⟨h s a, fun t _ => ih t⟩

/-- Conditions that say the same are met along the same runs. -/
theorem along_congr {ok ok' : σ → α → Prop} (h : ∀ s a, ok s a ↔ ok' s a) :
    ∀ {as : List α} {s : σ}, Along step ok s as ↔ Along step ok' s as := by
  intro as
  induction as with
  | nil => intro s; exact Iff.rfl
  | cons a as ih =>
      intro s
      exact and_congr (h s a) (forall_congr' fun t => imp_congr_right fun _ => ih)

/-- A condition along a run, one enabled step at a time. -/
theorem Along.of_step {ok : σ → α → Prop} {s t : σ} {a : α} {as : List α} (hok : ok s a)
    (hstep : step s a = some t) (hs : Along step ok t as) : Along step ok s (a :: as) := by
  refine ⟨hok, fun t' ht' => ?_⟩
  obtain rfl : t = t' := Option.some.inj (hstep.symm.trans ht')
  exact hs

/-- A condition along a run, with a condition on its labels added. -/
theorem Along.and_mem {ok : σ → α → Prop} {p : α → Prop} :
    ∀ {as : List α} {s : σ}, Along step ok s as → (∀ a ∈ as, p a) →
      Along step (fun s a => ok s a ∧ p a) s as := by
  intro as
  induction as with
  | nil => intro s _ _; trivial
  | cons a as ih =>
      intro s hs hp
      have hp' : ∀ b ∈ as, p b := fun b hb => hp b (List.mem_cons_of_mem a hb)
      exact ⟨⟨hs.1, hp a List.mem_cons_self⟩, fun t ht => ih (hs.2 t ht) hp'⟩

/-- The plain invariant rule: every step keeps the predicate. -/
theorem run_invariant' {I : σ → Prop} (hstep : ∀ s a t, I s → step s a = some t → I t)
    {as : List α} {s t : σ} (hs : I s) (hrun : run step s as = some t) : I t := by
  have halong : Along step (fun _ _ => True) s as := along_of_forall (fun _ _ => trivial) as s
  exact run_invariant (fun s a t _ => hstep s a t) hs halong hrun

/-- **The exactness rule**: when, among the states where `P` and the invariant `I` hold, an enabled
step keeps `P` and meets `Q` exactly if it meets `ok`, then a run keeps `P` and its steps meet `Q`
exactly if its enabled steps meet `ok`. -/
theorem always_and_along_iff {P I : σ → Prop} {Q ok : σ → α → Prop}
    (hinv : ∀ s a t, I s → step s a = some t → I t)
    (hdisabled : ∀ s a, step s a = none → Q s a)
    (hstep : ∀ s a t, I s → P s → step s a = some t → (P t ∧ Q s a ↔ ok s a)) :
    ∀ {as : List α} {s : σ}, I s → P s →
      (Always step P s as ∧ Along step Q s as ↔
        Along step (fun s a => step s a = none ∨ ok s a) s as) := by
  intro as
  induction as with
  | nil => intro s _ hP; simp [Always, Along, hP]
  | cons a as ih =>
      intro s hI hP
      simp only [Always, Along, hP, true_and]
      cases hst : step s a with
      | none => simp [hdisabled s a hst]
      | some u =>
          have hu : P u ∧ Q s a ↔ ok s a := hstep s a u hI hP hst
          have hIu : I u := hinv s a u hI hst
          simp only [Option.some.injEq, forall_eq', reduceCtorEq, false_or]
          constructor
          · rintro ⟨halw, hQ, halong⟩
            have hPu : P u := by
              cases as with
              | nil => exact halw
              | cons b bs => exact halw.1
            exact ⟨hu.1 ⟨hPu, hQ⟩, (ih hIu hPu).1 ⟨halw, halong⟩⟩
          · rintro ⟨hok, halong⟩
            obtain ⟨hPu, hQ⟩ := hu.2 hok
            obtain ⟨halw, halongQ⟩ := (ih hIu hPu).2 halong
            exact ⟨halw, hQ, halongQ⟩

/-- The exactness rule for a predicate on states alone. -/
theorem always_iff_along {P I : σ → Prop} {ok : σ → α → Prop}
    (hinv : ∀ s a t, I s → step s a = some t → I t)
    (hstep : ∀ s a t, I s → P s → step s a = some t → (P t ↔ ok s a)) {as : List α} {s : σ}
    (hI : I s) (hP : P s) :
    Always step P s as ↔ Along step (fun s a => step s a = none ∨ ok s a) s as := by
  have htrue : Along step (fun _ _ => True) s as := along_of_forall (fun _ _ => trivial) as s
  have hboth : Always step P s as ∧ Along step (fun _ _ => True) s as ↔
      Along step (fun s a => step s a = none ∨ ok s a) s as := by
    refine always_and_along_iff hinv (fun _ _ _ => trivial) ?_ hI hP
    intro s a t hI hP hst
    rw [and_iff_left trivial]
    exact hstep s a t hI hP hst
  rw [← hboth, and_iff_left htrue]

/-- The exactness rule for a predicate on states, where every step is enabled. -/
theorem always_iff_along_of_enabled {P : σ → Prop} {ok : σ → α → Prop}
    (henabled : ∀ s a, step s a ≠ none)
    (hstep : ∀ s a t, P s → step s a = some t → (P t ↔ ok s a)) {as : List α} {s : σ}
    (hP : P s) : Always step P s as ↔ Along step ok s as := by
  rw [always_iff_along (I := fun _ => True) (fun _ _ _ _ _ => trivial)
    (fun s a t _ hs h => hstep s a t hs h) trivial hP]
  exact along_congr fun s a => or_iff_right (henabled s a)

/-- What an invariant implies holds in every state of a run. -/
theorem always_of_invariant {I P : σ → Prop} (hI : ∀ s, I s → P s)
    (hstep : ∀ s a t, I s → step s a = some t → I t) :
    ∀ {as : List α} {s : σ}, I s → Always step P s as := by
  intro as
  induction as with
  | nil => intro s hs; exact hI s hs
  | cons a as ih => intro s hs; exact ⟨hI s hs, fun t ht => ih (hstep s a t hs ht)⟩

theorem Always.last {P : σ → Prop} : ∀ {as : List α} {s t : σ}, Always step P s as →
    run step s as = some t → P t := by
  intro as
  induction as with
  | nil =>
      intro s t h hrun
      rw [run_nil, Option.some.injEq] at hrun
      exact hrun ▸ h
  | cons a as ih =>
      intro s t h hrun
      obtain ⟨u, hu, hrun⟩ := run_cons.1 hrun
      exact ih (h.2 u hu) hrun

end Lts
