/-
Results of code that can panic.

A function that returns `Result` may return a value, return an error, or panic; `?` passes errors
on, and a panic is passed on by everything.  Slicing and indexing outside a vector panic, and so
does a copy between slices of different lengths.

Main definitions:

* `Rust.Outcome` — a value, an error message or a panic, as a monad;
* `Rust.Outcome.PanicsIff` — a computation that panics under a condition and has a value otherwise;
* `Rust.slice`, `Rust.index` — `xs[start..stop]` and `xs[i]`;
* `Rust.copyFromSlice` — `xs[start..stop].copy_from_slice(src)`.

Main results:

* `Rust.Outcome.foldlM_ok`, `Rust.Outcome.foldlM_panic` — **when a fold panics**: exactly when some
  element does not meet the condition of its step;
* `Rust.Outcome.foldlM_eq_spliceAll` — **a fold of writes** makes all of them;
* `Rust.Outcome.foldlM_cells` — **what a fold leaves** when each step changes a cell of its own.
-/

import FillingPilot.Splice

set_option relaxedAutoImplicit false
set_option autoImplicit false

universe u

namespace Rust

/-! ### Outcomes -/

/-- What a fallible function comes to. -/
inductive Outcome (α : Type u)
  | ok (a : α)
  | err (message : String)
  | panic
  deriving DecidableEq

namespace Outcome

variable {α β : Type u}

/-- Errors and panics are passed on. -/
def bind (x : Outcome α) (f : α → Outcome β) : Outcome β :=
  match x with
  | ok a => f a
  | err message => err message
  | panic => panic

/-- `map_err`. -/
def mapErr (f : String → String) : Outcome α → Outcome α
  | ok a => ok a
  | err message => err (f message)
  | panic => panic

instance : Monad Outcome where
  pure := ok
  bind := bind

@[simp] theorem pure_eq (a : α) : (pure a : Outcome α) = ok a := rfl

@[simp] theorem ok_bind (a : α) (f : α → Outcome β) : (ok a >>= f) = f a := rfl

@[simp] theorem err_bind (message : String) (f : α → Outcome β) :
    (err message >>= f) = err message := rfl

@[simp] theorem panic_bind (f : α → Outcome β) : (panic >>= f) = panic := rfl

theorem bind_eq_ok {x : Outcome α} {f : α → Outcome β} {b : β} :
    (x >>= f) = ok b ↔ ∃ a, x = ok a ∧ f a = ok b := by
  cases x with
  | ok a => simp
  | err message => simp
  | panic => simp

instance : LawfulMonad Outcome := LawfulMonad.mk' Outcome
  (fun x => by cases x <;> rfl) (fun _ _ => rfl) (fun x _ _ => by cases x <;> rfl)

theorem bind_ne_panic {x : Outcome α} {f : α → Outcome β} (hx : x ≠ panic)
    (hf : ∀ a, f a ≠ panic) : (x >>= f) ≠ panic := by
  cases x with
  | ok a => exact hf a
  | err message => exact nofun
  | panic => exact absurd rfl hx

theorem mapM_ne_panic {f : α → Outcome β} {as : List α} (h : ∀ a ∈ as, f a ≠ panic) :
    as.mapM f ≠ panic := by
  induction as with
  | nil => exact nofun
  | cons a as ih =>
      have hrest : as.mapM f ≠ panic := ih fun a' ha' => h a' (List.mem_cons_of_mem a ha')
      rw [List.mapM_cons]
      refine bind_ne_panic (h a List.mem_cons_self) fun b => ?_
      exact bind_ne_panic hrest fun bs => nofun

/-! ### When a computation panics -/

/-- The computation panics if `P` holds, and has a value otherwise. -/
def PanicsIff (x : Outcome α) (P : Prop) : Prop := (P ∧ x = panic) ∨ (¬ P ∧ ∃ a, x = ok a)

theorem panicsIff_ok (a : α) : PanicsIff (ok a) False := Or.inr ⟨not_false, a, rfl⟩

theorem PanicsIff.congr {x : Outcome α} {P Q : Prop} (h : PanicsIff x P) (hPQ : P ↔ Q) :
    PanicsIff x Q := by
  rwa [propext hPQ] at h

theorem PanicsIff.bind {x : Outcome α} {f : α → Outcome β} {P Q : Prop} (hx : PanicsIff x P)
    (hf : ∀ a, PanicsIff (f a) Q) : PanicsIff (x >>= f) (P ∨ Q) := by
  rcases hx with ⟨hP, rfl⟩ | ⟨hP, a, rfl⟩
  · exact Or.inl ⟨Or.inl hP, rfl⟩
  · exact (hf a).congr (by simp [hP])

theorem PanicsIff.ne_panic_iff {x : Outcome α} {P : Prop} (h : PanicsIff x P) :
    x ≠ panic ↔ ¬ P := by
  rcases h with ⟨hP, rfl⟩ | ⟨hP, a, rfl⟩
  · simp [hP]
  · simp [hP]

/-! ### Folds -/

variable {σ : Type u} {f : σ → α → Outcome σ} {I : σ → Prop} {C : α → Prop}

/-- **A fold that does not panic**: every element meets a condition under which its step succeeds
and keeps an invariant. -/
theorem foldlM_ok (hok : ∀ s a, I s → C a → ∃ t, f s a = ok t ∧ I t) :
    ∀ {as : List α} {s : σ}, I s → (∀ a ∈ as, C a) → ∃ t, as.foldlM f s = ok t ∧ I t := by
  intro as
  induction as with
  | nil => intro s hs _; exact ⟨s, rfl, hs⟩
  | cons a as ih =>
      intro s hs hC
      obtain ⟨t, ht, hIt⟩ := hok s a hs (hC a List.mem_cons_self)
      rw [List.foldlM_cons, ht, ok_bind]
      exact ih hIt fun b hb => hC b (List.mem_cons_of_mem a hb)

/-- **A fold that panics**: some element does not meet the condition, and the step of such an
element panics. -/
theorem foldlM_panic (hok : ∀ s a, I s → C a → ∃ t, f s a = ok t ∧ I t)
    (hpanic : ∀ s a, I s → ¬ C a → f s a = panic) :
    ∀ {as : List α} {s : σ}, I s → ¬ (∀ a ∈ as, C a) → as.foldlM f s = panic := by
  intro as
  induction as with
  | nil => intro s _ hC; exact absurd (fun a ha => absurd ha List.not_mem_nil) hC
  | cons a as ih =>
      intro s hs hC
      rw [List.foldlM_cons]
      by_cases ha : C a
      · obtain ⟨t, ht, hIt⟩ := hok s a hs ha
        rw [ht, ok_bind]
        refine ih hIt fun has => hC ?_
        intro b hb
        rcases List.mem_cons.1 hb with rfl | hb
        · exact ha
        · exact has b hb
      · rw [hpanic s a hs ha, panic_bind]

theorem foldlM_panicsIff_of_mem {P : α → Prop} :
    ∀ {as : List α}, (∀ a ∈ as, ∀ s, (f s a).PanicsIff (P a)) →
      ∀ s, (as.foldlM f s).PanicsIff (∃ a ∈ as, P a) := by
  intro as
  induction as with
  | nil => intro _ s; exact (panicsIff_ok s).congr (by simp)
  | cons a as ih =>
      intro hf s
      have hrest := ih fun b hb => hf b (List.mem_cons_of_mem a hb)
      rw [List.foldlM_cons]
      exact ((hf a List.mem_cons_self s).bind hrest).congr (by simp)

theorem foldlM_panicsIff {P : α → Prop} (hf : ∀ s a, (f s a).PanicsIff (P a)) (as : List α)
    (s : σ) : (as.foldlM f s).PanicsIff (∃ a ∈ as, P a) :=
  foldlM_panicsIff_of_mem (fun a _ s => hf s a) s

/-- **A fold whose steps keep to cells of their own**: at the end, the cell of an element is as its
own step left it, and that step found it as it was at the start. -/
theorem foldlM_cells {κ γ : Type u} (key : α → κ) (get : σ → κ → γ)
    (hframe : ∀ s a t, f s a = ok t → ∀ k ≠ key a, get t k = get s k) :
    ∀ {as : List α} {s t : σ}, (as.map key).Nodup → as.foldlM f s = ok t →
      (∀ a ∈ as, ∃ before after, f before a = ok after ∧
        get before (key a) = get s (key a) ∧ get t (key a) = get after (key a)) ∧
      ∀ k ∉ as.map key, get t k = get s k := by
  intro as
  induction as with
  | nil =>
      intro s t _ h
      cases h
      exact ⟨fun a ha => absurd ha List.not_mem_nil, fun _ _ => rfl⟩
  | cons a as ih =>
      intro s t hkeys h
      rw [List.map_cons, List.nodup_cons] at hkeys
      rw [List.foldlM_cons] at h
      obtain ⟨next, hstep, h⟩ := bind_eq_ok.1 h
      obtain ⟨hcells, hrest⟩ := ih hkeys.2 h
      refine ⟨?_, ?_⟩
      · intro b hb
        rcases List.mem_cons.1 hb with rfl | hb
        · -- no later step has this cell
          exact ⟨s, next, hstep, rfl, hrest (key b) hkeys.1⟩
        · obtain ⟨before, after, hstep', hbefore, hafter⟩ := hcells b hb
          have hne : key b ≠ key a := by
            intro heq
            exact hkeys.1 (heq ▸ List.mem_map_of_mem hb)
          exact ⟨before, after, hstep', hbefore.trans (hframe s a next hstep _ hne), hafter⟩
      · intro k hk
        rw [List.map_cons, List.mem_cons, not_or] at hk
        exact (hrest k hk.2).trans (hframe s a next hstep k hk.1)

/-- A fold whose steps make some writes makes the writes of all of them. -/
theorem foldlM_eq_spliceAll {γ : Type u} {f : List γ → α → Outcome (List γ)}
    {writes : α → List (ℕ × List γ)} {n : ℕ} :
    ∀ {as : List α} {xs : List γ}, xs.length = n →
      (∀ a ∈ as, ∀ xs : List γ, xs.length = n →
        f xs a = ok (List.spliceAll (writes a) xs)) →
      (∀ a ∈ as, ∀ w ∈ writes a, w.1 + w.2.length ≤ n) →
      as.foldlM f xs = ok (List.spliceAll (as.flatMap writes) xs) := by
  intro as
  induction as with
  | nil => intro xs _ _ _; rfl
  | cons a as ih =>
      intro xs hlen hstep hinside
      have hkept : (List.spliceAll (writes a) xs).length = n := by
        rw [List.length_spliceAll, hlen]
        rw [hlen]
        exact hinside a List.mem_cons_self
      rw [List.foldlM_cons, hstep a List.mem_cons_self xs hlen, ok_bind,
        List.flatMap_cons, List.spliceAll_append]
      exact ih hkept (fun b hb => hstep b (List.mem_cons_of_mem a hb))
        fun b hb => hinside b (List.mem_cons_of_mem a hb)

end Outcome

/-! ### Slices -/

variable {α : Type u}

/-- `xs[start..stop]`. -/
def slice (start stop : ℕ) (xs : List α) : Outcome (List α) :=
  if start ≤ stop ∧ stop ≤ xs.length then .ok (xs.slice start (stop - start)) else .panic

theorem slice_ne_panic {start stop : ℕ} {xs : List α} (hle : start ≤ stop)
    (hstop : stop ≤ xs.length) : slice start stop xs ≠ .panic := by
  rw [slice, if_pos ⟨hle, hstop⟩]
  exact nofun

theorem slice_all {xs : List α} {n : ℕ} (h : xs.length = n) : slice 0 n xs = .ok xs := by
  subst h
  simp [slice, List.slice]

/-- A slice is decided by the elements in its bounds. -/
theorem slice_congr {start stop : ℕ} {xs ys : List α} (hlen : xs.length = ys.length)
    (h : ∀ i, start ≤ i → i < stop → xs[i]? = ys[i]?) :
    slice start stop xs = slice start stop ys := by
  have hpart : xs.slice start (stop - start) = ys.slice start (stop - start) := by
    refine List.ext_getElem? fun i => ?_
    rw [List.getElem?_slice, List.getElem?_slice]
    split_ifs with hi
    · exact h (start + i) (by omega) (by omega)
    · rfl
  rw [slice, slice, hlen, hpart]

/-- `xs[i]`. -/
def index (xs : List α) (i : ℕ) : Outcome α :=
  match xs[i]? with
  | some x => .ok x
  | none => .panic

theorem index_ne_panic {xs : List α} {i : ℕ} (h : i < xs.length) : index xs i ≠ .panic := by
  rw [index, List.getElem?_eq_getElem h]
  exact nofun

/-- `xs[start..stop].copy_from_slice(src)`. -/
def copyFromSlice (start stop : ℕ) (src xs : List α) : Outcome (List α) :=
  if start ≤ stop ∧ stop ≤ xs.length ∧ src.length = stop - start then .ok (List.splice start src xs)
  else .panic

/-! ### Blocking -/

/-- What a function is called from: a task of the asynchronous runtime, of which `main` is one, or a
thread of its own. -/
inductive Caller
  | task
  | thread
  deriving DecidableEq

/-- `block_on`: a task may not block its thread. -/
def Caller.blockOn {α : Type u} (caller : Caller) (x : Outcome α) : Outcome α :=
  match caller with
  | task => .panic
  | thread => x

@[simp] theorem Caller.blockOn_task {α : Type u} (x : Outcome α) : task.blockOn x = .panic := rfl

@[simp] theorem Caller.blockOn_thread {α : Type u} (x : Outcome α) : thread.blockOn x = x := rfl

end Rust
