/-
The faults of a computation by their kind.

Code panics for two kinds of reasons: it reads outside a vector, or a result of its arithmetic does
not fit its type.  The second is a panic only in a program that was built with overflow checks; in
the others the result is wrapped to the width of the type, and what is computed from it may read
outside a vector.

Main definitions:

* `Rust.Fault`, `Rust.Build` — the kinds of faults, and the ways to build a program;
* `Rust.Faulty` — a value, an error message or a fault, as a monad;
* `Rust.Faulty.outcome` — the same without the kind of the fault;
* `Rust.Faulty.FaultsIn`, `Rust.Faulty.NoErr` — every fault of the computation is of a certain kind,
  and it has no error message;
* `Rust.Build.unsigned`, `Rust.Build.signed` — results of arithmetic.

Main results:

* `Rust.Faulty.outcome_bind`, `Rust.Faulty.outcome_mapM`, `Rust.Faulty.outcome_foldlM` — the kinds
  can be forgotten step by step;
* `Rust.Faulty.FaultsIn.bind`, `Rust.Faulty.FaultsIn.foldlM` — **faults come from the parts**;
* `Rust.Faulty.foldlM_eq_ok_iff` — a loop against the same without the bounds of its arithmetic;
* `Rust.Faulty.foldlM_sum` — a loop that adds;
* `Rust.Build.unsigned_ok`, `Rust.Build.signed_ok` — what fits is the same in every build.
-/

import FillingPilot.Outcome
import Mathlib.Algebra.Order.Ring.Int

set_option relaxedAutoImplicit false
set_option autoImplicit false

universe u

namespace Rust

/-! ### Computations -/

/-- The reason of a panic. -/
inductive Fault
  /-- A slice or an index outside a vector. -/
  | bounds
  /-- A result of arithmetic outside its type. -/
  | overflow
  deriving DecidableEq

/-- What a fallible function comes to, with the reason of a panic. -/
inductive Faulty (α : Type u)
  | ok (a : α)
  | err (message : String)
  | fault (kind : Fault)
  deriving DecidableEq

namespace Faulty

variable {α β : Type u}

/-- Errors and faults are passed on. -/
def bind (x : Faulty α) (f : α → Faulty β) : Faulty β :=
  match x with
  | ok a => f a
  | err message => err message
  | fault kind => fault kind

instance : Monad Faulty where
  pure := ok
  bind := bind

@[simp] theorem pure_eq (a : α) : (pure a : Faulty α) = ok a := rfl

@[simp] theorem ok_bind (a : α) (f : α → Faulty β) : (ok a >>= f) = f a := rfl

@[simp] theorem err_bind (message : String) (f : α → Faulty β) :
    (err message >>= f) = err message := rfl

@[simp] theorem fault_bind (kind : Fault) (f : α → Faulty β) :
    (fault kind >>= f) = fault kind := rfl

theorem bind_eq_ok {x : Faulty α} {f : α → Faulty β} {b : β} :
    (x >>= f) = ok b ↔ ∃ a, x = ok a ∧ f a = ok b := by
  cases x with
  | ok a => simp
  | err message => simp
  | fault kind => simp

instance : LawfulMonad Faulty := LawfulMonad.mk' Faulty
  (fun x => by cases x <;> rfl) (fun _ _ => rfl) (fun x _ _ => by cases x <;> rfl)

/-- The outcome of the computation, whatever the reason of a panic is. -/
def outcome : Faulty α → Outcome α
  | ok a => .ok a
  | err message => .err message
  | fault _ => .panic

@[simp] theorem outcome_ok (a : α) : (ok a).outcome = .ok a := rfl

@[simp] theorem outcome_err (message : String) :
    (err message : Faulty α).outcome = .err message := rfl

@[simp] theorem outcome_fault (kind : Fault) : (fault kind : Faulty α).outcome = .panic := rfl

theorem outcome_eq_ok_iff {x : Faulty α} {a : α} : x.outcome = .ok a ↔ x = ok a := by
  cases x <;> simp

theorem outcome_bind (x : Faulty α) (f : α → Faulty β) :
    (x >>= f).outcome = x.outcome >>= fun a => (f a).outcome := by
  cases x <;> rfl

theorem outcome_mapM (f : α → Faulty β) (as : List α) :
    (as.mapM f).outcome = as.mapM fun a => (f a).outcome := by
  induction as with
  | nil => rfl
  | cons a as ih =>
      rw [List.mapM_cons, List.mapM_cons, outcome_bind]
      congr 1
      funext b
      rw [outcome_bind, ih]
      rfl

theorem outcome_foldlM {σ : Type u} {f : σ → α → Faulty σ} {g : σ → α → Outcome σ} {as : List α}
    (h : ∀ a ∈ as, ∀ s, (f s a).outcome = g s a) (s : σ) :
    (as.foldlM f s).outcome = as.foldlM g s := by
  induction as generalizing s with
  | nil => rfl
  | cons a as ih =>
      rw [List.foldlM_cons, List.foldlM_cons, outcome_bind, h a List.mem_cons_self]
      congr 1
      funext t
      exact ih (fun b hb => h b (List.mem_cons_of_mem a hb)) t

/-! ### Where faults come from -/

/-- Every fault of the computation is of a kind with `P`. -/
def FaultsIn (P : Fault → Prop) (x : Faulty α) : Prop := ∀ kind, x = fault kind → P kind

variable {P : Fault → Prop}

theorem faultsIn_ok (a : α) : (ok a).FaultsIn P := nofun

theorem faultsIn_err (message : String) : (err message : Faulty α).FaultsIn P := nofun

/-- A computation whose outcome is no panic has no fault of any kind. -/
theorem faultsIn_of_outcome {x : Faulty α} (h : x.outcome ≠ .panic) : x.FaultsIn P := by
  rintro kind rfl
  exact absurd rfl h

theorem FaultsIn.bind {x : Faulty α} {f : α → Faulty β} (hx : x.FaultsIn P)
    (hf : ∀ a, x = ok a → (f a).FaultsIn P) : (x >>= f).FaultsIn P := by
  cases x with
  | ok a => exact hf a rfl
  | err message => exact faultsIn_err message
  | fault kind =>
      rintro _ ⟨⟩
      exact hx kind rfl

theorem FaultsIn.foldlM {σ : Type u} {f : σ → α → Faulty σ} {as : List α}
    (hf : ∀ a ∈ as, ∀ s, (f s a).FaultsIn P) : ∀ s, (as.foldlM f s).FaultsIn P := by
  induction as with
  | nil => exact fun s => faultsIn_ok s
  | cons a as ih =>
      intro s
      rw [List.foldlM_cons]
      exact (hf a List.mem_cons_self s).bind fun t _ =>
        ih (fun b hb => hf b (List.mem_cons_of_mem a hb)) t

theorem faultsIn_false_iff {x : Faulty α} :
    x.FaultsIn (fun _ => False) ↔ x.outcome ≠ .panic := by
  constructor
  · intro h hpanic
    cases x with
    | fault kind => exact h kind rfl
    | _ => cases hpanic
  · exact faultsIn_of_outcome

/-! ### Errors -/

/-- The computation has no error message. -/
def NoErr (x : Faulty α) : Prop := ∀ message, x ≠ err message

theorem noErr_ok (a : α) : (ok a).NoErr := nofun

theorem noErr_fault (kind : Fault) : (fault kind : Faulty α).NoErr := nofun

theorem NoErr.bind {x : Faulty α} {f : α → Faulty β} (hx : x.NoErr) (hf : ∀ a, (f a).NoErr) :
    (x >>= f).NoErr := by
  cases x with
  | ok a => exact hf a
  | err message => exact absurd rfl (hx message)
  | fault kind => exact noErr_fault kind

theorem NoErr.foldlM {σ : Type u} {f : σ → α → Faulty σ} (hf : ∀ s a, (f s a).NoErr)
    (as : List α) (s : σ) : (as.foldlM f s).NoErr := by
  induction as generalizing s with
  | nil => exact noErr_ok s
  | cons a as ih => exact (hf s a).bind ih

/-- A computation without messages and values is a panic. -/
theorem NoErr.outcome_eq_panic {x : Faulty α} (hx : x.NoErr) (hok : ∀ a, x ≠ ok a) :
    x.outcome = .panic := by
  cases x with
  | ok a => exact absurd rfl (hok a)
  | err message => exact absurd rfl (hx message)
  | fault kind => rfl

/-- A fold has a value when each step meets its condition and the fold without them has one. -/
theorem foldlM_eq_ok_iff {σ : Type u} {f : σ → α → Faulty σ} {g : σ → α → Outcome σ}
    {C : α → Prop} (h : ∀ s a t, f s a = ok t ↔ C a ∧ g s a = .ok t) {as : List α} {s t : σ} :
    as.foldlM f s = ok t ↔ (∀ a ∈ as, C a) ∧ as.foldlM g s = .ok t := by
  induction as generalizing s with
  | nil => simp
  | cons a as ih =>
      rw [List.foldlM_cons, List.foldlM_cons, bind_eq_ok, Outcome.bind_eq_ok, List.forall_mem_cons]
      constructor
      · rintro ⟨u, hstep, hrest⟩
        obtain ⟨ha, hstep⟩ := (h s a u).1 hstep
        obtain ⟨has, hrest⟩ := ih.1 hrest
        exact ⟨⟨ha, has⟩, u, hstep, hrest⟩
      · rintro ⟨⟨ha, has⟩, u, hstep, hrest⟩
        exact ⟨u, (h s a u).2 ⟨ha, hstep⟩, ih.2 ⟨has, hrest⟩⟩

/-! ### Vectors -/

/-- `xs[start..stop]`. -/
def slice (start stop : ℕ) (xs : List α) : Faulty (List α) :=
  if start ≤ stop ∧ stop ≤ xs.length then .ok (xs.slice start (stop - start)) else .fault .bounds

theorem slice_ok {start stop : ℕ} {xs : List α} (hle : start ≤ stop) (hstop : stop ≤ xs.length) :
    slice start stop xs = .ok (xs.slice start (stop - start)) :=
  if_pos ⟨hle, hstop⟩

@[simp] theorem outcome_slice (start stop : ℕ) (xs : List α) :
    (slice start stop xs).outcome = Rust.slice start stop xs := by
  unfold slice Rust.slice
  split_ifs <;> rfl

theorem noErr_slice (start stop : ℕ) (xs : List α) : (slice start stop xs).NoErr := by
  unfold slice
  split_ifs
  · exact noErr_ok _
  · exact noErr_fault _

/-- `xs[i]`. -/
def index (xs : List α) (i : ℕ) : Faulty α :=
  match xs[i]? with
  | some x => .ok x
  | none => .fault .bounds

theorem index_ok {xs : List α} {i : ℕ} (h : i < xs.length) : index xs i = .ok xs[i] := by
  rw [index, List.getElem?_eq_getElem h]

@[simp] theorem outcome_index (xs : List α) (i : ℕ) :
    (index xs i).outcome = Rust.index xs i := by
  unfold index Rust.index
  cases xs[i]? <;> rfl

/-! ### Sums -/

/-- A loop that adds a number for each element comes to their sum, as long as it is below the bound
of the type. -/
theorem foldlM_sum {α : Type u} {f : ℕ → α → Faulty ℕ} {g : α → ℕ} (bound : ℕ) {as : List α}
    (hf : ∀ a ∈ as, ∀ total, total + g a < bound → f total a = ok (total + g a)) {total : ℕ}
    (h : total + (as.map g).sum < bound) : as.foldlM f total = ok (total + (as.map g).sum) := by
  induction as generalizing total with
  | nil => rfl
  | cons a as ih =>
      rw [List.map_cons, List.sum_cons] at h ⊢
      rw [List.foldlM_cons, hf a List.mem_cons_self total (by omega), ok_bind,
        ih (fun b hb => hf b (List.mem_cons_of_mem a hb)) (by omega), Nat.add_assoc]

end Faulty

/-! ### Arithmetic -/

/-- How a program is built: with overflow checks, or without. -/
inductive Build
  | checked
  | wrapping
  deriving DecidableEq

namespace Build

variable (build : Build)

/-- A result of arithmetic in the unsigned type of `bits` bits. -/
def unsigned (bits : ℕ) (n : ℤ) : Faulty ℕ :=
  if 0 ≤ n ∧ n < 2 ^ bits then .ok n.toNat
  else match build with
    | checked => .fault .overflow
    | wrapping => .ok (n % 2 ^ bits).toNat

/-- A result of arithmetic in the signed type of `bits` bits. -/
def signed (bits : ℕ) (n : ℤ) : Faulty ℤ :=
  if -2 ^ (bits - 1) ≤ n ∧ n < 2 ^ (bits - 1) then .ok n
  else match build with
    | checked => .fault .overflow
    | wrapping => .ok (Int.bmod n (2 ^ bits))

theorem unsigned_ok {bits n : ℕ} (h : n < 2 ^ bits) : build.unsigned bits n = .ok n := by
  have hfits : (n : ℤ) < 2 ^ bits := by exact_mod_cast h
  unfold unsigned
  rw [if_pos ⟨Int.natCast_nonneg n, hfits⟩, Int.toNat_natCast]

theorem signed_ok {bits : ℕ} {n : ℤ} (hlow : -2 ^ (bits - 1) ≤ n) (hhigh : n < 2 ^ (bits - 1)) :
    build.signed bits n = .ok n :=
  if_pos ⟨hlow, hhigh⟩

theorem unsigned_wrapping (bits n : ℕ) : wrapping.unsigned bits n = .ok (n % 2 ^ bits) := by
  unfold unsigned
  split_ifs with hfits
  · have hlt : n < 2 ^ bits := by exact_mod_cast hfits.2
    rw [Int.toNat_natCast, Nat.mod_eq_of_lt hlt]
  · exact congrArg Faulty.ok (by exact_mod_cast Int.toNat_natCast (n % 2 ^ bits))

theorem unsigned_checked {bits n : ℕ} (h : 2 ^ bits ≤ n) :
    checked.unsigned bits n = .fault .overflow := by
  have hlarge : (2 : ℤ) ^ bits ≤ n := by exact_mod_cast h
  exact if_neg fun hfits => absurd hfits.2 (not_lt.2 hlarge)

theorem noErr_unsigned (bits : ℕ) (n : ℤ) : (build.unsigned bits n).NoErr := by
  unfold unsigned
  split_ifs
  · exact Faulty.noErr_ok _
  · cases build with
    | checked => exact Faulty.noErr_fault _
    | wrapping => exact Faulty.noErr_ok _

theorem unsigned_checked_eq_ok_iff {bits n m : ℕ} :
    checked.unsigned bits n = .ok m ↔ n < 2 ^ bits ∧ n = m := by
  by_cases h : n < 2 ^ bits
  · rw [unsigned_ok checked h, Faulty.ok.injEq]
    exact (and_iff_right h).symm
  · rw [unsigned_checked (Nat.le_of_not_lt h)]
    exact iff_of_false (fun hok => by cases hok) fun hok => h hok.1

end Build

end Rust
