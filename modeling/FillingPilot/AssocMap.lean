/-
Operations on association lists with distinct keys that a hash map offers and `Mathlib`'s `AList`
does not: restriction to the keys that satisfy a predicate, and a change of every value in place.

Main definitions:

* `AList.filterKeys` — the entries whose key satisfies a predicate (`retain`, repeated `remove`);
* `AList.mapValues` — every value changed by a function (`iter_mut`);
* `AList.insertAll` — a value inserted under each key of a list;
* `AList.insertPairs` — pairs inserted one after the other;
* `AList.flatValues` — the elements of all values, where the values are lists.

Main results:

* `AList.lookup_filterKeys`, `AList.lookup_mapValues`, `AList.lookup_insertAll`,
  `AList.lookup_insertPairs_of_mem`, `AList.lookup_insertPairs_perm`, `AList.lookup_insert_eq_some`,
  `AList.lookup_erase_eq_some` — what each of them does to a lookup, and
  `AList.keys_mapValues`, `AList.mem_filterKeys`, `AList.mem_insertAll` to the keys;
* `AList.flatValues_perm` — **all elements are those of one value and those of the others**.
-/

import Mathlib.Data.List.AList
import Mathlib.Data.List.Flatten

set_option relaxedAutoImplicit false
set_option autoImplicit false

namespace AList

universe u v

variable {α : Type u} {β : Type v}

/-- The entries whose key satisfies `p`. -/
def filterKeys (p : α → Bool) (m : AList fun _ : α => β) : AList fun _ : α => β where
  entries := m.entries.filter fun e => p e.1
  nodupKeys := m.nodupKeys.sublist List.filter_sublist

/-- Every value changed by `f`, the keys and their order kept. -/
def mapValues (f : β → β) (m : AList fun _ : α => β) : AList fun _ : α => β where
  entries := m.entries.map fun e => ⟨e.1, f e.2⟩
  nodupKeys := by
    have hkeys : (m.entries.map fun e => (⟨e.1, f e.2⟩ : Σ _ : α, β)).keys = m.entries.keys := by
      simp [List.keys, Function.comp_def]
    rw [List.NodupKeys, hkeys]
    exact m.keys_nodup

@[simp] theorem keys_mapValues (f : β → β) (m : AList fun _ : α => β) :
    (m.mapValues f).keys = m.keys := by
  simp [mapValues, AList.keys, List.keys, Function.comp_def]

@[simp] theorem mem_filterKeys {p : α → Bool} {m : AList fun _ : α => β} {a : α} :
    a ∈ m.filterKeys p ↔ a ∈ m ∧ p a = true := by
  simp only [mem_keys, AList.keys, filterKeys, List.keys, List.mem_map, List.mem_filter]
  constructor
  · rintro ⟨e, ⟨he, hp⟩, rfl⟩
    exact ⟨⟨e, he, rfl⟩, hp⟩
  · rintro ⟨⟨e, he, rfl⟩, hp⟩
    exact ⟨e, ⟨he, hp⟩, rfl⟩

/-- Membership of an entry is membership of its value under its key. -/
theorem mem_entries_iff [DecidableEq α] {m : AList fun _ : α => β} {a : α} {b : β} :
    (⟨a, b⟩ : Σ _ : α, β) ∈ m.entries ↔ m.lookup a = some b :=
  (List.mem_dlookup_iff m.nodupKeys).symm

section Lookup

variable [DecidableEq α]

theorem lookup_filterKeys (p : α → Bool) (m : AList fun _ : α => β) (a : α) :
    (m.filterKeys p).lookup a = if p a then m.lookup a else none := by
  ext b
  rw [← mem_entries_iff]
  simp only [filterKeys, List.mem_filter, mem_entries_iff]
  by_cases hp : p a = true <;> simp [hp]

@[simp] theorem lookup_mapValues (f : β → β) (m : AList fun _ : α => β) (a : α) :
    (m.mapValues f).lookup a = (m.lookup a).map f := by
  simp only [mapValues, AList.lookup]
  exact List.dlookup_map₂ (f := fun _ => f) a

/-- A value that is found after an insertion is the new one under its key, or was there. -/
theorem lookup_insert_eq_some {m : AList fun _ : α => β} {a a' : α} {b b' : β}
    (h : (m.insert a b).lookup a' = some b') :
    (a' = a ∧ b' = b) ∨ (a' ≠ a ∧ m.lookup a' = some b') := by
  by_cases ha : a' = a
  · subst ha
    rw [lookup_insert, Option.some.injEq] at h
    exact Or.inl ⟨rfl, h.symm⟩
  · rw [lookup_insert_ne ha] at h
    exact Or.inr ⟨ha, h⟩

theorem lookup_erase_eq_some {m : AList fun _ : α => β} {a a' : α} {b : β}
    (h : (m.erase a).lookup a' = some b) : a' ≠ a ∧ m.lookup a' = some b := by
  by_cases ha : a' = a
  · subst ha
    rw [lookup_erase] at h
    cases h
  · rw [lookup_erase_ne ha] at h
    exact ⟨ha, h⟩

/-- The value `b` inserted under each of the keys `ks`. -/
def insertAll (b : β) (ks : List α) (m : AList fun _ : α => β) : AList fun _ : α => β :=
  ks.foldl (fun m k => m.insert k b) m

theorem mem_insertAll {b : β} {ks : List α} {m : AList fun _ : α => β} {a : α} :
    a ∈ m.insertAll b ks ↔ a ∈ ks ∨ a ∈ m := by
  induction ks generalizing m with
  | nil => simp [insertAll]
  | cons k ks ih =>
      have hstep : m.insertAll b (k :: ks) = (m.insert k b).insertAll b ks := rfl
      rw [hstep, ih, mem_insert, List.mem_cons]
      tauto

theorem lookup_insertAll (b : β) (ks : List α) (m : AList fun _ : α => β) (a : α) :
    (m.insertAll b ks).lookup a = if a ∈ ks then some b else m.lookup a := by
  induction ks generalizing m with
  | nil => simp [insertAll]
  | cons k ks ih =>
      have hstep : m.insertAll b (k :: ks) = (m.insert k b).insertAll b ks := rfl
      rw [hstep, ih]
      by_cases hks : a ∈ ks
      · simp [hks]
      · by_cases hak : a = k
        · subst hak
          simp [hks]
        · rw [if_neg hks, if_neg (by simp [hak, hks]), lookup_insert_ne hak]

/-- The pairs `ps` inserted one after the other. -/
def insertPairs (ps : List (α × β)) (m : AList fun _ : α => β) : AList fun _ : α => β :=
  ps.foldl (fun m p => m.insert p.1 p.2) m

theorem lookup_insertPairs_of_notMem {ps : List (α × β)} {a : α} (h : a ∉ ps.map Prod.fst)
    (m : AList fun _ : α => β) : (m.insertPairs ps).lookup a = m.lookup a := by
  induction ps generalizing m with
  | nil => rfl
  | cons p ps ih =>
      rw [List.map_cons, List.mem_cons, not_or] at h
      have hstep : m.insertPairs (p :: ps) = (m.insert p.1 p.2).insertPairs ps := rfl
      rw [hstep, ih h.2, lookup_insert_ne h.1]

theorem lookup_insertPairs_of_mem {ps : List (α × β)} {a : α} (h : a ∈ ps.map Prod.fst)
    (m : AList fun _ : α => β) : ∃ b, (a, b) ∈ ps ∧ (m.insertPairs ps).lookup a = some b := by
  induction ps generalizing m with
  | nil => cases h
  | cons p ps ih =>
      have hstep : m.insertPairs (p :: ps) = (m.insert p.1 p.2).insertPairs ps := rfl
      rw [hstep]
      by_cases hlater : a ∈ ps.map Prod.fst
      · obtain ⟨b, hb, hlookup⟩ := ih hlater (m.insert p.1 p.2)
        exact ⟨b, List.mem_cons_of_mem p hb, hlookup⟩
      · rw [List.map_cons, List.mem_cons] at h
        obtain rfl : a = p.1 := h.resolve_right hlater
        refine ⟨p.2, List.mem_cons_self, ?_⟩
        rw [lookup_insertPairs_of_notMem hlater, lookup_insert]

theorem lookup_insertPairs_perm {ps ps' : List (α × β)} (h : ps.Perm ps')
    (hkeys : (ps.map Prod.fst).Nodup) (m : AList fun _ : α => β) (a : α) :
    (m.insertPairs ps).lookup a = (m.insertPairs ps').lookup a := by
  by_cases ha : a ∈ ps.map Prod.fst
  · obtain ⟨b, hb, hlookup⟩ := lookup_insertPairs_of_mem ha m
    obtain ⟨b', hb', hlookup'⟩ := lookup_insertPairs_of_mem ((h.map Prod.fst).mem_iff.1 ha) m
    -- the two pairs are in one list without repeated keys
    have hsame : (a, b) = (a, b') := List.inj_on_of_nodup_map hkeys hb (h.mem_iff.2 hb') rfl
    rw [hlookup, hlookup', (Prod.mk.inj hsame).2]
  · have ha' : a ∉ ps'.map Prod.fst := fun hmem => ha ((h.map Prod.fst).mem_iff.2 hmem)
    rw [lookup_insertPairs_of_notMem ha, lookup_insertPairs_of_notMem ha']

/-- The entries of a map, inserted into an empty one. -/
theorem lookup_insertPairs_entries (m : AList fun _ : α => β) (a : α) :
    ((∅ : AList fun _ : α => β).insertPairs (m.entries.map fun e => (e.1, e.2))).lookup a =
      m.lookup a := by
  have hkeys : a ∈ (m.entries.map fun e => (e.1, e.2)).map Prod.fst ↔ a ∈ m := by
    rw [List.map_map]
    exact Iff.rfl
  by_cases ha : a ∈ m
  · obtain ⟨b, hb, hlookup⟩ := lookup_insertPairs_of_mem (hkeys.2 ha) ∅
    obtain ⟨⟨a', b'⟩, he, heq⟩ := List.mem_map.1 hb
    obtain ⟨rfl, rfl⟩ := Prod.mk.inj heq
    rw [hlookup, mem_entries_iff.1 he]
  · rw [lookup_insertPairs_of_notMem (mt hkeys.1 ha), lookup_eq_none.2 ha, lookup_empty]

end Lookup

section FlatValues

variable {γ : Type v}

/-- The elements of all values. -/
def flatValues (m : AList fun _ : α => List γ) : List γ := m.entries.flatMap fun e => e.2

@[simp] theorem flatValues_mapValues (f : γ → γ) (m : AList fun _ : α => List γ) :
    (m.mapValues (List.map f)).flatValues = m.flatValues.map f := by
  simp [flatValues, mapValues, List.flatMap_map, List.map_flatMap]

theorem flatValues_filterKeys_sublist (p : α → Bool) (m : AList fun _ : α => List γ) :
    (m.filterKeys p).flatValues.Sublist m.flatValues :=
  List.filter_sublist.flatMap _

variable [DecidableEq α]

theorem mem_flatValues {m : AList fun _ : α => List γ} {x : γ} :
    x ∈ m.flatValues ↔ ∃ a l, m.lookup a = some l ∧ x ∈ l := by
  simp only [flatValues, List.mem_flatMap]
  constructor
  · rintro ⟨⟨a, l⟩, he, hx⟩
    exact ⟨a, l, mem_entries_iff.1 he, hx⟩
  · rintro ⟨a, l, hlookup, hx⟩
    exact ⟨⟨a, l⟩, mem_entries_iff.2 hlookup, hx⟩

theorem flatValues_insert (a : α) (l : List γ) (m : AList fun _ : α => List γ) :
    (m.insert a l).flatValues = l ++ (m.erase a).flatValues := rfl

theorem flatValues_erase_sublist (a : α) (m : AList fun _ : α => List γ) :
    (m.erase a).flatValues.Sublist m.flatValues :=
  (List.kerase_sublist a _).flatMap _

/-- **All elements are those of one value and those of the others.** -/
theorem flatValues_perm (a : α) (m : AList fun _ : α => List γ) :
    m.flatValues.Perm ((m.lookup a).getD [] ++ (m.erase a).flatValues) := by
  cases hlookup : m.lookup a with
  | none =>
      have herase : (m.erase a).entries = m.entries :=
        List.kerase_of_notMem_keys (mem_keys.not.1 (lookup_eq_none.1 hlookup))
      simp [flatValues, herase]
  | some l =>
      have hsame : m.entries.Perm (m.insert a l).entries := by
        refine List.lookup_ext m.nodupKeys (m.insert a l).nodupKeys fun b l' => ?_
        have hlookups : m.lookup b = (m.insert a l).lookup b := by
          by_cases hb : b = a
          · subst hb
            rw [hlookup, lookup_insert]
          · rw [lookup_insert_ne hb]
        change l' ∈ m.lookup b ↔ l' ∈ (m.insert a l).lookup b
        rw [hlookups]
      exact hsame.flatMap_right fun e => e.2

/-- Empty values add no elements. -/
theorem flatValues_insertAll_nil_sublist (ks : List α) (m : AList fun _ : α => List γ) :
    (m.insertAll [] ks).flatValues.Sublist m.flatValues := by
  induction ks generalizing m with
  | nil => exact List.Sublist.refl _
  | cons k ks ih =>
      have hstep : m.insertAll [] (k :: ks) = (m.insert k []).insertAll [] ks := rfl
      rw [hstep]
      refine (ih _).trans ?_
      rw [flatValues_insert, List.nil_append]
      exact flatValues_erase_sublist k m

end FlatValues

end AList
