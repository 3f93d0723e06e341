import Mathlib.Data.List.Induction
import P5136.Lib.FiniteMap

/-!
# Changes of a finite map

A planned change of a map is a list of keys with the value each is to get, or none where the key goes. The changes are applied
one after another, so the last one of a key counts.
-/

universe u v

/-- What becomes of a key. -/
structure Change (K : Type u) (V : Type v) where
  key : K
  value : Option V

namespace Change

open List

variable {K : Type u} {V : Type v} [DecidableEq K]

/-- Put the value in, or take the key out. -/
def apply (m : FiniteMap K V) (change : Change K V) : FiniteMap K V :=
  match change.value with
  | some v => m.insert change.key v
  | none => m.erase change.key

/-- The value of a key when the changes are made: that of its last change, or the one it has. -/
def after (m : FiniteMap K V) (changes : List (Change K V)) (k : K) : Option V :=
  match changes.reverse.find? (fun change => change.key = k) with
  | some change => change.value
  | none => m.lookup k

/-- Looking up after one change. -/
theorem lookup_apply (m : FiniteMap K V) (change : Change K V) (k : K) :
    AList.lookup k (change.apply m) = if k = change.key then change.value else m.lookup k := by
  unfold apply
  cases hv : change.value with
  | some v => exact FiniteMap.lookup_insert m change.key k v
  | none => exact FiniteMap.lookup_erase m change.key k

/-- After no change a key has the value it has. -/
@[simp] theorem after_nil (m : FiniteMap K V) (k : K) : after m [] k = m.lookup k := rfl

/-- One more change at the end. -/
theorem after_append_singleton (m : FiniteMap K V) (changes : List (Change K V)) (change : Change K V) (k : K) :
    after m (changes ++ [change]) k = if k = change.key then change.value else after m changes k := by
  unfold after
  rw [reverse_append, reverse_singleton, singleton_append, find?_cons]
  by_cases h : k = change.key
  · simp [h]
  · have hne : decide (change.key = k) = false := decide_eq_false (Ne.symm h)
    rw [hne, if_neg h]

/-- One change. -/
@[simp] theorem after_singleton (m : FiniteMap K V) (change : Change K V) (k : K) :
    after m [change] k = if k = change.key then change.value else m.lookup k :=
  after_append_singleton m [] change k

/-- Two changes. -/
@[simp] theorem after_pair (m : FiniteMap K V) (change change' : Change K V) (k : K) :
    after m [change, change'] k =
      if k = change'.key then change'.value else if k = change.key then change.value else m.lookup k := by
  rw [show [change, change'] = [change] ++ [change'] from rfl, after_append_singleton, after_singleton]

/-- Making the changes gives every key the value it has after them. -/
theorem lookup_foldl_apply (m : FiniteMap K V) (changes : List (Change K V)) (k : K) :
    AList.lookup k (changes.foldl apply m) = after m changes k := by
  induction changes using reverseRecOn with
  | nil => rfl
  | append_singleton changes change ih =>
    rw [foldl_append, foldl_cons, foldl_nil, lookup_apply, after_append_singleton, ih]

/-- A key that no change names keeps its value. -/
theorem after_of_forall_ne {m : FiniteMap K V} {changes : List (Change K V)} {k : K}
    (h : ∀ change ∈ changes, change.key ≠ k) : after m changes k = m.lookup k := by
  unfold after
  rw [find?_eq_none.2]
  intro change hc
  simpa using h change (mem_reverse.1 hc)

/-- When every change of a key has the same value, that is the value of the key. -/
theorem after_of_mem {m : FiniteMap K V} {changes : List (Change K V)} {k : K} {value : Option V}
    (hmem : ∃ change ∈ changes, change.key = k) (hall : ∀ change ∈ changes, change.key = k → change.value = value) :
    after m changes k = value := by
  unfold after
  cases hf : changes.reverse.find? (fun change => change.key = k) with
  | none =>
    obtain ⟨change, hc, hk⟩ := hmem
    have := find?_eq_none.1 hf change (mem_reverse.2 hc)
    simp [hk] at this
  | some change =>
    have hk := find?_some hf
    exact hall change (mem_reverse.1 (mem_of_find?_eq_some hf)) (by simpa using hk)

/-- When every change takes a key out, the keys that are named are gone and the others stay. -/
theorem after_of_deletes {m : FiniteMap K V} {changes : List (Change K V)} (h : ∀ change ∈ changes, change.value = none) (k : K) :
    after m changes k = if k ∈ changes.map Change.key then none else m.lookup k := by
  split
  · rename_i hmem
    obtain ⟨change, hc, hk⟩ := mem_map.1 hmem
    exact after_of_mem ⟨change, hc, hk⟩ fun change' hc' _ => h change' hc'
  · rename_i hmem
    exact after_of_forall_ne fun change hc hk => hmem (mem_map.2 ⟨change, hc, hk⟩)

end Change
