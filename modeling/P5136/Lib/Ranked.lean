import Mathlib.Data.List.Sort

/-!
# Sorting by a key

A list is sorted by the keys of its elements. When no two elements have one key, the order is strict, and does not depend on the
order that the list had before.
-/

universe u v

namespace Ranked

open List

variable {α : Type u} {κ : Type v} [LinearOrder κ] (key : α → κ)

/-- The elements in the order of their keys. -/
def sort (l : List α) : List α := l.mergeSort (fun a b => decide (key a ≤ key b))

theorem perm (l : List α) : (sort key l).Perm l := mergeSort_perm l _

theorem mem_sort {l : List α} {a : α} : a ∈ sort key l ↔ a ∈ l := (perm key l).mem_iff

/-- The keys go up. -/
theorem pairwise_le (l : List α) : (sort key l).Pairwise (fun a b => key a ≤ key b) := by
  have htrans : ∀ a b c : α, decide (key a ≤ key b) = true → decide (key b ≤ key c) = true → decide (key a ≤ key c) = true := by
    intro a b c hab hbc
    simpa using le_trans (by simpa using hab) (by simpa using hbc)
  have htotal : ∀ a b : α, (decide (key a ≤ key b) || decide (key b ≤ key a)) = true := by
    intro a b
    simpa using le_total (key a) (key b)
  have h := pairwise_mergeSort htrans htotal l
  simpa [sort] using h

/-- Distinct keys go up strictly. -/
theorem pairwise_lt {l : List α} (h : (l.map key).Nodup) : (sort key l).Pairwise (fun a b => key a < key b) := by
  have hnodup : ((sort key l).map key).Nodup := ((perm key l).map key).nodup_iff.2 h
  refine (pairwise_le key l).imp₂ (fun a b hle hne => lt_of_le_of_ne hle hne) (pairwise_map.1 hnodup)

/-- With distinct keys the order of a list before does not matter. -/
theorem sort_congr {l l' : List α} (hperm : l.Perm l') (h : (l.map key).Nodup) : sort key l = sort key l' := by
  refine Perm.eq_of_pairwise ?_ (pairwise_le key l) (pairwise_le key l') ((perm key l).trans (hperm.trans (perm key l').symm))
  intro a b ha hb hab hba
  rw [mem_sort] at ha
  rw [mem_sort, ← hperm.mem_iff] at hb
  exact inj_on_of_nodup_map h ha hb (le_antisymm hab hba)

/-- The first element has the least key. -/
theorem head_le {l : List α} {a : α} (h : (sort key l).head? = some a) : a ∈ l ∧ ∀ b ∈ l, key a ≤ key b := by
  obtain ⟨rest, hrest⟩ := head?_eq_some_iff.1 h
  have hsorted := pairwise_le key l
  rw [hrest, pairwise_cons] at hsorted
  refine ⟨(mem_sort key).1 (by simp [hrest]), ?_⟩
  intro b hb
  rw [← mem_sort key, hrest, mem_cons] at hb
  rcases hb with rfl | hb
  · exact le_refl _
  · exact hsorted.1 b hb

/-- Which of two elements comes first goes by their keys, also when something else is shown of them that tells them apart. -/
theorem idxOf_map_lt {β : Type v} [DecidableEq β] {f : α → β} {l : List α} (h : (l.map f).Nodup) {a b : α} (ha : a ∈ l)
    (hb : b ∈ l) (hkeys : (l.map key).Nodup) :
    ((sort key l).map f).idxOf (f a) < ((sort key l).map f).idxOf (f b) ↔ key a < key b := by
  have hnodup : ((sort key l).map f).Nodup := ((perm key l).map f).nodup_iff.2 h
  have hsorted := pairwise_iff_getElem.1 (pairwise_lt key hkeys)
  obtain ⟨i, hi, rfl⟩ := getElem_of_mem ((mem_sort key).2 ha)
  obtain ⟨j, hj, rfl⟩ := getElem_of_mem ((mem_sort key).2 hb)
  have hplace : ∀ (k : Nat) (hk : k < (sort key l).length), ((sort key l).map f).idxOf (f (sort key l)[k]) = k := by
    intro k hk
    have hget := hnodup.idxOf_getElem k (by simpa using hk)
    rwa [getElem_map] at hget
  rw [hplace i hi, hplace j hj]
  constructor
  · exact hsorted i j hi hj
  · intro hkey
    rcases Nat.lt_trichotomy i j with hlt | rfl | hlt
    · exact hlt
    · exact absurd hkey (lt_irrefl _)
    · exact absurd hkey (lt_asymm (hsorted j i hj hi hlt))

theorem head?_eq_none {l : List α} : (sort key l).head? = none ↔ l = [] := by
  rw [head?_eq_none_iff, ← length_eq_zero_iff, (perm key l).length_eq, length_eq_zero_iff]

end Ranked
