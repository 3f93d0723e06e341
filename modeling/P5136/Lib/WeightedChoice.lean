import Mathlib.Algebra.BigOperators.Group.List.Basic
import Mathlib.Algebra.Ring.Int.Defs
import Mathlib.Algebra.Ring.Nat
import Mathlib.Data.List.Count
import Mathlib.Data.List.Range

/-!
# Choice by weight

A list in which every element has a weight, and the element that a roll falls on when the weights are laid end to end. Of the
rolls below the total, exactly as many fall on the elements of a kind as these weigh together.
-/

namespace WeightedChoice

open List

variable {α : Type*} (weight : α → Nat)

/-- The weights together. -/
def total (l : List α) : Nat := (l.map weight).sum

/-- The element that a roll falls on. -/
def pick : List α → Nat → Option α
  | [], _ => none
  | a :: l, cursor => if cursor < weight a then some a else pick l (cursor - weight a)

variable {weight}

@[simp] theorem total_nil : total weight [] = 0 := rfl

@[simp] theorem total_cons (a : α) (l : List α) : total weight (a :: l) = weight a + total weight l := by
  simp [total]

/-- The total is positive exactly when some element weighs something. -/
theorem total_pos {l : List α} : 0 < total weight l ↔ ∃ a ∈ l, weight a ≠ 0 := by
  induction l with
  | nil => simp
  | cons a l ih =>
    simp only [total_cons, exists_mem_cons_iff, ← ih]
    omega

/-- Weights that are bounded add up to no more than the bound for each element. -/
theorem total_le {l : List α} {bound : Nat} (h : ∀ a ∈ l, weight a ≤ bound) : total weight l ≤ l.length * bound := by
  induction l with
  | nil => simp
  | cons a l ih =>
    have ha := h a (mem_cons_self ..)
    have hl := ih fun b hb => h b (mem_cons_of_mem _ hb)
    rw [total_cons, length_cons, Nat.succ_mul]
    omega

/-- A roll below the total falls on an element of the list. -/
theorem exists_pick {l : List α} {roll : Nat} (h : roll < total weight l) : ∃ a ∈ l, pick weight l roll = some a := by
  induction l generalizing roll with
  | nil => simp at h
  | cons a l ih =>
    rw [total_cons] at h
    by_cases hfirst : roll < weight a
    · exact ⟨a, mem_cons_self .., if_pos hfirst⟩
    · obtain ⟨b, hb, hpick⟩ := ih (show roll - weight a < total weight l by omega)
      exact ⟨b, mem_cons_of_mem _ hb, (if_neg hfirst).trans hpick⟩

/-- As many rolls below the total fall on the elements of a kind as these weigh together. -/
theorem countP_pick (p : α → Bool) (l : List α) :
    (range (total weight l)).countP (fun roll => (pick weight l roll).any p) = total weight (l.filter p) := by
  induction l with
  | nil => rfl
  | cons a l ih =>
    have hfirst : (range (weight a)).countP (fun roll => (pick weight (a :: l) roll).any p) =
        if p a then weight a else 0 := by
      have hsame : ∀ roll ∈ range (weight a), (pick weight (a :: l) roll).any p = p a := by
        intro roll hroll
        rw [pick, if_pos (mem_range.1 hroll), Option.any_some]
      rw [countP_congr fun roll hroll => by rw [hsame roll hroll]]
      rcases hp : p a with _ | _ <;> simp
    have hrest : ((range (total weight l)).map (weight a + ·)).countP (fun roll => (pick weight (a :: l) roll).any p) =
        total weight (l.filter p) := by
      rw [countP_map, ← ih]
      refine countP_congr fun roll _ => ?_
      rw [Function.comp_apply, pick, if_neg (by omega), Nat.add_sub_cancel_left]
    rw [total_cons, range_add, countP_append, hfirst, hrest, filter_cons]
    rcases p a with _ | _ <;> simp

end WeightedChoice
