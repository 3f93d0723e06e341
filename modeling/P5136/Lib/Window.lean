import Mathlib.Data.List.Basic

/-!
# Windows of a list

The elements of a list from a position on, and a list with new elements put over a window of it. A window shows what was put
there, and what was there before where nothing was put.
-/

universe u

namespace Window

open List

variable {α : Type u}

/-- So many elements from `start` on. -/
def window (start length : Nat) (l : List α) : List α := (l.drop start).take length

/-- New elements over those from `start` on. -/
def put (start : Nat) (new l : List α) : List α := l.take start ++ (new ++ l.drop (start + new.length))

/-- Put new elements over those from `start` on, when there are as many. -/
def patch (start : Nat) (new l : List α) : Option (List α) :=
  if start + new.length ≤ l.length then some (put start new l) else none

/-- Elements are put where as many are, and the rest stays. -/
@[simp] theorem patch_eq_some {start : Nat} {new l m : List α} :
    patch start new l = some m ↔ start + new.length ≤ l.length ∧ put start new l = m := by
  unfold patch
  split <;> simp [*]

/-- Putting elements keeps the length. -/
theorem length_of_patch {start : Nat} {new l m : List α} (h : patch start new l = some m) : m.length = l.length := by
  obtain ⟨hle, rfl⟩ := patch_eq_some.1 h
  simp only [put, length_append, length_take, length_drop]
  omega

/-- An element behind a put is the new one in the window and the old one outside it. -/
theorem getElem?_of_patch {start : Nat} {new l m : List α} (h : patch start new l = some m) (i : Nat) :
    m[i]? = if start ≤ i ∧ i < start + new.length then new[i - start]? else l[i]? := by
  obtain ⟨hle, rfl⟩ := patch_eq_some.1 h
  have htake : (l.take start).length = start := by
    rw [length_take]
    omega
  unfold put
  by_cases hlt : i < start
  · rw [getElem?_append_left (by omega), getElem?_take, if_pos hlt, if_neg (by omega)]
  · rw [getElem?_append_right (by omega), htake]
    by_cases hin : i < start + new.length
    · rw [getElem?_append_left (by omega), if_pos ⟨by omega, hin⟩]
    · rw [getElem?_append_right (by omega), getElem?_drop, if_neg (by omega)]
      congr 1
      omega

/-- An element of a window. -/
theorem getElem?_window (start length : Nat) (l : List α) (i : Nat) :
    (window start length l)[i]? = if i < length then l[start + i]? else none := by
  unfold window
  rw [getElem?_take]
  split <;> simp [*]

/-- The window where elements were put shows them. -/
theorem window_of_patch {start : Nat} {new l m : List α} (h : patch start new l = some m) :
    window start new.length m = new := by
  refine ext_getElem? fun i => ?_
  rw [getElem?_window, getElem?_of_patch h]
  by_cases hi : i < new.length
  · rw [if_pos hi, if_pos (by omega)]
    congr 1
    omega
  · rw [if_neg hi, getElem?_eq_none (by omega)]

/-- A window apart from where elements were put shows what it showed. -/
theorem window_of_patch_apart {start : Nat} {new l m : List α} (h : patch start new l = some m) {start' length : Nat}
    (hapart : start' + length ≤ start ∨ start + new.length ≤ start') : window start' length m = window start' length l := by
  refine ext_getElem? fun i => ?_
  rw [getElem?_window, getElem?_window, getElem?_of_patch h]
  by_cases hi : i < length
  · rw [if_pos hi, if_pos hi, if_neg (by omega)]
  · rw [if_neg hi, if_neg hi]

/-- A shorter window from the same position. -/
theorem take_window {start length : Nat} {l : List α} {n : Nat} (h : n ≤ length) :
    (window start length l).take n = window start n l := by
  unfold window
  rw [take_take, Nat.min_eq_left h]

end Window
