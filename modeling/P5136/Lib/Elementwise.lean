import Mathlib.Data.List.Forall2

/-!
# Lists related element by element

What two lists share when their elements are related one by one, in order. Two lists of one length may agree except at a single
position: what becomes of the difference when both are cut at the same place.
-/

universe u

namespace Elementwise

variable {α β γ δ : Type u} {R : α → β → Prop}

/-- Relations compose element by element. -/
theorem comp {S : β → γ → Prop} {T : α → γ → Prop} (hRST : ∀ a b c, R a b → S b c → T a c) {l : List α} {m : List β}
    {n : List γ} (hR : List.Forall₂ R l m) (hS : List.Forall₂ S m n) : List.Forall₂ T l n := by
  induction hR generalizing n with
  | nil =>
    cases hS
    exact .nil
  | cons h _ ih =>
    cases hS with
    | cons h' hS => exact .cons (hRST _ _ _ h h') (ih hS)

/-- Functions that agree on related elements have the same values on the lists. -/
theorem map_eq {f : α → δ} {g : β → δ} (hfg : ∀ a b, R a b → f a = g b) {l : List α} {m : List β}
    (h : List.Forall₂ R l m) : l.map f = m.map g := by
  induction h with
  | nil => rfl
  | cons h _ ih => rw [List.map_cons, List.map_cons, ih, hfg _ _ h]

/-- An element on the left is related to one on the right. -/
theorem exists_right {l : List α} {m : List β} (h : List.Forall₂ R l m) {a : α} (ha : a ∈ l) : ∃ b ∈ m, R a b := by
  induction h with
  | nil => cases ha
  | cons hab _ ih =>
    rcases List.mem_cons.1 ha with rfl | ha
    · exact ⟨_, List.mem_cons_self, hab⟩
    · obtain ⟨b, hb, hR⟩ := ih ha
      exact ⟨b, List.mem_cons_of_mem _ hb, hR⟩

/-- An element on the right is related to one on the left. -/
theorem exists_left {l : List α} {m : List β} (h : List.Forall₂ R l m) {b : β} (hb : b ∈ m) : ∃ a ∈ l, R a b := by
  induction h with
  | nil => cases hb
  | cons hab _ ih =>
    rcases List.mem_cons.1 hb with rfl | hb
    · exact ⟨_, List.mem_cons_self, hab⟩
    · obtain ⟨a, ha, hR⟩ := ih hb
      exact ⟨a, List.mem_cons_of_mem _ ha, hR⟩

end Elementwise

/-! ## Lists that differ at one position -/

/-- The lists agree except at one position, where they differ. -/
inductive OneOff {α : Type u} : List α → List α → Prop
  | here {a b : α} (l : List α) : a ≠ b → OneOff (a :: l) (b :: l)
  | later (a : α) {l m : List α} : OneOff l m → OneOff (a :: l) (a :: m)

namespace OneOff

variable {α : Type u} {l m : List α}

/-- Lists that differ at one position are as long as each other. -/
theorem length_eq (h : OneOff l m) : l.length = m.length := by
  induction h with
  | here => rfl
  | later a _ ih => simp [ih]

/-- They are not equal. -/
theorem ne (h : OneOff l m) : l ≠ m := by
  induction h with
  | here l hab => exact fun h => hab (List.cons.inj h).1
  | later a _ ih => exact fun h => ih (List.cons.inj h).2

/-- Cut at one place, the lists differ at one position before it and agree behind it, or the other way round. -/
theorem split (h : OneOff l m) (n : Nat) :
    (OneOff (l.take n) (m.take n) ∧ l.drop n = m.drop n) ∨ (l.take n = m.take n ∧ OneOff (l.drop n) (m.drop n)) := by
  induction h generalizing n with
  | here l hab =>
    cases n with
    | zero => exact Or.inr ⟨rfl, here l hab⟩
    | succ n => exact Or.inl ⟨here _ hab, rfl⟩
  | later a h ih =>
    cases n with
    | zero => exact Or.inr ⟨rfl, later a h⟩
    | succ n =>
      rcases ih n with ⟨h1, h2⟩ | ⟨h1, h2⟩
      · exact Or.inl ⟨later a h1, h2⟩
      · exact Or.inr ⟨by simp [h1], h2⟩

/-- Setting one entry to another value. -/
theorem set {i : Nat} (hi : i < l.length) {b : α} (hb : l[i] ≠ b) : OneOff l (l.set i b) := by
  induction l generalizing i with
  | nil => simp at hi
  | cons a l ih =>
    cases i with
    | zero => exact here l hb
    | succ i => exact later a (ih (by simpa using hi) hb)

end OneOff
