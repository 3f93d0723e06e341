import Mathlib.Data.List.Basic

/-!
# The first match of a list, changed or appended

A list in which the first element with a property is changed, or, when there is none, a new element is appended and changed.
-/

namespace FirstMatch

open List

variable {α : Type*} (p : α → Bool) (fresh : α) (f : α → α)

/-- The list with its first match changed, or with the new element, changed, at its end. -/
def upsert : List α → List α
  | [] => [f fresh]
  | a :: l => if p a then f a :: l else a :: upsert l

variable {p} {fresh} {f}

/-- Either a first match was changed, or none was found and one appended. -/
theorem upsert_cases (l : List α) :
    (∃ before a after, l = before ++ a :: after ∧ (∀ b ∈ before, p b = false) ∧ p a = true ∧ l.find? p = some a ∧
      upsert p fresh f l = before ++ f a :: after) ∨
    (∀ b ∈ l, p b = false) ∧ l.find? p = none ∧ upsert p fresh f l = l ++ [f fresh] := by
  induction l with
  | nil => exact .inr ⟨by simp, rfl, rfl⟩
  | cons a l ih =>
    rcases hp : p a with _ | _
    · have hne : ¬p a = true := by simp [hp]
      rcases ih with ⟨before, b, after, rfl, hbefore, hb, hfind, heq⟩ | ⟨hnone, hfind, heq⟩
      · refine .inl ⟨a :: before, b, after, rfl, ?_, hb, ?_, ?_⟩
        · simpa [hp] using hbefore
        · rw [find?_cons_of_neg hne, hfind]
        · rw [upsert, if_neg hne, heq, cons_append]
      · refine .inr ⟨by simpa [hp] using hnone, ?_, ?_⟩
        · rw [find?_cons_of_neg hne, hfind]
        · rw [upsert, if_neg hne, heq, cons_append]
    · refine .inl ⟨[], a, l, rfl, by simp, hp, find?_cons_of_pos hp, ?_⟩
      rw [upsert, if_pos hp, nil_append]

/-- A match behind elements that do not match is the first one. -/
theorem upsert_append {before : List α} (h : ∀ b ∈ before, p b = false) {a : α} (ha : p a = true) (after : List α) :
    upsert p fresh f (before ++ a :: after) = before ++ f a :: after := by
  induction before with
  | nil => rw [nil_append, upsert, if_pos ha, nil_append]
  | cons b before ih =>
    have hb : ¬p b = true := by simp [h b (mem_cons_self ..)]
    rw [cons_append, upsert, if_neg hb, ih fun c hc => h c (mem_cons_of_mem _ hc), cons_append]

/-- Where the change leaves the first match as it is, the list stays. -/
theorem upsert_of_fixed {a : α} {l : List α} (h : l.find? p = some a) (ha : f a = a) : upsert p fresh f l = l := by
  rcases (upsert_cases l : _ ∨ _ ∧ _ ∧ upsert p fresh f l = _) with ⟨before, b, after, rfl, -, -, hfind, heq⟩ | ⟨-, hfind, -⟩
  · obtain rfl : b = a := Option.some.inj (hfind.symm.trans h)
    rw [heq, ha]
  · exact absurd (hfind.symm.trans h) (by simp)

/-- When a changed element still matches and changing it again changes nothing, the second time changes nothing. -/
theorem upsert_upsert (hfresh : p (f fresh) = true) (hp : ∀ a, p a = true → p (f a) = true)
    (hf : ∀ a, p a = true ∨ a = fresh → f (f a) = f a) (l : List α) :
    upsert p fresh f (upsert p fresh f l) = upsert p fresh f l := by
  rcases (upsert_cases l : _ ∨ _ ∧ _ ∧ upsert p fresh f l = _) with ⟨before, a, after, rfl, hbefore, ha, -, heq⟩ | ⟨hnone, -, heq⟩
  · rw [heq, upsert_append hbefore (hp a ha), hf a (.inl ha)]
  · rw [heq, upsert_append hnone hfresh, hf fresh (.inr rfl)]

/-- The first match after a change is the changed element. -/
theorem find?_upsert (hfresh : p (f fresh) = true) (hp : ∀ a, p a = true → p (f a) = true) (l : List α) :
    (upsert p fresh f l).find? p = some (f ((l.find? p).getD fresh)) := by
  rcases (upsert_cases l : _ ∨ _ ∧ _ ∧ upsert p fresh f l = _) with ⟨before, a, after, rfl, hbefore, ha, hfind, heq⟩ |
    ⟨hnone, hfind, heq⟩
  · have hskip : before.find? p = none := find?_eq_none.2 fun b hb => by simp [hbefore b hb]
    rw [heq, hfind, find?_append, hskip, Option.none_or, find?_cons_of_pos (hp a ha), Option.getD_some]
  · rw [heq, find?_append, hfind, Option.none_or, find?_cons_of_pos hfresh, Option.getD_none]

/-- An element that does not match any other property is found by it as before. -/
theorem find?_upsert_of_disjoint {q : α → Bool} (hfresh : q (f fresh) = false) (hq : ∀ a, p a = true → q a = false)
    (hqf : ∀ a, p a = true → q (f a) = false) (l : List α) : (upsert p fresh f l).find? q = l.find? q := by
  rcases (upsert_cases l : _ ∨ _ ∧ _ ∧ upsert p fresh f l = _) with ⟨before, a, after, rfl, -, ha, -, heq⟩ | ⟨-, -, heq⟩
  · rw [heq, find?_append, find?_append, find?_cons_of_neg (by simp [hqf a ha]),
      find?_cons_of_neg (by simp [hq a ha])]
  · rw [heq, find?_append, find?_cons_of_neg (by simp [hfresh])]
    simp

end FirstMatch
