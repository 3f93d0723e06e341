import Mathlib.Data.Set.Function

/-!
# A slot for one thing

A slot holds at most one thing. What is put into it replaces what was there; what is taken is what is there; and it may be cleared.
So everything that is taken was put there before, was not replaced since, and is taken once.
-/

universe u

namespace Slot

variable {α : Type u}

/-- What happens to a slot. -/
inductive Event (α : Type u) where
  | put (a : α)
  | take (a : α)
  | clear
  | idle

/-- What happened to an empty slot, and what it holds then. -/
inductive Run : List (Event α) → Option α → Prop where
  | start : Run [] none
  | put {past : List (Event α)} {held : Option α} (h : Run past held) (a : α) : Run (past ++ [.put a]) (some a)
  | take {past : List (Event α)} {a : α} (h : Run past (some a)) : Run (past ++ [.take a]) none
  | clear {past : List (Event α)} {held : Option α} (h : Run past held) : Run (past ++ [.clear]) none
  | idle {past : List (Event α)} {held : Option α} (h : Run past held) : Run (past ++ [.idle]) held

/-- An event of a history with one event more is an old one, or the last. -/
theorem getElem?_concat {past : List (Event α)} {last event : Event α} {i : Nat}
    (h : (past ++ [last])[i]? = some event) : past[i]? = some event ∧ i < past.length ∨ i = past.length ∧ event = last := by
  by_cases hi : i < past.length
  · rw [List.getElem?_append_left hi] at h
    exact .inl ⟨h, hi⟩
  · rw [List.getElem?_append_right (Nat.le_of_not_lt hi)] at h
    obtain ⟨hlt, hget⟩ := List.getElem?_eq_some_iff.1 h
    have hzero : i - past.length = 0 := by simpa using hlt
    refine .inr ⟨by omega, ?_⟩
    simpa [hzero] using h.symm

/-- What a slot holds was put there, and nothing happened to it since. -/
theorem Run.held {past : List (Event α)} {a : α} (h : Run past (some a)) :
    ∃ i, past[i]? = some (.put a) ∧ ∀ k, i < k → k < past.length → past[k]? = some .idle := by
  generalize hheld : some a = held at h
  induction h with
  | start => cases hheld
  | @put past _ h b ih =>
    cases hheld
    refine ⟨past.length, by simp, fun k hlt hle => ?_⟩
    rw [List.length_append, List.length_singleton] at hle
    omega
  | take h ih => cases hheld
  | clear h ih => cases hheld
  | @idle past _ h ih =>
    obtain ⟨i, hi, hidle⟩ := ih hheld
    have hlt : i < past.length := (List.getElem?_eq_some_iff.1 hi).1
    refine ⟨i, by rw [List.getElem?_append_left hlt, hi], fun k hik hk => ?_⟩
    rw [List.length_append, List.length_singleton] at hk
    by_cases hkl : k < past.length
    · rw [List.getElem?_append_left hkl]
      exact hidle k hik hkl
    · obtain rfl : k = past.length := by omega
      simp

/-- What is taken was put there before, and nothing happened to it in between. -/
theorem Run.taken {past : List (Event α)} {held : Option α} (h : Run past held) {j : Nat} {a : α}
    (hj : past[j]? = some (.take a)) :
    ∃ i < j, past[i]? = some (.put a) ∧ ∀ k, i < k → k < j → past[k]? = some .idle := by
  -- a take that is not the last event was one before it
  have hold {past : List (Event α)} {last : Event α} (hj : past[j]? = some (.take a))
      (ih : past[j]? = some (.take a) → ∃ i < j, past[i]? = some (.put a) ∧ ∀ k, i < k → k < j → past[k]? = some .idle) :
      ∃ i < j, (past ++ [last])[i]? = some (.put a) ∧ ∀ k, i < k → k < j → (past ++ [last])[k]? = some .idle := by
    have hlt : j < past.length := (List.getElem?_eq_some_iff.1 hj).1
    obtain ⟨i, hij, hi, hidle⟩ := ih hj
    refine ⟨i, hij, by rw [List.getElem?_append_left (by omega), hi], fun k hik hkj => ?_⟩
    rw [List.getElem?_append_left (by omega)]
    exact hidle k hik hkj
  induction h with
  | start => cases hj
  | put h b ih =>
    rcases getElem?_concat hj with ⟨hj, -⟩ | ⟨-, hlast⟩
    · exact hold hj ih
    · cases hlast
  | @take past b h ih =>
    rcases getElem?_concat hj with ⟨hj, -⟩ | ⟨rfl, hlast⟩
    · exact hold hj ih
    · cases hlast
      obtain ⟨i, hi, hidle⟩ := h.held
      have hlt : i < past.length := (List.getElem?_eq_some_iff.1 hi).1
      refine ⟨i, hlt, by rw [List.getElem?_append_left hlt, hi], fun k hik hkj => ?_⟩
      rw [List.getElem?_append_left hkj]
      exact hidle k hik hkj
  | clear h ih =>
    rcases getElem?_concat hj with ⟨hj, -⟩ | ⟨-, hlast⟩
    · exact hold hj ih
    · cases hlast
  | idle h ih =>
    rcases getElem?_concat hj with ⟨hj, -⟩ | ⟨-, hlast⟩
    · exact hold hj ih
    · cases hlast

/-- Everything that is taken is matched to a put of its own. -/
theorem Run.matching {past : List (Event α)} {held : Option α} (h : Run past held) :
    ∃ f : Nat → Nat, Set.InjOn f {j : Nat | ∃ a, past[j]? = some (Event.take a)} ∧
      ∀ (j : Nat) (a : α), past[j]? = some (Event.take a) →
      f j < j ∧ past[f j]? = some (Event.put a) ∧ ∀ k, f j < k → k < j → past[k]? = some Event.idle := by
  classical
  have hchoose : ∀ j : Nat, ∃ i : Nat, ∀ a : α, past[j]? = some (Event.take a) →
      i < j ∧ past[i]? = some (Event.put a) ∧ ∀ k, i < k → k < j → past[k]? = some Event.idle := by
    intro j
    by_cases hj : ∃ a, past[j]? = some (Event.take a)
    · obtain ⟨a, hj⟩ := hj
      obtain ⟨i, hij, hi, hidle⟩ := h.taken hj
      refine ⟨i, fun b hb => ?_⟩
      rw [hj] at hb
      cases hb
      exact ⟨hij, hi, hidle⟩
    · exact ⟨0, fun a ha => absurd ⟨a, ha⟩ hj⟩
  choose f hf using hchoose
  refine ⟨f, ?_, hf⟩
  -- of two takes matched to one put, the earlier one would have happened in between
  have hne : ∀ (j j' : Nat) (a a' : α), past[j]? = some (Event.take a) → past[j']? = some (Event.take a') → j < j' → f j ≠ f j' := by
    intro j j' a a' hj hj' hlt heq
    have hidle := (hf j' a' hj').2.2 j (heq ▸ (hf j a hj).1) hlt
    rw [hj] at hidle
    cases hidle
  rintro j ⟨a, hj⟩ j' ⟨a', hj'⟩ heq
  rcases Nat.lt_trichotomy j j' with hlt | rfl | hgt
  · exact absurd heq (hne j j' a a' hj hj' hlt)
  · rfl
  · exact absurd heq.symm (hne j' j a' a hj' hj hgt)

end Slot
