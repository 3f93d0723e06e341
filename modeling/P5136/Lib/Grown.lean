import Mathlib.Data.Finset.Card

/-!
# Taking what is not used

Keys are taken out of those that are not used, one after the other, and each is used from then on. What is taken in a row is taken
once each, and as many keys are used more.
-/

universe u

/-- Some keys are taken: each once, and none that was used. -/
structure Grown {α : Type u} (taken : List α) (used used' : Finset α) : Prop where
  nodup : taken.Nodup
  fresh : ∀ key ∈ taken, key ∉ used
  mem : ∀ key, key ∈ used' ↔ key ∈ used ∨ key ∈ taken

namespace Grown

variable {α : Type u} {taken taken' : List α} {used used' used'' : Finset α}

/-- Nothing is taken. -/
theorem refl (used : Finset α) : Grown [] used used := ⟨List.nodup_nil, by simp, by simp⟩

/-- A key that is not used is taken. -/
theorem single [DecidableEq α] {key : α} (h : key ∉ used) : Grown [key] used (insert key used) where
  nodup := List.nodup_singleton key
  fresh := by
    intro other hother
    obtain rfl := List.mem_singleton.1 hother
    exact h
  mem := by
    intro other
    rw [Finset.mem_insert, List.mem_singleton, or_comm]

/-- Keys are taken, and then others. -/
theorem append (h : Grown taken used used') (h' : Grown taken' used' used'') : Grown (taken ++ taken') used used'' where
  nodup := by
    refine h.nodup.append h'.nodup fun key hkey hkey' => ?_
    exact h'.fresh key hkey' ((h.mem key).2 (.inr hkey))
  fresh := by
    intro key hkey hused
    rcases List.mem_append.1 hkey with hfirst | hsecond
    · exact h.fresh key hfirst hused
    · exact h'.fresh key hsecond ((h.mem key).2 (.inl hused))
  mem := by
    intro key
    rw [h'.mem, h.mem, List.mem_append, or_assoc]

/-- As many keys are used more as are taken. -/
theorem card [DecidableEq α] (h : Grown taken used used') : used'.card = used.card + taken.length := by
  have hunion : used' = used ∪ taken.toFinset := by
    ext key
    rw [h.mem, Finset.mem_union, List.mem_toFinset]
  have hdisjoint : Disjoint used taken.toFinset := by
    refine Finset.disjoint_left.2 fun key hused htaken => ?_
    exact h.fresh key (List.mem_toFinset.1 htaken) hused
  rw [hunion, Finset.card_union_of_disjoint hdisjoint, List.toFinset_card_of_nodup h.nodup]

end Grown
