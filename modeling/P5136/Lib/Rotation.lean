import Mathlib.Data.List.Perm.Subperm

/-!
# Drawing in cycles

Elements of a pool are drawn one at a time, none twice before all were drawn; then the draws start over. However each draw turns
out, the elements drawn split into cycles, each an arrangement of the whole pool, but for the last that is still going on.
-/

universe u

namespace Rotation

variable {α : Type u} {pool used xs last : List α}

/-- The elements that count as drawn: none once all were. -/
def counted (pool used : List α) : List α := if pool.length ≤ used.length then [] else used

/-- Elements that are drawn from a pool in turn, after those used before; at last those used since the draws started over. -/
inductive Draws (pool : List α) : List α → List α → List α → Prop where
  | nil (used : List α) : Draws pool used [] used
  | cons {used xs last : List α} {x : α} : x ∈ pool → x ∉ counted pool used → Draws pool (counted pool used ++ [x]) xs last →
      Draws pool used (x :: xs) last

theorem counted_subset (h : used ⊆ pool) : counted pool used ⊆ pool := by
  unfold counted
  split
  · exact List.nil_subset _
  · exact h

theorem nodup_counted (h : used.Nodup) : (counted pool used).Nodup := by
  unfold counted
  split
  · exact List.nodup_nil
  · exact h

variable (used) in
/-- Elements are left to draw, as long as the pool has any. -/
theorem exists_notMem_counted (hpool : pool.Nodup) (hne : pool ≠ []) : ∃ x ∈ pool, x ∉ counted pool used := by
  by_contra hall
  push Not at hall
  have hlength := (List.subperm_of_subset hpool hall).length_le
  unfold counted at hlength
  split at hlength
  · exact hne (List.length_eq_zero_iff.1 (Nat.le_zero.1 hlength))
  · omega

/-- What is drawn next is used from then on, and once. -/
theorem nodup_counted_concat {x : α} (h : used.Nodup) (hx : x ∉ counted pool used) : (counted pool used ++ [x]).Nodup := by
  rw [List.nodup_append]
  refine ⟨nodup_counted h, by simp, ?_⟩
  intro y hy z hz hyz
  rw [List.mem_singleton] at hz
  exact hx (hz ▸ hyz ▸ hy)

/-- The elements used before, and then those drawn, are whole cycles and a part of one. -/
theorem Draws.cycles (h : Draws pool used xs last) (hused : used.Nodup) (hsub : used ⊆ pool) :
    ∃ cycles : List (List α), used ++ xs = cycles.flatten ++ last ∧ (∀ cycle ∈ cycles, cycle.Perm pool) ∧ last.Nodup ∧
      last ⊆ pool := by
  induction h with
  | nil used => exact ⟨[], by simp, by simp, hused, hsub⟩
  | @cons used xs last x hx hnot _ ih =>
    have hnext : counted pool used ++ [x] ⊆ pool := by
      intro y hy
      rcases List.mem_append.1 hy with hy | hy
      · exact counted_subset hsub hy
      · rw [List.mem_singleton] at hy
        exact hy ▸ hx
    obtain ⟨cycles, hsplit, hcycles, hlast, hlastsub⟩ := ih (nodup_counted_concat hused hnot) hnext
    by_cases hfull : pool.length ≤ used.length
    · have hperm : used.Perm pool := (List.subperm_of_subset hused hsub).perm_of_length_le hfull
      rw [counted, if_pos hfull] at hsplit
      refine ⟨used :: cycles, ?_, ?_, hlast, hlastsub⟩
      · rw [List.flatten_cons, List.append_assoc, ← hsplit]
        rfl
      · intro cycle hcycle
        rcases List.mem_cons.1 hcycle with rfl | hcycle
        · exact hperm
        · exact hcycles cycle hcycle
    · rw [counted, if_neg hfull] at hsplit
      refine ⟨cycles, ?_, hcycles, hlast, hlastsub⟩
      rw [← hsplit, List.append_assoc]
      rfl

end Rotation
