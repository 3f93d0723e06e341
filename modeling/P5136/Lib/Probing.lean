import Mathlib.Algebra.Ring.Int.Defs
import Mathlib.Algebra.Ring.Nat
import Mathlib.Data.Finset.Card

/-!
# Probing for a free candidate

A search steps from one candidate to the next until it meets one that is free, and gives up after so many probes. Each candidate
reads a few cells, and is free when none of these is used. When no used cell is read by two of the candidates, one more probe
than there are used cells is enough.
-/

universe u v

namespace Probing

variable {α : Type u} {β : Type v}

/-- The first free candidate among so many probes. -/
def search (next : α → α) (free : α → Bool) : (probes : Nat) → (candidate : α) → Option α
  | 0, _ => none
  | probes + 1, candidate => if free candidate then some candidate else search next free probes (next candidate)

/-- What a search finds is free, and one of the probes. -/
theorem search_eq_some {next : α → α} {free : α → Bool} {probes : Nat} {start found : α}
    (h : search next free probes start = some found) : free found = true ∧ ∃ k < probes, next^[k] start = found := by
  induction probes generalizing start with
  | zero => simp [search] at h
  | succ probes ih =>
    rw [search] at h
    split at h
    · rename_i hfree
      cases h
      exact ⟨hfree, 0, Nat.succ_pos probes, rfl⟩
    · obtain ⟨hfree, k, hk, hfound⟩ := ih h
      exact ⟨hfree, k + 1, Nat.succ_lt_succ hk, hfound⟩

/-- A search with a free candidate among its probes finds one. -/
theorem search_isSome {next : α → α} {free : α → Bool} {probes k : Nat} {start : α} (hk : k < probes)
    (hfree : free (next^[k] start) = true) : (search next free probes start).isSome = true := by
  induction probes generalizing start k with
  | zero => omega
  | succ probes ih =>
    rw [search]
    split
    · rfl
    · rename_i hnot
      cases k with
      | zero => exact absurd hfree hnot
      | succ k => exact ih (Nat.lt_of_succ_lt_succ hk) hfree

/-- Of the candidates up to a distance, no two read the same cell. -/
def Separated (next : α → α) (reads : List (α → β)) (distance : Nat) : Prop :=
  ∀ start i j, i < j → j ≤ distance → ∀ f ∈ reads, ∀ g ∈ reads, f (next^[i] start) ≠ g (next^[j] start)

/-- Fewer candidates are separated when more are. -/
theorem Separated.mono {next : α → α} {reads : List (α → β)} {m n : Nat} (h : Separated next reads n) (hmn : m ≤ n) :
    Separated next reads m :=
  fun start i j hij hj => h start i j hij (hj.trans hmn)

/-- Candidates that read fewer cells are separated when those that read more are. -/
theorem Separated.subset {next : α → α} {few many : List (α → β)} {distance : Nat} (h : Separated next many distance)
    (hsub : few ⊆ many) : Separated next few distance :=
  fun start i j hij hj f hf g hg => h start i j hij hj f (hsub hf) g (hsub hg)

/-- One of the candidates up to the number of used cells reads no used cell. -/
theorem Separated.exists_free [DecidableEq β] {next : α → α} {reads : List (α → β)} {used : Finset β}
    (h : Separated next reads used.card) (start : α) : ∃ k ≤ used.card, ∀ f ∈ reads, f (next^[k] start) ∉ used := by
  by_contra hnone
  have hblocked : ∀ k ∈ Finset.range (used.card + 1), ∃ u ∈ used, ∃ f ∈ reads, f (next^[k] start) = u := by
    intro k hk
    by_contra hfree
    refine hnone ⟨k, Nat.lt_succ_iff.1 (Finset.mem_range.1 hk), fun f hf hu => hfree ⟨_, hu, f, hf, rfl⟩⟩
  have : Nonempty β := ⟨(hblocked 0 (by simp)).choose⟩
  choose! blocker hmem hreads using hblocked
  -- There is one more probe than there are used cells, so one cell blocks two of them.
  have hcard : used.card < (Finset.range (used.card + 1)).card := by simp
  obtain ⟨i, hi, j, hj, hne, hsame⟩ := Finset.exists_ne_map_eq_of_card_lt_of_maps_to hcard hmem
  obtain ⟨f, hf, hfi⟩ := hreads i hi
  obtain ⟨g, hg, hgj⟩ := hreads j hj
  rw [Finset.mem_range] at hi hj
  rcases Nat.lt_or_gt_of_ne hne with hlt | hlt
  · exact h start i j hlt (by omega) f hf g hg (by rw [hfi, hgj, hsame])
  · exact h start j i hlt (by omega) g hg f hf (by rw [hfi, hgj, hsame])

/-- A search over separated candidates that makes one more probe than there are used cells finds one that reads no used cell. -/
theorem search_finds [DecidableEq β] {next : α → α} {free : α → Bool} {reads : List (α → β)} {used : Finset β}
    (hfree : ∀ a, free a = true ↔ ∀ f ∈ reads, f a ∉ used) (h : Separated next reads used.card) (start : α) :
    ∃ found, search next free (used.card + 1) start = some found ∧ (∀ f ∈ reads, f found ∉ used) ∧
      ∃ k ≤ used.card, next^[k] start = found := by
  obtain ⟨k, hk, hcells⟩ := h.exists_free start
  have hsome := search_isSome (Nat.lt_succ_of_le hk) ((hfree _).2 hcells)
  obtain ⟨found, hfound⟩ := Option.isSome_iff_exists.1 hsome
  obtain ⟨hfree', j, hj, hprobe⟩ := search_eq_some hfound
  exact ⟨found, hfound, (hfree found).1 hfree', j, Nat.lt_succ_iff.1 hj, hprobe⟩

end Probing
