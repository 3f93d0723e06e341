import Mathlib.Data.Fintype.Card

/-!
# Tables of slots

A table has a fixed number of slots, each free or taken by a key. A search for a key goes through the slots from the front and
ends at the slot of the key, at a free slot, or, when every slot is taken by another key, at the oldest one. A search that ends
at a free slot has not looked behind it.
-/

universe u v

namespace SlotTable

open List Function

variable {n : Nat} {κ : Type u} {α : Type v}

/-- Where a search ended. -/
inductive Found (n : Nat) where
  | known (slot : Fin n)
  | free (slot : Fin n)
  | oldest (slot : Fin n)
deriving DecidableEq

/-- The search among the slots that are left, with the oldest slot so far. -/
def searchFrom [DecidableEq κ] [LT α] [DecidableLT α] (key : Fin n → Option κ) (age : Fin n → α) (k : κ) :
    List (Fin n) → Fin n → Found n
  | [], oldest => .oldest oldest
  | slot :: rest, oldest =>
    if key slot = some k then .known slot
    else if key slot = none then .free slot
    else searchFrom key age k rest (if age slot < age oldest then slot else oldest)

/-- No two slots are taken by one key. -/
def Distinct (key : Fin n → Option κ) : Prop := ∀ i j k, key i = some k → key j = some k → i = j

/-- The slot of a key lies behind a free one. -/
def Behind (key : Fin n → Option κ) (k : κ) : Prop := ∃ i j, i < j ∧ key i = none ∧ key j = some k

/-- Every slot is taken, and none by this key. -/
def Full (key : Fin n → Option κ) (k : κ) : Prop := ∀ i, key i ≠ none ∧ key i ≠ some k

/-! ## Searches -/

section Search

variable [DecidableEq κ] [LinearOrder α] {key : Fin n → Option κ} {age : Fin n → α} {k : κ} {slots : List (Fin n)} {oldest i : Fin n}

/-- A search that ends at the slot of the key. -/
theorem known_of_searchFrom (h : searchFrom key age k slots oldest = .known i) : key i = some k := by
  induction slots generalizing oldest with
  | nil => cases h
  | cons slot rest ih =>
    rw [searchFrom] at h
    split at h
    · rename_i hkey
      cases h
      exact hkey
    · split at h
      · cases h
      · exact ih h

/-- A search that ends at a free slot met only slots of other keys before it. -/
theorem free_of_searchFrom (hsorted : slots.Pairwise (· < ·)) (h : searchFrom key age k slots oldest = .free i) :
    key i = none ∧ i ∈ slots ∧ ∀ j ∈ slots, j < i → key j ≠ some k := by
  induction slots generalizing oldest with
  | nil => cases h
  | cons slot rest ih =>
    obtain ⟨hbefore, hrest⟩ := pairwise_cons.1 hsorted
    rw [searchFrom] at h
    split at h
    · cases h
    · rename_i hother
      split at h
      · rename_i hfree
        cases h
        refine ⟨hfree, mem_cons_self, fun j hj hlt => ?_⟩
        rcases mem_cons.1 hj with rfl | hj
        · exact absurd hlt (lt_irrefl _)
        · exact absurd hlt (lt_asymm (hbefore j hj))
      · obtain ⟨hfree, hi, hothers⟩ := ih hrest h
        refine ⟨hfree, mem_cons_of_mem _ hi, fun j hj hlt => ?_⟩
        rcases mem_cons.1 hj with rfl | hj
        · exact hother
        · exact hothers j hj hlt

/-- A search that ends at the oldest slot met only slots of other keys. -/
theorem full_of_searchFrom (h : searchFrom key age k slots oldest = .oldest i) :
    ∀ j ∈ slots, key j ≠ none ∧ key j ≠ some k := by
  induction slots generalizing oldest with
  | nil => exact fun j hj => absurd hj not_mem_nil
  | cons slot rest ih =>
    rw [searchFrom] at h
    split at h
    · cases h
    · rename_i hother
      split at h
      · cases h
      · rename_i htaken
        intro j hj
        rcases mem_cons.1 hj with rfl | hj
        · exact ⟨htaken, hother⟩
        · exact ih h j hj

/-- No slot is older than the one such a search ends at, and those before it are younger. -/
theorem oldest_of_searchFrom (hsorted : slots.Pairwise (· < ·)) (hfirst : ∀ j ∈ slots, oldest ≤ j)
    (h : searchFrom key age k slots oldest = .oldest i) :
    age i ≤ age oldest ∧ (i ≠ oldest → age i < age oldest) ∧ ∀ j ∈ slots, age i ≤ age j ∧ (j < i → age i < age j) := by
  induction slots generalizing oldest with
  | nil =>
    cases h
    exact ⟨le_refl _, fun hne => absurd rfl hne, fun j hj => absurd hj not_mem_nil⟩
  | cons slot rest ih =>
    obtain ⟨hbefore, hrest⟩ := pairwise_cons.1 hsorted
    have hslot : oldest ≤ slot := hfirst slot mem_cons_self
    rw [searchFrom] at h
    split at h
    · cases h
    · split at h
      · cases h
      · split at h
        · -- the slot becomes the oldest one so far
          rename_i holder
          obtain ⟨hle, hlt, hall⟩ := ih hrest (fun j hj => (hbefore j hj).le) h
          refine ⟨hle.trans holder.le, fun _ => hle.trans_lt holder, fun j hj => ?_⟩
          rcases mem_cons.1 hj with rfl | hj
          · exact ⟨hle, fun hji => hlt hji.ne'⟩
          · exact hall j hj
        · rename_i hyounger
          obtain ⟨hle, hlt, hall⟩ := ih hrest (fun j hj => hslot.trans (hbefore j hj).le) h
          have hage : age oldest ≤ age slot := not_lt.1 hyounger
          refine ⟨hle, hlt, fun j hj => ?_⟩
          rcases mem_cons.1 hj with rfl | hj
          · exact ⟨hle.trans hage, fun hji => (hlt (hslot.trans_lt hji).ne').trans_le hage⟩
          · exact hall j hj

/-- A search of all slots meets the slot of a key that lies behind no free one. -/
theorem searchFrom_eq_known (hdistinct : Distinct key) (hbehind : ¬Behind key k) (hi : key i = some k) (oldest : Fin n) :
    searchFrom key age k (finRange n) oldest = .known i := by
  have hsorted := pairwise_lt_finRange n
  cases h : searchFrom key age k (finRange n) oldest with
  | known j => rw [hdistinct j i k (known_of_searchFrom h) hi]
  | free j =>
    obtain ⟨hfree, -, hothers⟩ := free_of_searchFrom hsorted h
    rcases lt_trichotomy i j with hlt | rfl | hlt
    · exact absurd hi (hothers i (mem_finRange i) hlt)
    · rw [hfree] at hi
      cases hi
    · exact absurd ⟨j, i, hlt, hfree, hi⟩ hbehind
  | oldest j => exact absurd hi (full_of_searchFrom h i (mem_finRange i)).2

/-- Such a search ends at a free slot only when no slot is taken by the key. -/
theorem untaken_of_free (hdistinct : Distinct key) (hbehind : ¬Behind key k)
    (h : searchFrom key age k (finRange n) oldest = .free i) (j : Fin n) : key j ≠ some k := by
  intro hj
  rw [searchFrom_eq_known hdistinct hbehind hj oldest] at h
  cases h

end Search

/-! ## Changes -/

/-- A key that no other slot is taken by may take a slot. -/
theorem Distinct.update {key : Fin n → Option κ} {k : κ} {i : Fin n} (h : Distinct key) (hk : ∀ j, j ≠ i → key j ≠ some k) :
    Distinct (update key i (some k)) := by
  intro a b l ha hb
  rw [update_apply] at ha hb
  split at ha
  · rename_i hai
    cases ha
    split at hb
    · rename_i hbi
      exact hai.trans hbi.symm
    · rename_i hbi
      exact absurd hb (hk b hbi)
  · rename_i hai
    split at hb
    · rename_i hbi
      cases hb
      exact absurd ha (hk a hai)
    · exact h a b l ha hb

/-- The number of marked slots. -/
def count (marked : Fin n → Bool) : Nat := (Finset.univ.filter fun i => marked i = true).card

/-- The slots number no more than there are. -/
theorem count_le (marked : Fin n → Bool) : count marked ≤ n := by
  have h := (Finset.univ.filter fun i => marked i = true).card_le_univ
  simpa [count] using h

/-- A marked slot counts. -/
theorem count_pos {marked : Fin n → Bool} {i : Fin n} (h : marked i = true) : 0 < count marked :=
  Finset.card_pos.2 ⟨i, Finset.mem_filter.2 ⟨Finset.mem_univ i, h⟩⟩

/-- No slot is marked. -/
theorem count_eq_zero {marked : Fin n → Bool} (h : ∀ i, marked i = false) : count marked = 0 := by
  refine Finset.card_eq_zero.2 (Finset.filter_eq_empty_iff.2 fun i _ hi => ?_)
  rw [h i] at hi
  cases hi

/-- The marks off one slot. -/
theorem count_erase (marked : Fin n → Bool) (i : Fin n) :
    count marked = count (update marked i false) + (marked i).toNat := by
  cases hi : marked i with
  | false => rw [← hi, update_eq_self, hi, Bool.toNat_false, Nat.add_zero]
  | true =>
    have hfilter : (Finset.univ.filter fun j => marked j = true) =
        insert i (Finset.univ.filter fun j => update marked i false j = true) := by
      ext j
      by_cases hj : j = i
      · subst hj
        simp [hi]
      · simp [hj]
    have hnot : i ∉ Finset.univ.filter fun j => update marked i false j = true := by
      simp
    rw [count, hfilter, Finset.card_insert_of_notMem hnot, Bool.toNat_true, count]

/-- Marking a slot, or taking its mark away, changes the number by that one. -/
theorem count_update (marked : Fin n → Bool) (i : Fin n) (mark : Bool) :
    count (update marked i mark) + (marked i).toNat = count marked + mark.toNat := by
  have hbefore := count_erase marked i
  have hafter := count_erase (update marked i mark) i
  rw [update_idem, update_self] at hafter
  omega

end SlotTable
