import Mathlib.Data.Fintype.EquivFin

/-!
# Placements

Places, each free or taken by an item, such that every item of a set has exactly one place and no other item has any: a bijection
between the taken places and the items. An item may be put into a free place, taken out of its place and moved to a free one, and
when there are as many places as items could be, a place is free exactly when an item is missing.
-/

universe u v

/-- Each item of a set has exactly one place, and nothing else has any. -/
structure Placement {S : Type u} {I : Type v} (place : S → Option I) (items : I → Prop) : Prop where
  sound : ∀ s i, place s = some i → items i
  total : ∀ i, items i → ∃ s, place s = some i
  unique : ∀ s t i, place s = some i → place t = some i → s = t

namespace Placement

open Function

variable {S : Type u} {I : Type v} {place : S → Option I} {items items' : I → Prop} {s t : S} {i : I}

/-- Nothing is placed anywhere. -/
theorem empty : Placement (fun _ : S => (none : Option I)) (fun _ => False) where
  sound := by
    rintro s i ⟨⟩
  total := fun _ h => h.elim
  unique := by
    rintro s t i ⟨⟩

/-- The same items. -/
theorem of_iff (h : Placement place items) (hitems : ∀ i, items' i ↔ items i) : Placement place items' where
  sound := fun s i hs => (hitems i).2 (h.sound s i hs)
  total := fun i hi => h.total i ((hitems i).1 hi)
  unique := h.unique

/-- An item that is not placed has no place. -/
theorem free_of_missing (h : Placement place items) (hi : ¬items i) (s : S) : place s ≠ some i :=
  fun hs => hi (h.sound s i hs)

section Updates

variable [DecidableEq S]

/-- An item is put into a free place. -/
theorem put (h : Placement place items) (hs : place s = none) (hi : ¬items i) :
    Placement (update place s (some i)) (fun j => j = i ∨ items j) where
  sound := by
    intro t j ht
    rw [update_apply] at ht
    split at ht
    · exact .inl (Option.some.inj ht).symm
    · exact .inr (h.sound t j ht)
  total := by
    rintro j (rfl | hj)
    · exact ⟨s, update_self ..⟩
    · obtain ⟨t, ht⟩ := h.total j hj
      refine ⟨t, ?_⟩
      rw [update_apply, if_neg, ht]
      rintro rfl
      rw [hs] at ht
      cases ht
  unique := by
    intro t t' j ht ht'
    rw [update_apply] at ht ht'
    split at ht
    · rename_i hts
      obtain rfl := Option.some.inj ht
      split at ht'
      · rename_i hts'
        exact hts.trans hts'.symm
      · exact absurd ht' (h.free_of_missing hi t')
    · split at ht'
      · obtain rfl := Option.some.inj ht'
        exact absurd ht (h.free_of_missing hi t)
      · exact h.unique t t' j ht ht'

/-- An item is taken out of its place. -/
theorem take (h : Placement place items) (hs : place s = some i) :
    Placement (update place s none) (fun j => items j ∧ j ≠ i) where
  sound := by
    intro t j ht
    rw [update_apply] at ht
    split at ht
    · cases ht
    · rename_i hts
      refine ⟨h.sound t j ht, ?_⟩
      rintro rfl
      exact hts (h.unique t s j ht hs)
  total := by
    rintro j ⟨hj, hji⟩
    obtain ⟨t, ht⟩ := h.total j hj
    refine ⟨t, ?_⟩
    rw [update_apply, if_neg, ht]
    rintro rfl
    exact hji (Option.some.inj (ht.symm.trans hs))
  unique := by
    intro t t' j ht ht'
    rw [update_apply] at ht ht'
    split at ht
    · cases ht
    · split at ht'
      · cases ht'
      · exact h.unique t t' j ht ht'

/-- An item is moved to a free place. -/
theorem move (h : Placement place items) (hs : place s = some i) (ht : place t = none) :
    Placement (update (update place s none) t (some i)) items := by
  have htaken := h.take hs
  have hfree : update place s none t = none := by
    rw [update_apply]
    split
    · rfl
    · exact ht
  refine (htaken.put hfree fun hi => hi.2 rfl).of_iff fun j => ?_
  constructor
  · intro hj
    by_cases hji : j = i
    · exact .inl hji
    · exact .inr ⟨hj, hji⟩
  · rintro (rfl | ⟨hj, -⟩)
    · exact h.sound s j hs
    · exact hj

end Updates

section Finite

variable [Fintype S] [Fintype I]

/-- With as many places as items could be, a place is free when an item is missing. -/
theorem exists_free (h : Placement place items) (hcard : Fintype.card S = Fintype.card I) (hi : ¬items i) :
    ∃ s, place s = none := by
  by_contra hfull
  simp only [not_exists] at hfull
  choose item hitem using fun s => Option.ne_none_iff_exists'.1 (hfull s)
  have hinj : Injective item := fun s t hst => h.unique s t _ (hitem s) (hst ▸ hitem t)
  obtain ⟨s, hs⟩ := ((Fintype.bijective_iff_injective_and_card item).2 ⟨hinj, hcard⟩).surjective i
  exact hi (h.sound s i (hs ▸ hitem s))

end Finite

end Placement
