import Mathlib.Data.List.Destutter
import Mathlib.Data.List.Sort

/-!
# Looking candidates up in the order of their keys

A list of candidates is looked up one after another, and the first one that is found decides. When the candidates are sorted by
their keys, it is the one with the least key that decides, and not the place in the list. Where a candidate must stand alone to
be chosen, the order plays no part.
-/

namespace FirstFound

open List

variable {α ρ : Type*} {f : α → Option ρ}

/-- Candidates that are found like the one before them can be left out. -/
theorem findSome?_destutter {R : α → α → Prop} [DecidableRel R] (h : ∀ a b, ¬R a b → f b = f a) (l : List α) :
    (l.destutter R).findSome? f = l.findSome? f := by
  cases l with
  | nil => rfl
  | cons a l =>
    rw [destutter_cons']
    induction l generalizing a with
    | nil => rfl
    | cons b l ih =>
      by_cases hab : R a b
      · rw [destutter'_cons_pos _ hab, findSome?_cons, findSome?_cons, ih b]
      · rw [destutter'_cons_neg _ hab, ih a, findSome?_cons, findSome?_cons, findSome?_cons, h a b hab]
        cases f a <;> rfl

/-- The element is the first of the list that is found. -/
def Earliest (f : α → Option ρ) (l : List α) (a : α) (r : ρ) : Prop :=
  ∃ before after, l = before ++ a :: after ∧ (∀ b ∈ before, f b = none) ∧ f a = some r

/-- What is found first is found at the first element that is found. -/
theorem findSome?_eq_some {l : List α} {r : ρ} : l.findSome? f = some r ↔ ∃ a, Earliest f l a r := by
  rw [findSome?_eq_some_iff]
  constructor
  · rintro ⟨before, a, after, rfl, ha, hbefore⟩
    exact ⟨a, before, after, rfl, hbefore, ha⟩
  · rintro ⟨a, before, after, rfl, hbefore, ha⟩
    exact ⟨before, a, after, rfl, ha, hbefore⟩

/-! ## Sorted candidates -/

section Sorted

variable {κ : Type*} [LinearOrder κ] {key : α → κ} [DecidableRel fun a b : α => key a ≤ key b]

/-- No element behind the first one that is found is both found and smaller. -/
def InOrder (key : α → κ) (f : α → Option ρ) (l : List α) : Prop :=
  ∀ before a after, l = before ++ a :: after → (∀ b ∈ before, f b = none) → (f a).isSome →
    ∀ b ∈ after, (f b).isSome → key a ≤ key b

/-- The first element that is found in a sorted list is a least one that is found. -/
theorem Earliest.least {l : List α} {a : α} {r : ρ} (h : Earliest f (l.insertionSort fun a b => key a ≤ key b) a r) :
    a ∈ l ∧ ∀ b ∈ l, (f b).isSome → key a ≤ key b := by
  have hsorted := pairwise_insertionSort (fun a b => key a ≤ key b) l
  have hmem (b : α) := (mem_insertionSort (fun a b => key a ≤ key b) : b ∈ _ ↔ b ∈ l)
  obtain ⟨before, after, hl, hbefore, -⟩ := h
  rw [hl, pairwise_append, pairwise_cons] at hsorted
  refine ⟨(hmem a).1 (by simp [hl]), fun b hb hfound => ?_⟩
  have hb := (hmem b).2 hb
  rw [hl, mem_append, mem_cons] at hb
  rcases hb with hb | rfl | hb
  · rw [hbefore b hb] at hfound
    exact absurd hfound (by simp)
  · exact le_rfl
  · exact hsorted.2.1.1 b hb

/-- In a sorted list the least element that is found decides. -/
theorem findSome?_insertionSort (hkey : ∀ a b, key a = key b → f a = f b) {l : List α} {r : ρ} :
    (l.insertionSort fun a b => key a ≤ key b).findSome? f = some r ↔
      ∃ a ∈ l, f a = some r ∧ ∀ b ∈ l, (f b).isSome → key a ≤ key b := by
  constructor
  · intro h
    obtain ⟨a, hearliest⟩ := findSome?_eq_some.1 h
    obtain ⟨hmem, hleast⟩ := hearliest.least
    obtain ⟨before, after, -, -, ha⟩ := hearliest
    exact ⟨a, hmem, ha, hleast⟩
  · rintro ⟨a, ha, hfound, hleast⟩
    cases hres : (l.insertionSort fun a b => key a ≤ key b).findSome? f with
    | none =>
      rw [findSome?_eq_none_iff] at hres
      rw [hres a ((mem_insertionSort _).2 ha)] at hfound
      exact absurd hfound (by simp)
    | some other =>
      obtain ⟨c, hearliest⟩ := findSome?_eq_some.1 hres
      obtain ⟨hmem, hleast'⟩ := hearliest.least
      obtain ⟨before, after, -, -, hc⟩ := hearliest
      -- both are least among what is found, so both have the same key
      have hle : key a = key c := le_antisymm (hleast c hmem (by simp [hc])) (hleast' a ha (by simp [hfound]))
      exact hc.symm.trans ((hkey c a hle.symm).trans hfound)

/-- The sorted list finds what the list finds first exactly when nothing smaller is found behind it. -/
theorem findSome?_insertionSort_iff (hkey : ∀ a b, key a = key b → f a = f b)
    (hinj : ∀ a b r, f a = some r → f b = some r → key a = key b) (l : List α) :
    (∀ a r, Earliest f l a r → (l.insertionSort fun a b => key a ≤ key b).findSome? f = some r) ↔ InOrder key f l := by
  constructor
  · intro h before a after hl hbefore ha b hb hfound
    obtain ⟨r, hr⟩ := Option.isSome_iff_exists.1 ha
    obtain ⟨c, -, hc, hleast⟩ := (findSome?_insertionSort hkey).1 (h a r ⟨before, after, hl, hbefore, hr⟩)
    rw [hinj a c r hr hc]
    exact hleast b (by simp [hl, hb]) hfound
  · rintro h a r ⟨before, after, hl, hbefore, ha⟩
    refine (findSome?_insertionSort hkey).2 ⟨a, by simp [hl], ha, fun b hb hfound => ?_⟩
    rw [hl, mem_append, mem_cons] at hb
    rcases hb with hb | rfl | hb
    · rw [hbefore b hb] at hfound
      exact absurd hfound (by simp)
    · exact le_rfl
    · exact h before a after hl hbefore (by simp [ha]) b hb hfound

end Sorted

/-! ## An element that stands alone -/

section Least

variable {π : Type*} [LinearOrder π] {p : α → π}

/-- The element stands before every other one of the list. -/
def StrictlyLeast (p : α → π) (l : List α) (a : α) : Prop := ∃ rest, l.Perm (a :: rest) ∧ ∀ b ∈ rest, p a < p b

/-- The order of the list plays no part. -/
theorem StrictlyLeast.perm {l l' : List α} (h : l.Perm l') {a : α} : StrictlyLeast p l a ↔ StrictlyLeast p l' a := by
  constructor
  · rintro ⟨rest, hl, hrest⟩
    exact ⟨rest, h.symm.trans hl, hrest⟩
  · rintro ⟨rest, hl, hrest⟩
    exact ⟨rest, h.trans hl, hrest⟩

/-- Where no element stands twice, the element is before every different one. -/
theorem strictlyLeast_iff_of_nodup {l : List α} (h : l.Nodup) {a : α} :
    StrictlyLeast p l a ↔ a ∈ l ∧ ∀ b ∈ l, b ≠ a → p a < p b := by
  constructor
  · rintro ⟨rest, hl, hrest⟩
    refine ⟨hl.mem_iff.2 mem_cons_self, fun b hb hne => ?_⟩
    rcases mem_cons.1 (hl.mem_iff.1 hb) with rfl | hb
    · exact absurd rfl hne
    · exact hrest b hb
  · rintro ⟨ha, hleast⟩
    obtain ⟨before, after, rfl⟩ := append_of_mem ha
    have hperm : (before ++ a :: after).Perm (a :: (before ++ after)) := perm_middle
    refine ⟨before ++ after, hperm, fun b hb => hleast b (hperm.mem_iff.2 (mem_cons_of_mem _ hb)) ?_⟩
    rintro rfl
    exact (nodup_cons.1 (hperm.nodup_iff.1 h)).1 hb

/-- The first element of a list with a least element in front is chosen when nothing else is as small as it. -/
theorem strictlyLeast_iff_head [BEq π] [LawfulBEq π] {first : α} {rest : List α} (h : ∀ b ∈ rest, p first ≤ p b) {a : α} :
    StrictlyLeast p (first :: rest) a ↔ ((first :: rest).filter fun b => p b == p first).length = 1 ∧ first = a := by
  have hcount : ((first :: rest).filter fun b => p b == p first).length = 1 ↔ ∀ b ∈ rest, p b ≠ p first := by
    rw [filter_cons_of_pos (by simp), length_cons, Nat.add_eq_right, length_eq_zero_iff,
      filter_eq_nil_iff]
    simp
  rw [hcount]
  constructor
  · rintro ⟨others, hperm, hothers⟩
    have hfirst : first = a := by
      rcases mem_cons.1 (hperm.mem_iff.1 mem_cons_self) with rfl | hmem
      · rfl
      · rcases mem_cons.1 (hperm.mem_iff.2 mem_cons_self) with rfl | ha
        · rfl
        · exact absurd (h a ha) (hothers first hmem).not_ge
    subst hfirst
    exact ⟨fun b hb => (hothers b ((perm_cons first).1 hperm |>.mem_iff.1 hb)).ne', rfl⟩
  · rintro ⟨hne, rfl⟩
    exact ⟨rest, Perm.refl _, fun b hb => lt_of_le_of_ne (h b hb) (hne b hb).symm⟩

/-- In a list sorted by keys that respect the order, the first element is chosen when nothing else is as small as it. -/
theorem strictlyLeast_iff_sorted [BEq π] [LawfulBEq π] {κ : Type*} [LinearOrder κ] {key : α → κ} (hkey : ∀ a b, key a ≤ key b → p a ≤ p b)
    {l sorted : List α} (hl : sorted = l.insertionSort fun a b => key a ≤ key b) {a : α} :
    (sorted.head?.bind fun first =>
      if (sorted.filter fun b => p b == p first).length = 1 then some first else none) = some a ↔ StrictlyLeast p l a := by
  have hperm : sorted.Perm l := hl ▸ perm_insertionSort _ l
  have hsorted : sorted.Pairwise fun a b => key a ≤ key b := hl ▸ pairwise_insertionSort _ l
  rw [← StrictlyLeast.perm hperm]
  clear hl hperm
  cases sorted with
  | nil =>
    refine ⟨fun h => absurd h (by simp), ?_⟩
    rintro ⟨rest, hnil, -⟩
    exact absurd hnil.nil_eq (by simp)
  | cons first rest =>
    rw [pairwise_cons] at hsorted
    rw [strictlyLeast_iff_head fun b hb => hkey first b (hsorted.1 b hb), head?_cons, Option.bind_some,
      Option.ite_none_right_eq_some, Option.some_inj]

end Least

end FirstFound
