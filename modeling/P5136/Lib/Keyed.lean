import Mathlib.Data.List.Induction
import Mathlib.Data.List.Nodup

/-!
# Lists of records with keys

Records in a list, found by a key: the first record of a key is replaced or a new one is appended, a list is collected so that the
last record of each key stands at the place of the first, and what a list shows for a key is the records with that key.
-/

namespace Keyed

open List

variable {α κ : Type*} [DecidableEq κ] (key : α → κ)

/-- The first record of a key is replaced, or the new record is appended. -/
def put (k : κ) (b : α) : List α → List α
  | [] => [b]
  | a :: l => if key a = k then b :: l else a :: put k b l

/-- The first record of a key. -/
def lookup (k : κ) (l : List α) : Option α := l.find? (fun a => decide (key a = k))

/-- The last record of a key. -/
def lookupLast (k : κ) (l : List α) : Option α := lookup key k l.reverse

/-- The records of a key. -/
def shown (k : κ) (l : List α) : List α := l.filter (fun a => decide (key a = k))

/-- Records are put one after the other. -/
def collect (start l : List α) : List α := l.foldl (fun records a => put key (key a) a records) start

theorem shown_cons_of_eq {k : κ} {a : α} (ha : key a = k) (l : List α) : shown key k (a :: l) = a :: shown key k l :=
  filter_cons_of_pos (by simpa using ha)

theorem shown_cons_of_ne {k : κ} {a : α} (ha : key a ≠ k) (l : List α) : shown key k (a :: l) = shown key k l :=
  filter_cons_of_neg (by simpa using ha)

/-! ## Putting one record -/

theorem put_of_mem {k : κ} (b : α) {front : List α} {a : α} {back : List α} (hfront : ∀ x ∈ front, key x ≠ k)
    (ha : key a = k) : put key k b (front ++ a :: back) = front ++ b :: back := by
  induction front with
  | nil => simp [put, ha]
  | cons x front ih =>
    rw [cons_append, put, if_neg (hfront x (mem_cons_self ..)),
      ih (fun y hy => hfront y (mem_cons_of_mem _ hy))]
    rfl

theorem put_of_notMem {k : κ} (b : α) {l : List α} (h : ∀ x ∈ l, key x ≠ k) : put key k b l = l ++ [b] := by
  induction l with
  | nil => rfl
  | cons x l ih =>
    rw [put, if_neg (h x (mem_cons_self ..)), ih (fun y hy => h y (mem_cons_of_mem _ hy))]
    rfl

/-- A list has a first record of a key, or none. -/
theorem split_first (k : κ) (l : List α) :
    (∃ front a back, l = front ++ a :: back ∧ (∀ x ∈ front, key x ≠ k) ∧ key a = k) ∨ ∀ x ∈ l, key x ≠ k := by
  induction l with
  | nil => exact Or.inr (fun x hx => absurd hx (by simp))
  | cons x l ih =>
    by_cases hx : key x = k
    · exact Or.inl ⟨[], x, l, rfl, fun y hy => absurd hy (by simp), hx⟩
    · rcases ih with ⟨front, a, back, rfl, hfront, ha⟩ | hnone
      · refine Or.inl ⟨x :: front, a, back, rfl, ?_, ha⟩
        intro y hy
        rcases mem_cons.1 hy with rfl | hy
        · exact hx
        · exact hfront y hy
      · refine Or.inr ?_
        intro y hy
        rcases mem_cons.1 hy with rfl | hy
        · exact hx
        · exact hnone y hy

theorem mem_put {k : κ} {b x : α} {l : List α} (h : x ∈ put key k b l) : x = b ∨ x ∈ l := by
  rcases split_first key k l with ⟨front, a, back, rfl, hfront, ha⟩ | hnone
  · rw [put_of_mem key b hfront ha, mem_append, mem_cons] at h
    rcases h with h | h | h
    · exact Or.inr (mem_append_left _ h)
    · exact Or.inl h
    · exact Or.inr (mem_append_right _ (mem_cons_of_mem _ h))
  · rw [put_of_notMem key b hnone, mem_append, mem_singleton] at h
    exact h.symm

/-- The keys are those from before, and the new one when it was not among them. -/
theorem map_key_put {k : κ} {b : α} (hb : key b = k) (l : List α) :
    (put key k b l).map key = if k ∈ l.map key then l.map key else l.map key ++ [k] := by
  rcases split_first key k l with ⟨front, a, back, rfl, hfront, ha⟩ | hnone
  · rw [put_of_mem key b hfront ha, if_pos (mem_map.2 ⟨a, by simp, ha⟩)]
    simp [ha, hb]
  · rw [put_of_notMem key b hnone, if_neg]
    · simp [hb]
    · intro hmem
      obtain ⟨x, hx, hxk⟩ := mem_map.1 hmem
      exact hnone x hx hxk

/-- Putting a record adds at most one. -/
theorem length_put {k : κ} {b : α} (hb : key b = k) (l : List α) :
    (put key k b l).length = if k ∈ l.map key then l.length else l.length + 1 := by
  have h := congrArg length (map_key_put key hb l)
  rw [length_map] at h
  rw [h]
  split <;> simp

/-- Keys stay distinct. -/
theorem nodup_put {k : κ} {b : α} (hb : key b = k) {l : List α} (h : (l.map key).Nodup) :
    ((put key k b l).map key).Nodup := by
  rw [map_key_put key hb]
  by_cases hmem : k ∈ l.map key
  · rwa [if_pos hmem]
  · rw [if_neg hmem, nodup_append]
    refine ⟨h, nodup_singleton k, ?_⟩
    intro x hx y hy hxy
    rw [mem_singleton] at hy
    exact hmem (hy ▸ hxy ▸ hx)

/-- The records of other keys do not change. -/
theorem shown_put_of_ne {k k' : κ} {b : α} (hb : key b = k) (h : k' ≠ k) (l : List α) :
    shown key k' (put key k b l) = shown key k' l := by
  have hbk : ¬ key b = k' := fun heq => h (heq.symm.trans hb)
  rcases split_first key k l with ⟨front, a, back, rfl, hfront, ha⟩ | hnone
  · have hak : ¬ key a = k' := fun heq => h (heq.symm.trans ha)
    rw [put_of_mem key b hfront ha]
    simp [shown, hbk, hak]
  · rw [put_of_notMem key b hnone]
    simp [shown, hbk]

/-- A key that shows at most one record shows the one that is put. -/
theorem shown_put_self {k : κ} {b : α} (hb : key b = k) {l : List α} (h : (shown key k l).length ≤ 1) :
    shown key k (put key k b l) = [b] := by
  rcases split_first key k l with ⟨front, a, back, rfl, hfront, ha⟩ | hnone
  · have hfrontNil : front.filter (fun x => decide (key x = k)) = [] :=
      filter_eq_nil_iff.2 (fun x hx => by simpa using hfront x hx)
    rw [put_of_mem key b hfront ha]
    simp only [shown, filter_append, filter_cons, ha, hb, decide_true, if_true, hfrontNil, nil_append,
      length_cons] at h ⊢
    have hback : back.filter (fun x => decide (key x = k)) = [] := length_eq_zero_iff.1 (by omega)
    rw [hback]
  · have hnil : l.filter (fun x => decide (key x = k)) = [] :=
      filter_eq_nil_iff.2 (fun x hx => by simpa using hnone x hx)
    rw [put_of_notMem key b hnone]
    simp only [shown, filter_append, filter_cons, hb, decide_true, if_true, filter_nil, hnil,
      nil_append]

/-- What a key shows after a record is put depends on what it showed before. -/
theorem shown_put {k : κ} {b : α} (hb : key b = k) (l : List α) :
    shown key k (put key k b l) = put key k b (shown key k l) := by
  induction l with
  | nil => simp [put, shown, hb]
  | cons a l ih =>
    by_cases ha : key a = k
    · simp [put, shown, ha, hb]
    · rw [put, if_neg ha, shown_cons_of_ne key ha, shown_cons_of_ne key ha]
      exact ih

/-- When keys are distinct, a key shows at most one record. -/
theorem length_shown_le_one {l : List α} (h : (l.map key).Nodup) (k : κ) : (shown key k l).length ≤ 1 := by
  induction l with
  | nil => simp [shown]
  | cons a l ih =>
    rw [map_cons, nodup_cons] at h
    by_cases ha : key a = k
    · have hnil : l.filter (fun x => decide (key x = k)) = [] := by
        refine filter_eq_nil_iff.2 (fun x hx => ?_)
        intro heq
        exact h.1 (mem_map.2 ⟨x, hx, (of_decide_eq_true heq).trans ha.symm⟩)
      simp [shown, ha, hnil]
    · rw [shown_cons_of_ne key ha]
      exact ih h.2

theorem lookup_eq_none_iff {k : κ} {l : List α} : lookup key k l = none ↔ ∀ x ∈ l, key x ≠ k := by
  simp [lookup]

theorem key_of_lookup {k : κ} {l : List α} {a : α} (h : lookup key k l = some a) : key a = k := by
  simpa using find?_some h

theorem mem_of_lookup {k : κ} {l : List α} {a : α} (h : lookup key k l = some a) : a ∈ l := mem_of_find?_eq_some h

/-- What is put is found. -/
@[simp] theorem lookup_put_self {k : κ} {b : α} (hb : key b = k) (l : List α) : lookup key k (put key k b l) = some b := by
  induction l with
  | nil => simp [put, lookup, hb]
  | cons a l ih =>
    by_cases ha : key a = k
    · simp [put, lookup, ha, hb]
    · rw [put, if_neg ha, lookup, find?_cons_of_neg (by simpa using ha)]
      exact ih

/-- Under other keys the same is found. -/
theorem lookup_put_of_ne {k k' : κ} {b : α} (hb : key b = k) (h : k' ≠ k) (l : List α) :
    lookup key k' (put key k b l) = lookup key k' l := by
  have hbk : ¬ key b = k' := fun heq => h (heq.symm.trans hb)
  induction l with
  | nil => simp [put, lookup, hbk]
  | cons a l ih =>
    by_cases ha : key a = k
    · have hak : ¬ key a = k' := fun heq => h (heq.symm.trans ha)
      rw [put, if_pos ha, lookup, lookup, find?_cons_of_neg (by simpa using hbk),
        find?_cons_of_neg (by simpa using hak)]
    · rw [put, if_neg ha]
      by_cases hak : key a = k'
      · simp [lookup, hak]
      · simpa [lookup, hak] using ih

section Map

variable {β : Type*} (key' : β → κ)

/-- A function that keeps the keys is made at what a key shows. -/
theorem shown_map {f : α → β} {l : List α} (h : ∀ a ∈ l, key' (f a) = key a) (k : κ) :
    shown key' k (l.map f) = (shown key k l).map f := by
  rw [shown, filter_map]
  refine congrArg (map f) (filter_congr ?_)
  intro a ha
  simp only [Function.comp, h a ha]

/-- A function that keeps the keys is made at what is found. -/
theorem lookup_map {f : α → β} {l : List α} (h : ∀ a ∈ l, key' (f a) = key a) (k : κ) :
    lookup key' k (l.map f) = (lookup key k l).map f := by
  rw [lookup, find?_map]
  refine congrArg (Option.map f) ?_
  induction l with
  | nil => rfl
  | cons a l ih =>
    have ha := h a (mem_cons_self ..)
    have hrest := ih (fun b hb => h b (mem_cons_of_mem _ hb))
    by_cases hk : key a = k
    · rw [lookup, find?_cons_of_pos (by simp [ha, hk]), find?_cons_of_pos (by simp [hk])]
    · rw [lookup, find?_cons_of_neg (by simp [ha, hk]), find?_cons_of_neg (by simp [hk])]
      exact hrest

end Map

/-! ## Collecting a list -/

@[simp] theorem collect_nil (start : List α) : collect key start [] = start := rfl

theorem collect_cons (start : List α) (a : α) (l : List α) :
    collect key start (a :: l) = collect key (put key (key a) a start) l := rfl

theorem collect_append (start l m : List α) : collect key start (l ++ m) = collect key (collect key start l) m :=
  foldl_append

theorem mem_collect {start l : List α} {x : α} (h : x ∈ collect key start l) : x ∈ start ∨ x ∈ l := by
  induction l generalizing start with
  | nil => exact Or.inl h
  | cons a l ih =>
    rcases ih h with hx | hx
    · rcases mem_put key hx with rfl | hx
      · exact Or.inr (mem_cons_self ..)
      · exact Or.inl hx
    · exact Or.inr (mem_cons_of_mem _ hx)

theorem nodup_collect {start : List α} (h : (start.map key).Nodup) (l : List α) :
    ((collect key start l).map key).Nodup := by
  induction l generalizing start with
  | nil => exact h
  | cons a l ih => exact ih (nodup_put key rfl h)

/-- Collecting never shortens the list. -/
theorem length_le_length_collect (start l : List α) : start.length ≤ (collect key start l).length := by
  induction l generalizing start with
  | nil => exact Nat.le_refl _
  | cons a l ih =>
    have hput := length_put key (b := a) rfl start
    have hrest := ih (put key (key a) a start)
    rw [collect_cons]
    split at hput <;> omega

/-- Collecting adds at most the records of the list. -/
theorem length_collect_le (start l : List α) : (collect key start l).length ≤ start.length + l.length := by
  induction l generalizing start with
  | nil => exact Nat.le_refl _
  | cons a l ih =>
    have hput := length_put key (b := a) rfl start
    have hrest := ih (put key (key a) a start)
    rw [collect_cons, length_cons]
    split at hput <;> omega

/-- A list of distinct new keys is appended as it is. -/
theorem collect_of_nodup {start l : List α} (h : ((start ++ l).map key).Nodup) : collect key start l = start ++ l := by
  induction l generalizing start with
  | nil => simp
  | cons a l ih =>
    have hput : put key (key a) a start = start ++ [a] := by
      refine put_of_notMem key a ?_
      intro x hx heq
      rw [map_append, map_cons, nodup_append] at h
      exact h.2.2 _ (mem_map.2 ⟨x, hx, rfl⟩) _ (mem_cons_self ..) heq
    rw [collect_cons, hput, ih (by simpa using h)]
    simp

/-- What a key shows after a list is collected depends on what it showed before and on what it shows in the list. -/
theorem shown_collect (k : κ) (start l : List α) :
    shown key k (collect key start l) = collect key (shown key k start) (shown key k l) := by
  induction l generalizing start with
  | nil => rfl
  | cons a l ih =>
    rw [collect_cons, ih]
    by_cases ha : key a = k
    · subst ha
      rw [shown_put key rfl, shown_cons_of_eq key rfl, collect_cons]
    · rw [shown_put_of_ne key rfl (Ne.symm ha), shown_cons_of_ne key ha]

/-- The keys of a collected list depend on the keys of its parts. -/
theorem map_key_collect_congr {start start' l l' : List α} (hstart : start.map key = start'.map key)
    (h : l.map key = l'.map key) : (collect key start l).map key = (collect key start' l').map key := by
  induction l generalizing start start' l' with
  | nil =>
    obtain rfl := map_eq_nil_iff.1 h.symm
    exact hstart
  | cons a l ih =>
    rcases l' with _ | ⟨b, l'⟩
    · simp at h
    · obtain ⟨hab, hrest⟩ := cons.inj h
      rw [collect_cons, collect_cons]
      refine ih ?_ hrest
      rw [map_key_put key rfl, map_key_put key rfl, hstart, hab]

/-- The first record of a key is the first of those it shows. -/
theorem lookup_eq_head_shown (k : κ) (l : List α) : lookup key k l = (shown key k l).head? :=
  (head?_filter ..).symm

/-- The last record of a key is after its other records. -/
theorem lookupLast_append_cons {k : κ} {a : α} (ha : key a = k) (front back : List α) :
    lookupLast key k (front ++ a :: back) = some ((lookupLast key k back).getD a) := by
  rw [lookupLast, reverse_append, reverse_cons, append_assoc, lookup, find?_append]
  change ((lookupLast key k back).or _) = _
  rcases lookupLast key k back with _ | b
  · rw [singleton_append, find?_cons_of_pos (by simp [ha])]
    rfl
  · rfl

/-- A key shows its last record of the list, when it had at most one before. -/
theorem shown_collect_last {start l : List α} {k : κ} (h : ∀ x ∈ start, key x ≠ k) :
    shown key k (collect key start l) = (lookupLast key k l).toList := by
  induction l using reverseRecOn with
  | nil => exact filter_eq_nil_iff.2 (fun x hx => by simpa using h x hx)
  | append_singleton l a ih =>
    rw [collect_append, collect_cons, collect_nil, lookupLast, reverse_append, reverse_singleton,
      singleton_append]
    by_cases ha : key a = k
    · subst ha
      rw [lookup, find?_cons_of_pos (by simp), shown_put_self key rfl]
      · rfl
      · rw [ih]
        cases lookupLast key (key a) l <;> simp
    · rw [lookup, find?_cons_of_neg (by simpa using ha), shown_put_of_ne key rfl (Ne.symm ha), ih]
      rfl

end Keyed
