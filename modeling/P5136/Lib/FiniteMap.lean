import Mathlib.Data.List.AList

/-!
# Finite maps

A finite map is Mathlib's association list with distinct keys. Here, what the map operations of a program do to a lookup:
one equation for each operation, with the case split on the key in it, and the size of the map after an insertion or an
erasure. A map to lists collects values under their keys.
-/

universe u v w

/-- A finite map from keys to values: an association list in which no key occurs twice. -/
abbrev FiniteMap (K : Type u) (V : Type v) := AList (fun _ : K => V)

namespace FiniteMap

variable {K : Type u} {V : Type v} {W : Type w} [DecidableEq K]

/-- The number of keys of the map. -/
def size (m : FiniteMap K V) : Nat := m.entries.length

/-- The values of the map, in the order of its entries. -/
def values (m : FiniteMap K V) : List V := m.entries.map (·.2)

/-- The map that keeps the entries `p` accepts. -/
def retain (p : K → V → Bool) (m : FiniteMap K V) : FiniteMap K V :=
  ⟨m.entries.filter (fun e => p e.1 e.2), m.nodupKeys.sublist List.filter_sublist⟩

/-- The map with `f` applied to every value. -/
def mapValues (f : K → V → W) (m : FiniteMap K V) : FiniteMap K W :=
  ⟨m.entries.map (fun e => ⟨e.1, f e.1 e.2⟩), by
    have h := m.nodupKeys
    simp only [List.NodupKeys, List.keys, List.map_map] at h ⊢
    exact h⟩

/-! ## Lookups -/

/-- Looking up after an insertion: the new value at its key, the old map elsewhere. -/
theorem lookup_insert (m : FiniteMap K V) (k k' : K) (v : V) :
    AList.lookup k' (m.insert k v) = if k' = k then some v else m.lookup k' := by
  by_cases h : k' = k
  · subst h; simp
  · simp [h, AList.lookup_insert_ne h]

/-- Looking up after an erasure: nothing at the key, the old map elsewhere. -/
theorem lookup_erase (m : FiniteMap K V) (k k' : K) :
    AList.lookup k' (m.erase k) = if k' = k then none else m.lookup k' := by
  by_cases h : k' = k
  · subst h; simp
  · simp [h, AList.lookup_erase_ne h]

/-- Erasing an inserted key leaves what erasing it from the old map leaves. -/
theorem erase_insert (m : FiniteMap K V) (k : K) (v : V) : AList.erase k (m.insert k v) = AList.erase k m := by
  apply AList.ext
  have h : List.kerase k (⟨k, v⟩ :: List.kerase k m.entries : List (Σ _ : K, V)) = List.kerase k m.entries :=
    List.kerase_cons_eq rfl
  exact h

/-- A lookup finds a value exactly when the entry is in the list. -/
theorem lookup_eq_some_iff {m : FiniteMap K V} {k : K} {v : V} :
    m.lookup k = some v ↔ (⟨k, v⟩ : Σ _ : K, V) ∈ m.entries :=
  AList.mem_lookup_iff

/-- Looking up after `retain`: the old value when it is accepted. -/
theorem lookup_retain (p : K → V → Bool) (m : FiniteMap K V) (k : K) :
    AList.lookup k (m.retain p) = (m.lookup k).filter (p k) := by
  apply Option.ext
  intro v
  have h1 : AList.lookup k (m.retain p) = some v ↔ m.lookup k = some v ∧ p k v = true := by
    rw [lookup_eq_some_iff, lookup_eq_some_iff]
    simp [retain]
  rw [h1, Option.filter_eq_some_iff]

/-- Looking up after `mapValues`: the image of the old value. -/
theorem lookup_mapValues (f : K → V → W) (m : FiniteMap K V) (k : K) :
    AList.lookup k (m.mapValues f) = (m.lookup k).map (f k) := by
  apply Option.ext
  intro v
  rw [lookup_eq_some_iff, Option.map_eq_some_iff]
  simp only [mapValues, List.mem_map, Sigma.mk.injEq]
  constructor
  · rintro ⟨⟨k', x⟩, hx, rfl, hv⟩
    exact ⟨x, lookup_eq_some_iff.2 hx, eq_of_heq hv⟩
  · rintro ⟨x, hx, rfl⟩
    exact ⟨⟨k, x⟩, lookup_eq_some_iff.1 hx, rfl, HEq.rfl⟩

/-- Looking up in a map that was filled from a list with distinct keys: what the list has at the key. -/
theorem lookup_foldl_insert {l : List (K × V)} (h : (l.map Prod.fst).Nodup) (m : FiniteMap K V) (k : K) (v : V) :
    AList.lookup k (l.foldl (fun m entry => AList.insert entry.1 entry.2 m) m) = some v ↔
      (k, v) ∈ l ∨ (k ∉ l.map Prod.fst ∧ m.lookup k = some v) := by
  induction l generalizing m with
  | nil => simp
  | cons entry l ih =>
    obtain ⟨hnot, hrest⟩ := List.nodup_cons.1 (List.map_cons ▸ h)
    rw [List.foldl_cons, ih hrest, lookup_insert]
    by_cases hk : k = entry.1
    · subst hk
      have hnone : (entry.1, v) ∉ l := fun hmem => hnot (List.mem_map.2 ⟨_, hmem, rfl⟩)
      simp only [if_true, hnone, false_or, hnot, not_false_eq_true, true_and, List.mem_cons, or_false, List.map_cons,
        not_true_eq_false, false_and, Option.some.injEq]
      constructor
      · rintro rfl
        rfl
      · intro heq
        rw [← heq]
    · have hne : (k, v) ≠ entry := fun heq => hk (congrArg Prod.fst heq)
      simp only [List.mem_cons, hne, false_or, List.map_cons, hk, if_false]

/-! ## Keys, values and size -/

/-- The keys are the ones a lookup finds a value at. -/
theorem mem_keys_iff {m : FiniteMap K V} {k : K} : k ∈ m.keys ↔ ∃ v, m.lookup k = some v := by
  rw [← AList.mem_keys, ← AList.lookup_isSome, Option.isSome_iff_exists]

/-- A value of the map is found at some key. -/
theorem mem_values_iff {m : FiniteMap K V} {v : V} : v ∈ m.values ↔ ∃ k, m.lookup k = some v := by
  simp only [values, List.mem_map]
  constructor
  · rintro ⟨⟨k, x⟩, hx, rfl⟩
    exact ⟨k, lookup_eq_some_iff.2 hx⟩
  · rintro ⟨k, hk⟩
    exact ⟨⟨k, v⟩, lookup_eq_some_iff.1 hk, rfl⟩

/-- The values behind an insertion: the new one and what erasing the key leaves. -/
theorem values_insert (m : FiniteMap K V) (k : K) (v : V) : FiniteMap.values (m.insert k v) = v :: FiniteMap.values (m.erase k) :=
  rfl

/-- The values of a map with a key: the one there and what erasing the key leaves. -/
theorem values_perm_of_lookup {m : FiniteMap K V} {k : K} {v : V} (h : m.lookup k = some v) :
    m.values.Perm (v :: FiniteMap.values (m.erase k)) := by
  have hperm : m.entries.Perm (⟨k, v⟩ :: (AList.erase k m).entries) := by
    refine (List.perm_ext_iff_of_nodup (List.NodupKeys.nodup m.nodupKeys) ?_).2 ?_
    · exact List.NodupKeys.nodup (AList.insert k v m).nodupKeys
    · rintro ⟨k', v'⟩
      have hinsert := lookup_eq_some_iff (m := AList.insert k v m) (k := k') (v := v')
      rw [← lookup_eq_some_iff, show (⟨k, v⟩ :: (AList.erase k m).entries) = (AList.insert k v m).entries from rfl, ← hinsert,
        lookup_insert]
      by_cases hk : k' = k
      · subst hk
        simp [h]
      · simp [hk]
  exact hperm.map (·.2)

/-- Erasing a key that is absent changes nothing. -/
theorem erase_of_lookup_eq_none {m : FiniteMap K V} {k : K} (h : m.lookup k = none) : AList.erase k m = m := by
  apply AList.ext
  have hk : k ∉ m.keys := fun hmem => by
    obtain ⟨v, hv⟩ := mem_keys_iff.1 hmem
    rw [h] at hv
    cases hv
  exact List.kerase_of_notMem_keys hk

omit [DecidableEq K] in
/-- The size is the number of keys. -/
theorem size_eq_length_keys (m : FiniteMap K V) : m.size = m.keys.length := by
  simp [size, AList.keys, List.keys]

/-- Inserting at a key that is present keeps the size; at a new key it adds one. -/
theorem size_insert (m : FiniteMap K V) (k : K) (v : V) :
    FiniteMap.size (m.insert k v) = if (m.lookup k).isSome then m.size else m.size + 1 := by
  rw [size_eq_length_keys, size_eq_length_keys, AList.keys_insert, List.length_cons]
  by_cases h : k ∈ m.keys
  · have hs : (m.lookup k).isSome = true := AList.lookup_isSome.2 h
    have := List.length_pos_of_mem h
    rw [List.length_erase_of_mem h, if_pos hs]
    omega
  · have hs : ¬(m.lookup k).isSome = true := fun hc => h (AList.lookup_isSome.1 hc)
    rw [List.erase_of_not_mem h, if_neg hs]

/-- Erasing a key that is present takes one off the size. -/
theorem size_erase (m : FiniteMap K V) (k : K) :
    FiniteMap.size (m.erase k) = if (m.lookup k).isSome then m.size - 1 else m.size := by
  rw [size_eq_length_keys, size_eq_length_keys, AList.keys_erase]
  by_cases h : k ∈ m.keys
  · rw [List.length_erase_of_mem h, if_pos (AList.lookup_isSome.2 h)]
  · have hs : ¬(m.lookup k).isSome = true := fun hc => h (AList.lookup_isSome.1 hc)
    rw [List.erase_of_not_mem h, if_neg hs]

/-- A map with an entry is not empty. -/
theorem size_pos {m : FiniteMap K V} {k : K} (h : (m.lookup k).isSome) : 0 < m.size := by
  rw [size_eq_length_keys]
  exact List.length_pos_of_mem (AList.lookup_isSome.1 h)

/-- A map of size zero has no entry. -/
theorem size_eq_zero_iff {m : FiniteMap K V} : m.size = 0 ↔ ∀ k, m.lookup k = none := by
  constructor
  · intro h k
    cases hk : m.lookup k with
    | none => rfl
    | some v =>
      have := size_pos (m := m) (k := k) (by rw [hk]; rfl)
      omega
  · intro h
    rw [size_eq_length_keys, List.length_eq_zero_iff, List.eq_nil_iff_forall_not_mem]
    intro k hk
    obtain ⟨v, hv⟩ := mem_keys_iff.1 hk
    rw [h k] at hv
    cases hv

/-- Erasing never grows the map. -/
theorem size_erase_le (m : FiniteMap K V) (k : K) : FiniteMap.size (m.erase k) ≤ m.size := by
  rw [size_eq_length_keys, size_eq_length_keys, AList.keys_erase]
  exact List.length_erase_le

/-- A map whose keys all occur in another map is no larger. -/
theorem size_le_of_lookup {m : FiniteMap K V} {n : FiniteMap K W}
    (h : ∀ k, (m.lookup k).isSome → (n.lookup k).isSome) : m.size ≤ n.size := by
  rw [size_eq_length_keys, size_eq_length_keys]
  refine (List.subperm_of_subset m.nodupKeys ?_).length_le
  intro k hk
  exact AList.lookup_isSome.1 (h k (AList.lookup_isSome.2 hk))

end FiniteMap

/-! ## Maps from keys to lists -/

namespace Multimap

variable {K : Type u} {V : Type v} [DecidableEq K]

/-- The list of a key; the empty one when nothing was pushed under it. -/
def values (m : FiniteMap K (List V)) (k : K) : List V := (m.lookup k).getD []

/-- A value pushed to the list of its key. -/
def push (m : FiniteMap K (List V)) (entry : K × V) : FiniteMap K (List V) :=
  m.insert entry.1 (values m entry.1 ++ [entry.2])

/-- Only the list of the key changes. -/
theorem values_push (m : FiniteMap K (List V)) (entry : K × V) (k : K) :
    values (push m entry) k = if k = entry.1 then values m k ++ [entry.2] else values m k := by
  unfold push
  rw [values, FiniteMap.lookup_insert]
  by_cases h : k = entry.1
  · rw [if_pos h, if_pos h, h, Option.getD_some]
  · rw [if_neg h, if_neg h, values]

/-- After entries were pushed, a list has the entries of its key behind what it had. -/
theorem values_foldl_push (entries : List (K × V)) (m : FiniteMap K (List V)) (k : K) :
    values (entries.foldl push m) k = values m k ++ (entries.filter (·.1 = k)).map (·.2) := by
  induction entries generalizing m with
  | nil => simp
  | cons entry entries ih =>
    rw [List.foldl_cons, ih, values_push]
    by_cases h : k = entry.1
    · rw [if_pos h, List.filter_cons_of_pos (by simp [h]), List.map_cons, List.append_assoc, List.singleton_append]
    · rw [if_neg h, List.filter_cons_of_neg (by simpa using fun h' => h h'.symm)]

/-- The lists that entries were pushed to have the entries of their keys. -/
theorem values_pushed (entries : List (K × V)) (k : K) :
    values (entries.foldl push ∅) k = (entries.filter (·.1 = k)).map (·.2) := by
  have hempty : values (∅ : FiniteMap K (List V)) k = [] := by rw [values, AList.lookup_empty, Option.getD_none]
  rw [values_foldl_push, hempty, List.nil_append]

/-- The lists of a map whose lists are changed by one function that keeps the empty list. -/
theorem values_mapValues {f : List V → List V} (hf : f [] = []) (m : FiniteMap K (List V)) (k : K) :
    values (m.mapValues fun _ => f) k = f (values m k) := by
  unfold values
  rw [FiniteMap.lookup_mapValues]
  cases m.lookup k with
  | none => exact hf.symm
  | some l => rfl

end Multimap
