import P5136.Profile.Store

/-!
# The revisions of a directory

The greatest revision and the newest valid one, and what they become when an older revision is removed or a greater one is
published.
-/

namespace P5136

namespace ProfileStore

open FiniteMap List

variable {P : Type} {format : ProfileFormat P} {directory directory' : ProfileDirectory}

/-! ## The greatest and the newest valid revision -/

/-- The revisions in descending order are those that are there. -/
theorem mem_revisionsDescending {revision : Nat} :
    revision ∈ revisionsDescending directory ↔ ∃ bytes, directory.revisions.lookup revision = some bytes := by
  rw [revisionsDescending, (perm_insertionSort _ _).mem_iff, mem_keys_iff]

/-- The revisions are listed from the greatest on, each once. -/
theorem pairwise_revisionsDescending (directory : ProfileDirectory) : (revisionsDescending directory).Pairwise (· > ·) := by
  have hle : (revisionsDescending directory).Pairwise (· ≥ ·) := pairwise_insertionSort _ _
  have hne : (revisionsDescending directory).Pairwise (· ≠ ·) :=
    (perm_insertionSort _ _).nodup_iff.2 directory.revisions.nodupKeys
  exact (hle.and hne).imp (fun h => Nat.lt_of_le_of_ne h.1 (Ne.symm h.2))

/-- The head is the greatest revision. -/
theorem headRevision_eq_some {head : Nat} : headRevision directory = some head ↔
    (∃ bytes, directory.revisions.lookup head = some bytes) ∧
      ∀ revision bytes, directory.revisions.lookup revision = some bytes → revision ≤ head := by
  have hsorted := pairwise_revisionsDescending directory
  simp only [← mem_revisionsDescending, headRevision]
  constructor
  · intro h
    obtain ⟨rest, hrest⟩ := head?_eq_some_iff.1 h
    rw [hrest] at hsorted ⊢
    refine ⟨mem_cons_self, fun revision bytes hlookup => ?_⟩
    have hmem := mem_revisionsDescending.2 ⟨bytes, hlookup⟩
    rw [hrest] at hmem
    rcases mem_cons.1 hmem with rfl | hmem
    · exact Nat.le_refl _
    · exact Nat.le_of_lt (rel_of_pairwise_cons hsorted hmem)
  · rintro ⟨hmem, hmax⟩
    cases hl : revisionsDescending directory with
    | nil =>
      rw [hl] at hmem
      cases hmem
    | cons first rest =>
      rw [hl] at hmem hsorted
      rcases mem_cons.1 hmem with rfl | hmem
      · rfl
      · obtain ⟨bytes, hbytes⟩ := mem_revisionsDescending.1 (hl ▸ mem_cons_self : first ∈ revisionsDescending directory)
        have hle := hmax first bytes hbytes
        have hlt := rel_of_pairwise_cons hsorted hmem
        omega

/-- Without a head there is no revision. -/
theorem headRevision_eq_none : headRevision directory = none ↔ ∀ revision, directory.revisions.lookup revision = none := by
  rw [headRevision, head?_eq_none_iff, eq_nil_iff_forall_not_mem]
  simp only [mem_revisionsDescending, not_exists, Option.eq_none_iff_forall_ne_some]

/-- A valid revision is there. -/
theorem exists_lookup_of_validAt {revision : Nat} {profile : P} (h : validAt format directory revision = some profile) :
    ∃ bytes, directory.revisions.lookup revision = some bytes := by
  obtain ⟨bytes, hbytes, -⟩ := Option.bind_eq_some_iff.1 h
  exact ⟨bytes, hbytes⟩

/-- The newest valid revision is valid, and no greater one is. -/
theorem newestValid_eq_some {revision : Nat} {profile : P} : newestValid format directory = some (revision, profile) ↔
    validAt format directory revision = some profile ∧ ∀ r, revision < r → validAt format directory r = none := by
  have hsorted := pairwise_revisionsDescending directory
  rw [newestValid, findSome?_eq_some_iff]
  constructor
  · rintro ⟨before, r, after, heq, hr, hbefore⟩
    obtain ⟨p, hp, hpair⟩ := Option.map_eq_some_iff.1 hr
    cases hpair
    refine ⟨hp, fun r' hr' => ?_⟩
    cases hv : validAt format directory r' with
    | none => rfl
    | some p' =>
      have hmem := mem_revisionsDescending.2 (exists_lookup_of_validAt hv)
      rw [heq] at hmem hsorted
      rcases mem_append.1 hmem with hmem | hmem
      · have hnone := hbefore r' hmem
        rw [hv] at hnone
        cases hnone
      · rcases mem_cons.1 hmem with rfl | hmem
        · omega
        · have hlt := rel_of_pairwise_cons (pairwise_append.1 hsorted).2.1 hmem
          omega
  · rintro ⟨hp, hgreater⟩
    obtain ⟨before, after, heq⟩ := append_of_mem (mem_revisionsDescending.2 (exists_lookup_of_validAt hp))
    rw [heq] at hsorted
    refine ⟨before, revision, after, heq, by rw [hp]; rfl, fun r hr => ?_⟩
    have hlt := (pairwise_append.1 hsorted).2.2 r hr revision mem_cons_self
    rw [hgreater r hlt]
    rfl

/-- Without a newest valid revision none is valid. -/
theorem newestValid_eq_none : newestValid format directory = none ↔ ∀ revision, validAt format directory revision = none := by
  rw [newestValid, findSome?_eq_none_iff]
  constructor
  · intro h r
    cases hv : validAt format directory r with
    | none => rfl
    | some p =>
      have hnone := h r (mem_revisionsDescending.2 (exists_lookup_of_validAt hv))
      rw [hv] at hnone
      cases hnone
  · intro h r _
    rw [h r]
    rfl

/-- A valid head is the newest valid revision. -/
theorem newestValid_of_head {head : Nat} {profile : P} (hhead : headRevision directory = some head)
    (hvalid : validAt format directory head = some profile) : newestValid format directory = some (head, profile) := by
  refine newestValid_eq_some.2 ⟨hvalid, fun r hr => ?_⟩
  cases hv : validAt format directory r with
  | none => rfl
  | some p =>
    obtain ⟨bytes, hbytes⟩ := exists_lookup_of_validAt hv
    have hle := (headRevision_eq_some.1 hhead).2 r bytes hbytes
    omega

/-- What was written is valid, when the volumes are finite. -/
theorem readProfile_of_revisionBytes {profile : P} {bytes : List UInt8} (hfinite : FiniteVolumes format profile)
    (h : revisionBytes format profile = some bytes) : readProfile format bytes = some (format.reread profile) := by
  unfold revisionBytes at h
  split at h
  · rename_i written hwritten
    split at h
    · cases h
    · rename_i hle
      cases h
      rw [readProfile, if_neg hle, format.fromSlice_toVecPretty profile written hfinite.1 hfinite.2 hwritten]
  · cases h

/-! ## Two kinds of changes -/

/-- A directory loses old revisions at most: the head and the newest valid revision stay. -/
structure Keeps (format : ProfileFormat P) (directory directory' : ProfileDirectory) : Prop where
  head : headRevision directory' = headRevision directory
  newest : newestValid format directory' = newestValid format directory
  legacy : directory'.legacy = directory.legacy
  valid : ∀ revision profile, validAt format directory' revision = some profile →
    validAt format directory revision = some profile
  headValid : ∀ head, headRevision directory = some head → validAt format directory' head = validAt format directory head

/-- A directory gains a greater, valid revision. -/
structure Grows (format : ProfileFormat P) (directory directory' : ProfileDirectory) (revision : Nat) (profile : P) : Prop where
  head : headRevision directory' = some revision
  valid : validAt format directory' revision = some profile
  greater : ∀ head, headRevision directory = some head → head < revision
  legacy : directory'.legacy = directory.legacy

/-- Changes of temporary files keep the revisions. -/
theorem Keeps.of_revisions (h : directory'.revisions = directory.revisions) (hlegacy : directory'.legacy = directory.legacy) :
    Keeps format directory directory' := by
  have hvalid : ∀ r, validAt format directory' r = validAt format directory r := fun r => by rw [validAt, validAt, h]
  have hlist : revisionsDescending directory' = revisionsDescending directory := by rw [revisionsDescending, revisionsDescending, h]
  refine ⟨by rw [headRevision, headRevision, hlist], ?_, hlegacy, fun r p hr => by rwa [← hvalid r], fun r _ => hvalid r⟩
  simp only [newestValid, hlist, hvalid]

/-- The validity of a revision behind a removal. -/
theorem validAt_erase (directory : ProfileDirectory) (removed revision : Nat) :
    validAt format { directory with revisions := directory.revisions.erase removed } revision =
      if revision = removed then none else validAt format directory revision := by
  simp only [validAt, lookup_erase]
  split <;> rfl

/-- Removing a revision that is neither the head nor the newest valid one. -/
theorem keeps_erase {removed : Nat} (hhead : headRevision directory ≠ some removed)
    (hnewest : ∀ profile, newestValid format directory ≠ some (removed, profile)) :
    Keeps format directory { directory with revisions := directory.revisions.erase removed } := by
  refine ⟨?_, ?_, rfl, ?_, ?_⟩
  · cases hh : headRevision directory with
    | none =>
      rw [headRevision_eq_none] at hh ⊢
      intro r
      rw [lookup_erase, hh r, ite_self]
    | some head =>
      have hne : head ≠ removed := fun heq => hhead (heq ▸ hh)
      obtain ⟨⟨bytes, hbytes⟩, hmax⟩ := headRevision_eq_some.1 hh
      refine headRevision_eq_some.2 ⟨⟨bytes, by rw [lookup_erase, if_neg hne, hbytes]⟩, ?_⟩
      intro r b hr
      rw [lookup_erase] at hr
      split at hr
      · cases hr
      · exact hmax r b hr
  · cases hn : newestValid format directory with
    | none =>
      rw [newestValid_eq_none] at hn ⊢
      intro r
      rw [validAt_erase, hn r, ite_self]
    | some found =>
      obtain ⟨r, p⟩ := found
      have hne : r ≠ removed := fun heq => hnewest p (heq ▸ hn)
      obtain ⟨hr, hgreater⟩ := newestValid_eq_some.1 hn
      refine newestValid_eq_some.2 ⟨by rw [validAt_erase, if_neg hne, hr], fun r' hr' => ?_⟩
      rw [validAt_erase, hgreater r' hr', ite_self]
  · intro r p hr
    rw [validAt_erase] at hr
    split at hr
    · cases hr
    · exact hr
  · intro h hh
    have hne : h ≠ removed := fun heq => hhead (heq ▸ hh)
    rw [validAt_erase, if_neg hne]

/-- Publishing a valid revision behind the head. -/
theorem grows_insert {revision : Nat} {profile : P} {bytes : List UInt8} (hfinite : FiniteVolumes format profile)
    (hbytes : revisionBytes format profile = some bytes) (hgreater : ∀ head, headRevision directory = some head → head < revision) :
    Grows format directory { directory with revisions := directory.revisions.insert revision bytes } revision
      (format.reread profile) := by
  refine ⟨?_, ?_, hgreater, rfl⟩
  · refine headRevision_eq_some.2 ⟨⟨bytes, by rw [lookup_insert, if_pos rfl]⟩, ?_⟩
    intro r b hr
    rw [lookup_insert] at hr
    split at hr
    · rename_i heq
      exact Nat.le_of_eq heq
    · cases hh : headRevision directory with
      | none =>
        rw [headRevision_eq_none.1 hh r] at hr
        cases hr
      | some head => exact Nat.le_of_lt (Nat.lt_of_le_of_lt ((headRevision_eq_some.1 hh).2 r b hr) (hgreater head hh))
  · simp only [validAt, lookup_insert, if_pos, Option.bind_some]
    exact readProfile_of_revisionBytes hfinite hbytes

/-! ## The removal set -/

/-- A removal set holds neither the head nor the protected revision. -/
theorem mem_precompact {head : Option Nat} {protectedSource : Option Nat} {revision : Nat}
    (hhead : headRevision directory = head)
    (h : revision ∈ precompactProfileRevisions (revisionsDescending directory) protectedSource) :
    (∃ h, head = some h ∧ revision < h) ∧ some revision ≠ protectedSource := by
  obtain ⟨hmem, hprotected⟩ := mem_filter.1 h
  refine ⟨?_, by simpa using hprotected⟩
  have hslots : 1 ≤ newestSlots (revisionsDescending directory) protectedSource := by
    have hslots : ∀ (c : Prop) [Decidable c], 1 ≤ if c then 62 else 63 := by
      intro c _
      split <;> decide
    cases protectedSource with
    | none => exact Nat.le_add_left 1 62
    | some source => exact hslots _
  have hsorted := pairwise_revisionsDescending directory
  cases hl : revisionsDescending directory with
  | nil =>
    rw [hl, drop_nil] at hmem
    cases hmem
  | cons first rest =>
    rw [hl] at hmem hsorted hslots
    refine ⟨first, by rw [← hhead, headRevision, hl]; rfl, rel_of_pairwise_cons hsorted ?_⟩
    obtain ⟨n, hn⟩ := Nat.exists_eq_add_of_le hslots
    rw [hn, Nat.add_comm, drop_succ_cons] at hmem
    exact mem_of_mem_drop hmem

end ProfileStore

end P5136
