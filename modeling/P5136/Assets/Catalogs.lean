import P5136.Assets.Install

/-!
# The paths of catalog files

What a safe path of a bundle looks like, and the few places that catalog files have, in whatever case they are written.
-/

namespace P5136

namespace TrackBundle

open List

/-- The path of a catalog file. -/
def IsCatalog (relative : FilePath) : Prop := ∃ path, IsTrackBundleCatalogPath path ∧ safeRelativePath path = .ok relative

/-- The catalog paths in lower case, split at their separators. -/
def catalogComponents : List FilePath :=
  ([sourceTrackTable, targetTrackLocale, selectTrackStringBag, contentConfig] ++ selectTrackConfigs).map
    (fun path => (path.toList.map Char.toLower).splitOn '/')

/-- Mapped characters are split where the characters were that become separators. -/
theorem splitOn_map {f : Char → Char} {a b : Char} (h : ∀ c, f c = b ↔ c = a) (l : List Char) :
    (l.map f).splitOn b = (l.splitOn a).map (map f) := by
  induction l with
  | nil => simp
  | cons x xs ih =>
    rw [map_cons, splitOn_cons_eq_if_modifyHead, splitOn_cons_eq_if_modifyHead, ih]
    by_cases hx : x = a
    · simp [hx, (h a).2 rfl]
    · have hfx : f x ≠ b := fun heq => hx ((h x).1 heq)
      obtain ⟨s, rest, hs⟩ := exists_cons_of_ne_nil (splitOn_ne_nil a xs)
      simp [hx, hfx, hs]

/-- A character that is no upper case letter is the lower case of itself only. -/
theorem toLower_eq_iff {c d : Char} (hd : d.val.toNat < 97) (hd' : d.toLower = d) : c.toLower = d ↔ c = d := by
  refine ⟨fun h => ?_, fun h => by rw [h, hd']⟩
  unfold Char.toLower at h
  split at h
  · rename_i hupper
    have hn := congrArg UInt32.toNat (congrArg Char.val h)
    have hge : 65 ≤ c.val.toNat := UInt32.le_iff_toNat_le.1 hupper.1
    have hle : c.val.toNat ≤ 90 := UInt32.le_iff_toNat_le.1 hupper.2
    have hs : (('a'.val - 'A'.val : UInt32)).toNat = 32 := rfl
    simp only [UInt32.toNat_add, hs] at hn
    omega
  · exact h

/-- Components that are all names stay. -/
theorem components_eq_self {l : List (List Char)} (h : ∀ c ∈ l, c ≠ [] ∧ c ≠ ['.']) : components l = l := by
  cases l with
  | nil => rfl
  | cons first rest =>
    have hfirst := (h first mem_cons_self).1
    have hrest : rest.filter (fun c => c ≠ [] ∧ c ≠ ['.']) = rest :=
      filter_eq_self.2 (fun c hc => decide_eq_true (h c (mem_cons_of_mem _ hc)))
    rw [components, if_neg hfirst, hrest]
    rfl

/-- A safe path is not empty. -/
theorem ne_nil_of_safeRelativePath {value : String} {relative : FilePath} (h : safeRelativePath value = .ok relative) :
    relative ≠ [] := by
  unfold safeRelativePath at h
  simp only at h
  split at h
  · cases h
  · split at h
    · cases h
    · split at h
      · cases h
      · rename_i hne
        cases h
        exact hne

/-- The catalog paths have no backslash, and no empty or dotted component. -/
theorem plain_of_catalog : ∀ candidate ∈ [sourceTrackTable, targetTrackLocale, selectTrackStringBag, contentConfig] ++
    selectTrackConfigs, '\\' ∉ candidate.toList.map Char.toLower ∧
      ∀ c ∈ (candidate.toList.map Char.toLower).splitOn '/', c ≠ [] ∧ c ≠ ['.'] := by
  decide +kernel

/-- A path of a catalog file is one of the catalog paths, in some case. -/
theorem lower_of_isCatalog {relative : FilePath} (h : IsCatalog relative) :
    relative.map (map Char.toLower) ∈ catalogComponents := by
  obtain ⟨path, hcatalog, hsafe⟩ := h
  obtain ⟨candidate, hmem, heq⟩ : ∃ candidate ∈ [sourceTrackTable, targetTrackLocale, selectTrackStringBag, contentConfig] ++
      selectTrackConfigs, eqIgnoreAsciiCase path candidate := by
    rcases hcatalog with h | h | h | h | ⟨candidate, hmem, h⟩
    · exact ⟨_, by simp, h⟩
    · exact ⟨_, by simp, h⟩
    · exact ⟨_, by simp, h⟩
    · exact ⟨_, by simp, h⟩
    · exact ⟨candidate, mem_append_right _ hmem, h⟩
  obtain ⟨hbackslash, hnames⟩ := plain_of_catalog candidate hmem
  have hslash : ∀ c : Char, c.toLower = '/' ↔ c = '/' := fun c => toLower_eq_iff (by decide) (by decide)
  have hsplit : (path.toList.splitOn '/').map (map Char.toLower) = (candidate.toList.map Char.toLower).splitOn '/' := by
    rw [← splitOn_map hslash, heq]
  have hnormal : path.toList.map (fun c => if c = '\\' then '/' else c) = path.toList := by
    refine map_congr_left (g := id) (fun c hc => if_neg ?_) |>.trans (map_id _)
    rintro rfl
    exact hbackslash (heq ▸ mem_map_of_mem hc)
  -- the components of the path are those of the candidate in some case
  have hcomponents : components (path.toList.splitOn '/') = path.toList.splitOn '/' := by
    refine components_eq_self (fun c hc => ?_)
    obtain ⟨hempty, hdot⟩ := hnames (c.map Char.toLower) (hsplit ▸ mem_map_of_mem hc)
    exact ⟨fun h => hempty (by rw [h]; rfl), fun h => hdot (by rw [h]; rfl)⟩
  have hrelative : relative = path.toList.splitOn '/' := by
    unfold safeRelativePath at hsafe
    simp only [hnormal, hcomponents] at hsafe
    split at hsafe
    · cases hsafe
    · split at hsafe
      · cases hsafe
      · split at hsafe
        · cases hsafe
        · cases hsafe
          rfl
  rw [hrelative, hsplit]
  exact mem_map_of_mem hmem

/-- A catalog path does not end another. -/
theorem eq_nil_of_isCatalog_append {above relative : FilePath} (h : IsCatalog relative) (h' : IsCatalog (above ++ relative)) :
    above = [] := by
  have hlengths : ∀ a ∈ catalogComponents, ∀ b ∈ catalogComponents, a <:+ b → a.length = b.length := by decide +kernel
  have hlower := lower_of_isCatalog h'
  rw [map_append] at hlower
  have hlength := hlengths _ (lower_of_isCatalog h) _ hlower (suffix_append _ _)
  rw [length_append, length_map, length_map] at hlength
  exact length_eq_zero_iff.1 (by omega)

/-- The report of a run is no catalog file. -/
theorem getLast?_ne_of_isCatalog {relative : FilePath} (h : IsCatalog relative) :
    relative.getLast? ≠ some "dataraw-install-report.json".toList := by
  have hlast : ∀ a ∈ catalogComponents, a.getLast? ≠ some ("dataraw-install-report.json".toList.map Char.toLower) := by
    decide +kernel
  intro heq
  refine hlast _ (lower_of_isCatalog h) ?_
  rw [getLast?_map, heq]
  rfl

end TrackBundle

end P5136
