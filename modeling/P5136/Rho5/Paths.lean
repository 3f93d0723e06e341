import P5136.Rho5.Archive

/-!
# Normal paths

A path that was normalised is normal: normalising it once more returns it. This rests on what canonical composition does at the
characters that normalisation looks at.
-/

namespace P5136

open List

/-- The characters that normalisation looks at. -/
def Rho5.pathMarks : List Char := ['/', '.', Rho5.backslash, Rho5.nul]

/-- Canonical composition of texts: it is done once and for all, drops no text, and the marks of paths neither combine with what
stands around them nor come out of it. -/
structure Composes (nfc : List Char → List Char) : Prop where
  idem : ∀ s, nfc (nfc s) = nfc s
  eq_nil : ∀ s, nfc s = [] → s = []
  append : ∀ c ∈ Rho5.pathMarks, ∀ a b, nfc (a ++ c :: b) = nfc a ++ c :: nfc b
  mem : ∀ c ∈ Rho5.pathMarks, ∀ s, c ∈ nfc s → c ∈ s

namespace Rho5

/-- A segment that stays in a normal path. -/
def IsSegment (s : List Char) : Prop := s ≠ [] ∧ s ≠ ['.'] ∧ s ≠ ['.', '.']

/-- What is split off holds no separator, and nothing but what was split. -/
theorem mem_splitOn {c : Char} {l s : List Char} (h : s ∈ l.splitOn c) : c ∉ s ∧ ∀ x ∈ s, x ∈ l := by
  induction l generalizing s with
  | nil =>
    rw [splitOn_nil, mem_singleton] at h
    subst h
    exact ⟨by simp, by simp⟩
  | cons x xs ih =>
    rw [splitOn_cons_eq_if_modifyHead] at h
    split at h
    · rcases mem_cons.1 h with rfl | h
      · exact ⟨by simp, by simp⟩
      · obtain ⟨hc, hs⟩ := ih h
        exact ⟨hc, fun y hy => mem_cons_of_mem _ (hs y hy)⟩
    · rename_i hne
      obtain ⟨t, ts, ht⟩ := exists_cons_of_ne_nil (splitOn_ne_nil c xs)
      rw [ht, modifyHead_cons] at h
      rcases mem_cons.1 h with rfl | h
      · obtain ⟨hc, hs⟩ := ih (s := t) (by rw [ht]; exact mem_cons_self)
        have hcx : c ≠ x := fun heq => hne (by simp [heq])
        refine ⟨by simp [hcx, hc], fun y hy => ?_⟩
        rcases mem_cons.1 hy with rfl | hy
        · exact mem_cons_self
        · exact mem_cons_of_mem _ (hs y hy)
      · obtain ⟨hc, hs⟩ := ih (s := s) (by rw [ht]; exact mem_cons_of_mem _ h)
        exact ⟨hc, fun y hy => mem_cons_of_mem _ (hs y hy)⟩

/-- The segments that stay are segments of a normal path, out of those there were. -/
theorem mem_of_collectSegments {path : String} {l segments : List (List Char)}
    (h : collectSegments path l = .ok segments) : ∀ s ∈ segments, s ∈ l ∧ IsSegment s := by
  induction l generalizing segments with
  | nil =>
    cases h
    simp
  | cons segment rest ih =>
    unfold collectSegments at h
    split at h
    · intro s hs
      obtain ⟨hm, hseg⟩ := ih h s hs
      exact ⟨mem_cons_of_mem _ hm, hseg⟩
    · rename_i hkeep
      split at h
      · cases h
      · rename_i hparent
        obtain ⟨segments', hrest, hs⟩ := Checks.bind_eq_ok.1 h
        cases hs
        intro s hs
        rcases mem_cons.1 hs with rfl | hs
        · exact ⟨mem_cons_self, fun h => hkeep (.inl h), fun h => hkeep (.inr h), hparent⟩
        · obtain ⟨hm, hseg⟩ := ih hrest s hs
          exact ⟨mem_cons_of_mem _ hm, hseg⟩

/-- Segments of a normal path all stay. -/
theorem collectSegments_eq_self {path : String} {l : List (List Char)} (h : ∀ s ∈ l, IsSegment s) :
    collectSegments path l = .ok l := by
  induction l with
  | nil => rfl
  | cons segment rest ih =>
    obtain ⟨hempty, hdot, hparent⟩ := h segment mem_cons_self
    have hrest := ih (fun s hs => h s (mem_cons_of_mem _ hs))
    have hkeep : ¬(segment = [] ∨ segment = ['.']) := fun hor => hor.elim hempty hdot
    rw [collectSegments, if_neg hkeep, if_neg hparent, hrest]
    rfl

/-! ## Composition and segments -/

section

variable {nfc : List Char → List Char}

/-- Composition composes each segment by itself. -/
theorem nfc_intercalate (hn : Composes nfc) {segments : List (List Char)} (h : segments ≠ []) :
    nfc (['/'].intercalate segments) = ['/'].intercalate (segments.map nfc) := by
  induction segments with
  | nil => exact absurd rfl h
  | cons s rest ih =>
    cases rest with
    | nil => simp
    | cons t rest =>
      have hslash : '/' ∈ pathMarks := by simp [pathMarks]
      have hjoin := hn.append '/' hslash s (['/'].intercalate (t :: rest))
      rw [intercalate_cons_cons, append_assoc, singleton_append, hjoin, ih (by simp)]
      simp only [map_cons, intercalate_cons_cons, append_assoc, singleton_append]

/-- Only the dot is composed to the dot. -/
theorem eq_dot_of_nfc (hn : Composes nfc) {s : List Char} (h : nfc s = ['.']) : s = ['.'] := by
  have hmark : '.' ∈ pathMarks := by simp [pathMarks]
  have hmem : '.' ∈ s := hn.mem _ hmark s (by rw [h]; exact mem_singleton_self _)
  obtain ⟨a, b, rfl⟩ := append_of_mem hmem
  rw [hn.append _ hmark] at h
  obtain ⟨ha, hb⟩ : nfc a = [] ∧ nfc b = [] := by
    cases ha : nfc a with
    | nil => simpa [ha] using h
    | cons x xs => simp [ha] at h
  rw [hn.eq_nil a ha, hn.eq_nil b hb]
  rfl

/-- Composition keeps segments of a normal path such segments. -/
theorem isSegment_nfc (hn : Composes nfc) {s : List Char} (h : IsSegment s) : IsSegment (nfc s) := by
  obtain ⟨hempty, hdot, hparent⟩ := h
  refine ⟨fun heq => hempty (hn.eq_nil s heq), fun heq => hdot (eq_dot_of_nfc hn heq), fun heq => hparent ?_⟩
  have hmark : '.' ∈ pathMarks := by simp [pathMarks]
  have hmem : '.' ∈ s := hn.mem _ hmark s (by rw [heq]; exact mem_cons_self)
  obtain ⟨a, b, rfl⟩ := append_of_mem hmem
  rw [hn.append _ hmark] at heq
  -- the dot that was found is the first of the two or the second
  cases ha : nfc a with
  | nil =>
    rw [ha, nil_append, cons.injEq] at heq
    rw [hn.eq_nil a ha, eq_dot_of_nfc hn heq.2]
    rfl
  | cons x xs =>
    rw [ha, cons_append, cons.injEq] at heq
    obtain ⟨rfl, heq⟩ := heq
    cases xs with
    | nil =>
      rw [nil_append, cons.injEq] at heq
      rw [eq_dot_of_nfc hn ha, hn.eq_nil b heq.2]
      rfl
    | cons y ys => simp at heq

end

/-! ## Normalisation -/

/-- What is in a joined path is in a segment, or is the separator. -/
theorem mem_intercalate {c : Char} {segments : List (List Char)} (h : c ∈ ['/'].intercalate segments) :
    c = '/' ∨ ∃ s ∈ segments, c ∈ s := by
  induction segments with
  | nil => simp at h
  | cons s rest ih =>
    cases rest with
    | nil => exact .inr ⟨s, mem_cons_self, by simpa using h⟩
    | cons t rest =>
      rw [intercalate_cons_cons, append_assoc, mem_append, singleton_append, mem_cons] at h
      rcases h with h | rfl | h
      · exact .inr ⟨s, mem_cons_self, h⟩
      · exact .inl rfl
      · rcases ih h with rfl | ⟨u, hu, hc⟩
        · exact .inl rfl
        · exact .inr ⟨u, mem_cons_of_mem _ hu, hc⟩

/-- When a path is normalised, its segments are composed and joined. -/
theorem normalizePath_eq_ok {library : Rho5Library} {path : String} {limits : Rho5Limits} {normalized : String} :
    normalizePath library path limits = .ok normalized ↔
      nul ∉ path.toList ∧ ∃ segments,
        collectSegments path ((path.toList.map (fun c => if c = backslash then '/' else c)).splitOn '/') = .ok segments ∧
        segments ≠ [] ∧ String.ofList (library.nfc (['/'].intercalate segments)) = normalized ∧
        normalized.utf8ByteSize ≤ limits.maxNormalizedPathBytes := by
  unfold normalizePath
  simp only [Checks.bind_eq_ok, Checks.ensure_eq_ok]
  constructor
  · rintro ⟨_, hnul, segments, hs, _, hne, _, hle, hret⟩
    cases hret
    exact ⟨hnul, segments, hs, hne, rfl, Nat.not_lt.1 hle⟩
  · rintro ⟨hnul, segments, hs, hne, rfl, hle⟩
    exact ⟨(), hnul, segments, hs, (), hne, (), Nat.not_lt.2 hle, rfl⟩

/-- A normalised path is returned when it is normalised again, and it is not empty. -/
theorem normalizePath_normalized {library : Rho5Library} (hn : Composes library.nfc) {path normalized : String}
    {limits : Rho5Limits} (h : normalizePath library path limits = .ok normalized) :
    normalizePath library normalized limits = .ok normalized ∧ normalized.toList ≠ [] := by
  obtain ⟨hnul, segments, hs, hne, rfl, hle⟩ := normalizePath_eq_ok.1 h
  have hseg := mem_of_collectSegments hs
  have hparts : ∀ s ∈ segments, '/' ∉ s ∧ nul ∉ s ∧ backslash ∉ s := by
    intro s hmem
    obtain ⟨hsplit, -⟩ := hseg s hmem
    obtain ⟨hslash, hin⟩ := mem_splitOn hsplit
    refine ⟨hslash, fun hc => ?_, fun hc => ?_⟩
    · obtain ⟨c, hc, hcn⟩ := mem_map.1 (hin _ hc)
      split at hcn
      · exact absurd hcn (by decide)
      · exact hnul (hcn ▸ hc)
    · obtain ⟨c, -, hcn⟩ := mem_map.1 (hin _ hc)
      split at hcn
      · exact absurd hcn (by decide)
      · contradiction
  have hmarks : ∀ c ∈ [nul, backslash], c ∉ library.nfc (['/'].intercalate segments) := by
    intro c hc hmem
    have hmark : c ∈ pathMarks ∧ c ≠ '/' := by
      rcases mem_cons.1 hc with rfl | hc
      · exact ⟨by simp [pathMarks], by decide⟩
      · rw [mem_singleton] at hc
        subst hc
        exact ⟨by simp [pathMarks], by decide⟩
    rcases mem_intercalate (hn.mem c hmark.1 _ hmem) with hslash | ⟨s, hsm, hcs⟩
    · exact hmark.2 hslash
    · rcases mem_cons.1 hc with rfl | hc
      · exact (hparts s hsm).2.1 hcs
      · rw [mem_singleton] at hc
        subst hc
        exact (hparts s hsm).2.2 hcs
  have hcomposed := nfc_intercalate hn hne
  have hreplaced : (library.nfc (['/'].intercalate segments)).map (fun c => if c = backslash then '/' else c) =
      library.nfc (['/'].intercalate segments) := by
    have hfix : ∀ c ∈ library.nfc (['/'].intercalate segments), (if c = backslash then '/' else c) = id c := by
      intro c hc
      refine if_neg (fun heq => hmarks backslash (by simp) ?_)
      rwa [← heq]
    rw [map_congr_left hfix, map_id]
  have hsplit : (library.nfc (['/'].intercalate segments)).splitOn '/' = segments.map library.nfc := by
    rw [hcomposed]
    refine splitOn_intercalate '/' ?_ (by simpa using hne)
    intro s hsm hc
    obtain ⟨t, htm, rfl⟩ := mem_map.1 hsm
    exact (hparts t htm).1 (hn.mem '/' (by simp [pathMarks]) t hc)
  have hstay : ∀ s ∈ segments.map library.nfc, IsSegment s := by
    intro s hsm
    obtain ⟨t, htm, rfl⟩ := mem_map.1 hsm
    exact isSegment_nfc hn (hseg t htm).2
  constructor
  · refine normalizePath_eq_ok.2 ⟨?_, segments.map library.nfc, ?_, by simpa using hne, ?_, hle⟩
    · rw [String.toList_ofList]
      exact hmarks nul (by simp)
    · rw [String.toList_ofList, hreplaced, hsplit]
      exact collectSegments_eq_self hstay
    · rw [← hcomposed, hn.idem]
  · rw [String.toList_ofList]
    intro hnil
    have hjoin := hn.eq_nil _ hnil
    obtain ⟨s, rest, rfl⟩ := exists_cons_of_ne_nil hne
    have hfilled := (hseg s mem_cons_self).2.1
    cases rest with
    | nil => exact hfilled (by simpa using hjoin)
    | cons t rest => simp [intercalate_cons_cons] at hjoin

end Rho5

end P5136
