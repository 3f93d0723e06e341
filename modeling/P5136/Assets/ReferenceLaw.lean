import P5136.Assets.EmbeddedReference
import P5136.Assets.FoldedPaths

/-!
# What a reference resolves to

The attempts are listed from the reference itself to the sounds all tracks share, but looked up in the order of their folded
paths. So the earliest attempt that exists wins only where none of those behind it exists and stands before it in that order.
-/

namespace P5136

namespace Assets

open List FirstFound Multimap

/-! ## Effective records and folded paths -/

namespace ReferenceAux

/-- What is effective at a path depends on the folded path only. -/
theorem effective_congr (source : AssetIndex) {left right : String} (h : foldPath left = foldPath right) :
    source.effective left = source.effective right := by
  unfold AssetIndex.effective
  rw [h]

/-- One record is effective at one folded path. -/
theorem foldPath_eq_of_effective (source : AssetIndex) {left right : String} {record : AssetRecord}
    (hl : source.effective left = some record) (hr : source.effective right = some record) :
    foldPath left = foldPath right :=
  (source.effective_eq_some.1 hl).2.symm.trans (source.effective_eq_some.1 hr).2

/-! ## Sorted paths -/

/-- Sorted paths without repetitions find what the sorted paths find. -/
theorem findSome?_sortPaths (source : AssetIndex) (paths : List String) :
    (sortPaths paths).findSome? source.effective =
      (paths.insertionSort fun left right => foldPath left ≤ foldPath right).findSome? source.effective := by
  refine findSome?_destutter (fun left right hsame => ?_) _
  exact effective_congr source (foldPath_eq_of_ignoreCase (Bool.not_eq_false _ ▸ hsame))

/-- Attempts are in order when the sorted ones find the earliest. -/
theorem inOrder_iff (source : AssetIndex) (attempts : List String) :
    InOrder foldPath source.effective attempts ↔ ∀ attempt record,
      Earliest source.effective attempts attempt record →
        (attempts.insertionSort fun left right => foldPath left ≤ foldPath right).findSome? source.effective = some record :=
  (findSome?_insertionSort_iff (fun _ _ => effective_congr source)
    (fun _ _ _ => foldPath_eq_of_effective source) attempts).symm

/-- Paths that are folded differently all stay. -/
theorem sortPaths_perm {paths : List String} (h : paths.Pairwise fun left right => foldPath left ≠ foldPath right) :
    (sortPaths paths).Perm paths := by
  have hperm := perm_insertionSort (fun left right => foldPath left ≤ foldPath right) paths
  have hsorted : (paths.insertionSort fun left right => foldPath left ≤ foldPath right).Pairwise fun left right =>
      foldPath left ≠ foldPath right := (hperm.pairwise_iff fun hne => Ne.symm hne).2 h
  have hchain := (hsorted.imp fun {left right} hne => by
    show eqIgnoreAsciiCase right left = false
    refine Bool.eq_false_iff.2 fun hsame => hne ?_
    exact (foldPath_eq_of_ignoreCase hsame).symm).isChain
  unfold sortPaths
  rw [destutter_of_isChain _ _ hchain]
  exact hperm

/-! ## Normal paths -/

/-- The components that are kept stay names, and the ones among them were there before. -/
theorem isSegment_of_normalizeComponents {kept components out : List (List Char)}
    (h : normalizeComponents kept components = some out) (hkept : ∀ c ∈ kept, Rho5.IsSegment c) :
    ∀ c ∈ out, Rho5.IsSegment c ∧ (c ∈ kept ∨ c ∈ components) := by
  induction components generalizing kept with
  | nil =>
    rw [normalizeComponents] at h
    cases h
    exact fun c hc => ⟨hkept c hc, .inl hc⟩
  | cons component rest ih =>
    rw [normalizeComponents] at h
    split at h
    · intro c hc
      obtain ⟨hseg, hin⟩ := ih h hkept c hc
      exact ⟨hseg, hin.imp_right (mem_cons_of_mem _)⟩
    · rename_i hkeep
      split at h
      · split at h
        · cases h
        · intro c hc
          obtain ⟨hseg, hin⟩ := ih h (fun c hc => hkept c (dropLast_subset _ hc)) c hc
          exact ⟨hseg, hin.imp (dropLast_subset _ ·) (mem_cons_of_mem _)⟩
      · rename_i hparent
        have hname : Rho5.IsSegment component := ⟨fun h => hkeep (.inl h), fun h => hkeep (.inr h), hparent⟩
        intro c hc
        have hkept' : ∀ c ∈ kept ++ [component], Rho5.IsSegment c := by
          intro c hc
          rcases mem_append.1 hc with hc | hc
          · exact hkept c hc
          · rw [mem_singleton.1 hc]
            exact hname
        obtain ⟨hseg, hin⟩ := ih h hkept' c hc
        refine ⟨hseg, ?_⟩
        rcases hin with hin | hin
        · rcases mem_append.1 hin with hin | hin
          · exact .inl hin
          · rw [mem_singleton.1 hin]
            exact .inr mem_cons_self
        · exact .inr (mem_cons_of_mem _ hin)

end ReferenceAux

/-- No component of the path is empty or leads to where it stands or upwards. -/
def CleanPath (path : String) : Prop := ∀ component ∈ (withSlashes path.toList).splitOn '/', Rho5.IsSegment component

/-- What `normalize_virtual_path` returns is clean. -/
theorem cleanPath_of_normalizeVirtualPath {value path : String} (h : normalizeVirtualPath value = some path) :
    CleanPath path := by
  unfold normalizeVirtualPath normalizeVirtual at h
  split at h
  · cases h
  · split at h
    · cases h
    · rename_i components hne hcomponents
      cases h
      have hseg := ReferenceAux.isSegment_of_normalizeComponents hcomponents (by simp)
      -- the components hold no separator of either kind
      have hsplit (c : List Char) (hc : c ∈ components) : '/' ∉ c ∧ '\\' ∉ c := by
        rcases (hseg c hc).2 with hin | hin
        · exact absurd hin (not_mem_nil)
        · obtain ⟨hslash, hmem⟩ := Rho5.mem_splitOn hin
          refine ⟨hslash, fun hback => ?_⟩
          obtain ⟨d, -, hd⟩ := mem_map.1 (hmem _ hback)
          split at hd
          · exact absurd hd (by decide)
          · exact absurd hd ‹_›
      have hwith : withSlashes (intercalate ['/'] components) = intercalate ['/'] components := by
        refine (map_congr_left fun c hc => if_neg ?_).trans (map_id _)
        rintro rfl
        rcases Rho5.mem_intercalate hc with hslash | ⟨c, hc, hback⟩
        · exact absurd hslash (by decide)
        · exact (hsplit c hc).2 hback
      intro c hc
      rw [String.toList_ofList, hwith, splitOn_intercalate _ (fun c hc => (hsplit c hc).1) (fun hnil => hne hnil)] at hc
      exact (hseg c hc).1
    · cases h

/-! ## Files with a base name -/

section

variable (functions : PathFunctions) (source : AssetIndex) (containerPath : String) (track : SelectedTrack) (reference : String)

/-- The path of a file with the base name, outside `zeta`. -/
def Named (name path : String) : Prop :=
  (∃ record ∈ source.effectiveRecords, referencePath functions record = some (foldPath name, path)) ∧
    pathInPrefix path "zeta" = false

/-- The path of the file with the base name, outside `zeta`, that has a better priority than every other one. -/
def BestNamed (name path : String) : Prop :=
  Named functions source name path ∧
    ∀ other, Named functions source name other → other ≠ path → embeddedPathPriority path track < embeddedPathPriority other track

variable {functions} {source}

/-- The path of a listed record is folded like the record's. -/
theorem foldPath_of_referencePath {record : AssetRecord} {entry : String × String}
    (h : referencePath functions record = some entry) : foldPath entry.2 = foldPath record.virtualPath := by
  unfold referencePath at h
  simp only at h
  split at h
  · cases h
  · split at h
    · obtain ⟨name, -, rfl⟩ := Option.map_eq_some_iff.1 h
      exact foldPath_withSlashes _
    · cases h

/-- The paths of a base name are folded differently. -/
theorem pairwise_referencePaths (key : String) :
    (((source.effectiveRecords.filterMap (referencePath functions)).filter (·.1 = key)).map (·.2)).Pairwise
      fun left right => foldPath left ≠ foldPath right := by
  have hrecords : source.effectiveRecords.Pairwise fun left right =>
      foldPath left.virtualPath ≠ foldPath right.virtualPath :=
    (pairwise_map.1 source.sorted).imp fun hlt => hlt.ne
  have hentries : (source.effectiveRecords.filterMap (referencePath functions)).Pairwise fun left right =>
      foldPath left.2 ≠ foldPath right.2 := by
    refine Pairwise.filterMap _ (fun left right hne l hl r hr => ?_) hrecords
    rw [foldPath_of_referencePath hl, foldPath_of_referencePath hr]
    exact hne
  exact pairwise_map.2 (hentries.filter _)

/-- The list of a base name, in any order. -/
theorem values_referencePathIndex (key : String) :
    (values (referencePathIndex functions source) key).Perm
      (((source.effectiveRecords.filterMap (referencePath functions)).filter (·.1 = key)).map (·.2)) := by
  unfold referencePathIndex
  rw [values_mapValues rfl, values_pushed]
  exact ReferenceAux.sortPaths_perm (pairwise_referencePaths key)

/-- The list of a base name has no path twice. -/
theorem nodup_referencePathIndex (key : String) : (values (referencePathIndex functions source) key).Nodup := by
  refine (values_referencePathIndex key).nodup_iff.2 ((pairwise_referencePaths key).imp fun hne heq => ?_)
  exact hne (congrArg foldPath heq)

/-- The list of a base name has the files with that name. -/
theorem mem_referencePathIndex {key path : String} :
    path ∈ values (referencePathIndex functions source) key ↔
      ∃ record ∈ source.effectiveRecords, referencePath functions record = some (key, path) := by
  rw [(values_referencePathIndex key).mem_iff, mem_map]
  constructor
  · rintro ⟨⟨key', path'⟩, hmem, rfl⟩
    obtain ⟨hentry, hkey⟩ := mem_filter.1 hmem
    obtain rfl : key' = key := of_decide_eq_true hkey
    exact mem_filterMap.1 hentry
  · intro h
    exact ⟨(key, path), mem_filter.2 ⟨mem_filterMap.2 h, decide_eq_true rfl⟩, rfl⟩

variable {track}

/-- Pairs in lexical order have their first components in order. -/
theorem fst_le_of_toLex_le {m n : Nat} {s t : String} (h : toLex (m, s) ≤ toLex (n, t)) : m ≤ n := by
  rcases Prod.Lex.toLex_le_toLex.1 h with hlt | ⟨heq, -⟩
  · exact hlt.le
  · exact heq.le

/-- The rank compares priorities first. -/
theorem embeddedPathPriority_le_of_rank {left right : String} (h : embeddedRank track left ≤ embeddedRank track right) :
    embeddedPathPriority left track ≤ embeddedPathPriority right track := by
  unfold embeddedRank at h
  exact fst_le_of_toLex_le h

/-- What the base name resolves to stands before all others, in whatever order they are listed. -/
theorem resolveBasename_eq_some {basenameIndex : FiniteMap String (List String)} {name path : String} :
    resolveBasename basenameIndex track name = some path ↔
      StrictlyLeast (embeddedPathPriority · track)
        ((values basenameIndex (foldPath name)).filter fun path => !pathInPrefix path "zeta") path := by
  unfold resolveBasename values
  cases hlookup : basenameIndex.lookup (foldPath name) with
  | none =>
    refine ⟨fun h => absurd h (by simp), ?_⟩
    rintro ⟨rest, hperm, -⟩
    exact absurd hperm.nil_eq (by simp)
  | some paths =>
    rw [Option.getD_some]
    exact strictlyLeast_iff_sorted (p := (embeddedPathPriority · track))
      (fun _ _ => embeddedPathPriority_le_of_rank) rfl

/-- The base name resolves to the one file that has its priority for itself. -/
theorem resolveBasename_iff {name path : String} :
    resolveBasename (referencePathIndex functions source) track name = some path ↔
      BestNamed functions source track name path := by
  have hmem (path : String) : path ∈ ((values (referencePathIndex functions source) (foldPath name)).filter
      fun path => !pathInPrefix path "zeta") ↔ Named functions source name path := by
    rw [mem_filter, mem_referencePathIndex, Bool.not_eq_true']
    rfl
  rw [resolveBasename_eq_some, strictlyLeast_iff_of_nodup ((nodup_referencePathIndex _).filter _)]
  simp only [hmem]
  rfl

/-- The lists of base names can be in any order. -/
theorem resolveBasename_perm {names names' : FiniteMap String (List String)}
    (h : ∀ key, (values names' key).Perm (values names key)) (name : String) :
    resolveBasename names' track name = resolveBasename names track name := by
  refine Option.ext fun path => ?_
  rw [resolveBasename_eq_some, resolveBasename_eq_some]
  exact StrictlyLeast.perm ((h _).filter _)

/-! ## The law -/

variable {containerPath} {reference} {basenameIndex : FiniteMap String (List String)} {name : String}

/-- The record that the sorted attempts find is what the reference resolves to. -/
theorem resolve_of_found (hname : functions.fileName reference = some name) {record : AssetRecord}
    (h : ((embeddedAttempts containerPath track reference name).insertionSort fun left right =>
      foldPath left ≤ foldPath right).findSome? source.effective = some record) :
    resolveEmbeddedReference functions source basenameIndex containerPath track reference = some record.virtualPath := by
  rw [← ReferenceAux.findSome?_sortPaths] at h
  simp only [resolveEmbeddedReference, hname, Option.bind_eq_bind, Option.bind_some, h]

/-- Where no attempt exists the base name decides. -/
theorem resolve_of_missing (hname : functions.fileName reference = some name)
    (h : ∀ attempt ∈ embeddedAttempts containerPath track reference name, source.effective attempt = none) :
    resolveEmbeddedReference functions source basenameIndex containerPath track reference =
      resolveBasename basenameIndex track name := by
  have hnone : (sortPaths (embeddedAttempts containerPath track reference name)).findSome? source.effective = none := by
    rw [ReferenceAux.findSome?_sortPaths, findSome?_eq_none_iff]
    exact fun attempt hattempt => h attempt ((mem_insertionSort _).1 hattempt)
  simp only [resolveEmbeddedReference, hname, Option.bind_eq_bind, Option.bind_some, hnone]

/-- A reference without a file name resolves to nothing. -/
theorem resolve_of_unnamed (h : functions.fileName reference = none) :
    resolveEmbeddedReference functions source basenameIndex containerPath track reference = none := by
  simp only [resolveEmbeddedReference, h, Option.bind_eq_bind, Option.bind_none]

/-- Whether one of the attempts exists, and then which of them comes first. -/
theorem missing_or_earliest (attempts : List String) :
    (∀ attempt ∈ attempts, source.effective attempt = none) ∨
      ∃ attempt record, Earliest source.effective attempts attempt record := by
  cases h : attempts.findSome? source.effective with
  | none => exact .inl (findSome?_eq_none_iff.1 h)
  | some record =>
    obtain ⟨attempt, hearliest⟩ := findSome?_eq_some.1 h
    exact .inr ⟨attempt, record, hearliest⟩

/-- The attempts are clean. -/
theorem cleanPath_of_mem_embeddedAttempts {attempt : String}
    (h : attempt ∈ embeddedAttempts containerPath track reference name) : CleanPath attempt := by
  obtain ⟨value, hvalue, rfl⟩ := mem_filterMap.1 h
  simp only [mem_cons, not_mem_nil, or_false] at hvalue
  rcases hvalue with h | h | h | h | h | h | h | h | h <;> exact cleanPath_of_normalizeVirtualPath h.symm

variable (functions source containerPath track reference)

/-- The reference resolves to the earliest of its listed attempts that exists, else to the file that has the best priority for
its base name, to a clean path, and whatever the order of the files with its base name. -/
structure ResolvesAsListed : Prop where
  unnamed : functions.fileName reference = none →
    resolveEmbeddedReference functions source (referencePathIndex functions source) containerPath track reference = none
  earliest : ∀ name attempt record, functions.fileName reference = some name →
    Earliest source.effective (embeddedAttempts containerPath track reference name) attempt record →
    resolveEmbeddedReference functions source (referencePathIndex functions source) containerPath track reference =
      some record.virtualPath
  basename : ∀ name, functions.fileName reference = some name →
    (∀ attempt ∈ embeddedAttempts containerPath track reference name, source.effective attempt = none) →
    ∀ path, resolveEmbeddedReference functions source (referencePathIndex functions source) containerPath track reference =
      some path ↔ BestNamed functions source track name path
  attempts : ∀ name, ∀ attempt ∈ embeddedAttempts containerPath track reference name, CleanPath attempt
  clean : ∀ path, resolveEmbeddedReference functions source (referencePathIndex functions source) containerPath track
    reference = some path → CleanPath path
  unordered : ∀ names : FiniteMap String (List String),
    (∀ key, (values names key).Perm (values (referencePathIndex functions source) key)) →
    resolveEmbeddedReference functions source names containerPath track reference =
      resolveEmbeddedReference functions source (referencePathIndex functions source) containerPath track reference

/-- No attempt behind the earliest one that exists is both there and before it in the order of folded paths, and the index holds
the file it stands for, or the one file that is best for the base name, under a clean path. -/
structure FoundInOrder : Prop where
  inOrder : ∀ name, functions.fileName reference = some name →
    InOrder foldPath source.effective (embeddedAttempts containerPath track reference name)
  found : ∀ name attempt record, functions.fileName reference = some name →
    Earliest source.effective (embeddedAttempts containerPath track reference name) attempt record →
    CleanPath record.virtualPath
  named : ∀ name path, functions.fileName reference = some name →
    (∀ attempt ∈ embeddedAttempts containerPath track reference name, source.effective attempt = none) →
    BestNamed functions source track name path → CleanPath path

variable {functions source containerPath track reference}

/-- Attempts that are found in order find the earliest one. -/
theorem FoundInOrder.resolve (h : FoundInOrder functions source containerPath track reference) {attempt : String}
    {record : AssetRecord} (hname : functions.fileName reference = some name)
    (hearliest : Earliest source.effective (embeddedAttempts containerPath track reference name) attempt record) :
    resolveEmbeddedReference functions source basenameIndex containerPath track reference = some record.virtualPath := by
  refine resolve_of_found hname ?_
  exact (ReferenceAux.inOrder_iff source _).1 (h.inOrder name hname) attempt record hearliest

/-- A reference that resolves to the earliest of its attempts has them in order. -/
theorem ResolvesAsListed.inOrder (h : ResolvesAsListed functions source containerPath track reference)
    (hname : functions.fileName reference = some name) :
    InOrder foldPath source.effective (embeddedAttempts containerPath track reference name) := by
  refine (ReferenceAux.inOrder_iff source _).2 fun attempt record hearliest => ?_
  have hresolve := h.earliest name attempt record hname hearliest
  cases hfound : ((embeddedAttempts containerPath track reference name).insertionSort fun left right =>
      foldPath left ≤ foldPath right).findSome? source.effective with
  | none =>
    obtain ⟨before, after, hl, -, hattempt⟩ := hearliest
    have hmissing := findSome?_eq_none_iff.1 hfound attempt ((mem_insertionSort _).2 (by simp [hl]))
    exact absurd (hmissing.symm.trans hattempt) (by simp)
  | some other =>
    -- records are told apart by their paths
    rw [resolve_of_found hname hfound] at hresolve
    have hpath : other.virtualPath = record.virtualPath := Option.some.inj hresolve
    obtain ⟨other', hother'⟩ := findSome?_eq_some.1 hfound
    obtain ⟨-, -, -, -, hother⟩ := hother'
    obtain ⟨-, -, -, -, hrecord⟩ := hearliest
    rw [source.record_inj (source.effective_eq_some.1 hother).1 (source.effective_eq_some.1 hrecord).1
      (congrArg foldPath hpath)]

variable (functions source containerPath track reference)

/-- A reference resolves as its attempts are listed exactly when they are found in order. -/
theorem resolvesAsListed_iff :
    ResolvesAsListed functions source containerPath track reference ↔
      FoundInOrder functions source containerPath track reference := by
  constructor
  · intro h
    refine ⟨fun name hname => h.inOrder hname, fun name attempt record hname hearliest => ?_,
      fun name path hname hmissing hbest => ?_⟩
    · exact h.clean _ (h.earliest name attempt record hname hearliest)
    · exact h.clean _ ((h.basename name hname hmissing path).2 hbest)
  · intro h
    have hbasename {name path : String} (hname : functions.fileName reference = some name)
        (hmissing : ∀ attempt ∈ embeddedAttempts containerPath track reference name, source.effective attempt = none) :
        resolveEmbeddedReference functions source (referencePathIndex functions source) containerPath track reference =
          some path ↔ BestNamed functions source track name path := by
      rw [resolve_of_missing hname hmissing, resolveBasename_iff]
    refine ⟨resolve_of_unnamed, fun name attempt record hname => h.resolve hname, fun name hname hmissing path =>
      hbasename hname hmissing, fun name attempt => cleanPath_of_mem_embeddedAttempts, fun path hpath => ?_,
      fun names hnames => ?_⟩
    all_goals cases hname : functions.fileName reference with
      | none => simp_all [resolve_of_unnamed]
      | some name => ?_
    · rcases missing_or_earliest (embeddedAttempts containerPath track reference name) with hmissing | ⟨attempt, record, hearliest⟩
      · exact h.named name path hname hmissing ((hbasename hname hmissing).1 hpath)
      · rw [h.resolve hname hearliest] at hpath
        rw [← Option.some.inj hpath]
        exact h.found name attempt record hname hearliest
    · rcases missing_or_earliest (embeddedAttempts containerPath track reference name) with hmissing | ⟨attempt, record, hearliest⟩
      · rw [resolve_of_missing hname hmissing, resolve_of_missing hname hmissing, resolveBasename_perm hnames]
      · rw [h.resolve hname hearliest, h.resolve hname hearliest]

end

/-- A texture that only a track has. -/
def trackTexture : AssetIndex where
  effectiveRecords := [⟨"track/forest_I01/tree.dds", 1, .rho5 0⟩]
  sorted := pairwise_singleton ..
  extract := fun _ => .ok []

/-- Beside its container the texture exists, and nowhere else: it is found as its attempts are listed. -/
theorem resolvesAsListed_iff_track :
    ResolvesAsListed .posix trackTexture "track/forest_I01/track.1s" ⟨"forest_I01", "forest"⟩ "tree.dds" := by
  have hrecord (path : String) (record : AssetRecord) (h : trackTexture.effective path = some record) :
      record.virtualPath = "track/forest_I01/tree.dds" ∧ foldPath path = foldPath "track/forest_I01/tree.dds" := by
    obtain ⟨hmem, hfold⟩ := trackTexture.effective_eq_some.1 h
    obtain rfl := mem_singleton.1 hmem
    exact ⟨rfl, hfold.symm⟩
  refine (resolvesAsListed_iff ..).2 ⟨fun _ _ _ a _ _ _ ha b _ hb => ?_, fun _ _ record _ ⟨_, _, _, _, hfound⟩ => ?_,
    fun name _ hname hmissing _ => ?_⟩
  · obtain ⟨_, ha⟩ := Option.isSome_iff_exists.1 ha
    obtain ⟨_, hb⟩ := Option.isSome_iff_exists.1 hb
    rw [(hrecord a _ ha).2, (hrecord b _ hb).2]
  · rw [(hrecord _ record hfound).1]
    unfold CleanPath Rho5.IsSegment
    decide +kernel
  · obtain rfl : "tree.dds" = name := Option.some.inj hname
    exact absurd (hmissing "track/forest_I01/tree.dds" (by decide +kernel)) (by decide +kernel)

/-- A texture that a track has and that the themes share, too. -/
def sharedTexture : AssetIndex where
  effectiveRecords := [⟨"theme/common/tree.dds", 1, .rho5 0⟩, ⟨"track/forest_I01/tree.dds", 1, .rho5 1⟩]
  sorted := by decide +kernel
  extract := fun _ => .ok []

/-- Beside its container the texture exists, but the one of the themes is found before it. -/
theorem resolvesAsListed_false :
    ¬ResolvesAsListed .posix sharedTexture "track/forest_I01/track.1s" ⟨"forest_I01", "forest"⟩ "tree.dds" := by
  intro h
  have hearliest : Earliest sharedTexture.effective
      (embeddedAttempts "track/forest_I01/track.1s" ⟨"forest_I01", "forest"⟩ "tree.dds" "tree.dds")
      "track/forest_I01/tree.dds" ⟨"track/forest_I01/tree.dds", 1, .rho5 1⟩ :=
    ⟨["tree.dds"], (embeddedAttempts "track/forest_I01/track.1s" ⟨"forest_I01", "forest"⟩ "tree.dds" "tree.dds").drop 2,
      by decide +kernel, by decide +kernel, by decide +kernel⟩
  have hresolve := h.earliest "tree.dds" _ _ (by decide +kernel) hearliest
  revert hresolve
  decide +kernel

end Assets

end P5136
