import Mathlib.Data.List.TakeWhile
import P5136.Assets.PlanFidelity

/-!
# What a staging writes is what was planned

When the manifests list what was planned, the merge holds each planned file once, and an alias for each region parameter that the
first asset with that file asks for. The resource archives hold just these, extracted again with the planned digests.
-/

namespace P5136

namespace Assets

open FiniteMap Checks List

/-! ## Aliases -/

namespace AliasAux

/-- A text split at the last occurrence of a character. -/
theorem rsplitOnce_eq_some {c : Char} {cs before behind : List Char} (h : rsplitOnce c cs = some (before, behind)) :
    cs = before ++ c :: behind ∧ c ∉ behind := by
  unfold rsplitOnce at h
  split at h
  · rename_i hmem
    obtain ⟨rfl, rfl⟩ := Prod.mk.inj (Option.some.inj h)
    have hne : cs.reverse.dropWhile (· != c) ≠ [] := by
      intro hnil
      have := dropWhile_eq_nil_iff.1 hnil c (mem_reverse.2 hmem)
      simp at this
    obtain ⟨d, rest, hdrop⟩ := exists_cons_of_ne_nil hne
    have hd : d = c := by
      have := head_dropWhile_not (· != c) hne
      simpa [hdrop] using this
    subst hd
    have hsplit : cs.reverse = cs.reverse.takeWhile (· != d) ++ d :: rest := by
      rw [← hdrop]
      exact takeWhile_append_dropWhile.symm
    have hrest : cs.reverse.drop ((cs.reverse.takeWhile (· != d)).length + 1) = rest := by
      generalize cs.reverse.takeWhile (· != d) = front at hsplit ⊢
      rw [hsplit, ← drop_drop, drop_left]
      rfl
    refine ⟨?_, ?_⟩
    · rw [hrest]
      have := congrArg reverse hsplit
      simpa using this
    · intro hd
      have := mem_takeWhile_imp (mem_reverse.1 hd)
      simp at this
  · cases h

/-- The folded path of a file in a directory ends with the folded name of the file. -/
theorem foldPath_file (directory : List Char) {file : List Char} (hne : file ≠ []) (hslash : '/' ∉ file)
    (hbackslash : '\\' ∉ file) :
    (foldPath (.ofList (directory ++ '/' :: file))).toList =
      ((withSlashes directory ++ ['/']).dropWhile (· == '/')).map Char.toLower ++ file.map Char.toLower := by
  have hfile : withSlashes file = file := by
    refine (map_congr_left fun c hc => if_neg ?_).trans (map_id _)
    rintro rfl
    exact hbackslash hc
  have hwhole : withSlashes (directory ++ '/' :: file) = withSlashes directory ++ ['/'] ++ file := by
    simp only [withSlashes, map_append, map_cons] at hfile ⊢
    simp [hfile]
  -- nothing of the file is trimmed at either end
  have htrim : ∀ cs : List Char, cs ≠ [] → '/' ∉ cs → ∀ l, (cs ++ l).dropWhile (· == '/') = cs ++ l := by
    intro cs hcs hno l
    obtain ⟨d, rest, rfl⟩ := exists_cons_of_ne_nil hcs
    refine dropWhile_cons_of_neg ?_
    have hd : d ≠ '/' := fun hd => hno (hd ▸ mem_cons_self)
    simpa using hd
  have hfront : ∀ l : List Char, (l ++ file).dropWhile (· == '/') = l.dropWhile (· == '/') ++ file := by
    intro l
    rw [dropWhile_append]
    split
    · rename_i hnil
      have := htrim file hne hslash []
      rw [append_nil] at this
      rw [this, isEmpty_iff.1 hnil, nil_append]
    · rfl
  have hback : ∀ l : List Char, ((l ++ file).reverse.dropWhile (· == '/')).reverse = l ++ file := by
    intro l
    rw [reverse_append, htrim file.reverse (by simpa using hne) (by simpa using hslash)]
    simp
  rw [foldPath, String.toList_ofList, String.toList_ofList, hwhole, trimMatches, hfront, hback, map_append]

/-- What an alias is named after: a region parameter of China, in some directory. -/
theorem exists_of_alias {category path target : String} (h : koreanRegionParamAlias category path = some target) :
    ∃ directory file ext : List Char, ext ∈ ["xml".toList, "bml".toList] ∧ path.toList = directory ++ '/' :: file ∧
      '/' ∉ file ∧ file.map Char.toLower = "param@cn.".toList ++ ext ∧
        target = .ofList (directory ++ '/' :: ("param@kr.".toList ++ ext)) := by
  unfold koreanRegionParamAlias at h
  cases hsplit : rsplitOnce '/' path.toList with
  | none => simp [hsplit] at h
  | some split =>
    obtain ⟨directory, file⟩ := split
    obtain ⟨hpath, hslash⟩ := rsplitOnce_eq_some hsplit
    simp only [hsplit, eqIgnoreAsciiCase, beq_iff_eq, String.toList_ofList] at h
    split at h
    · rename_i hkart
      exact ⟨directory, file, "xml".toList, by simp, hpath, hslash, hkart.2, (Option.some.inj h).symm⟩
    · split at h
      · rename_i hpet
        exact ⟨directory, file, "bml".toList, by simp, hpath, hslash, hpet.2, (Option.some.inj h).symm⟩
      · cases h

/-- The names of the region parameters fold to themselves. -/
theorem regionNames : ∀ ext ∈ ["xml".toList, "bml".toList], ext.length = 3 ∧
    ∀ region ∈ ["param@cn.".toList, "param@kr.".toList],
      (region ++ ext).map Char.toLower = region ++ ext ∧ '/' ∉ region ++ ext ∧ '\\' ∉ region ++ ext := by
  decide

/-- An alias and the file it is for fold to the same, up to the region. -/
theorem foldPath_alias {category path target : String} (h : koreanRegionParamAlias category path = some target) :
    ∃ stem ext : List Char, ext.length = 3 ∧ (foldPath path).toList = stem ++ ("param@cn.".toList ++ ext) ∧
      (foldPath target).toList = stem ++ ("param@kr.".toList ++ ext) := by
  obtain ⟨directory, file, ext, hext, hpath, hslash, hfile, rfl⟩ := exists_of_alias h
  obtain ⟨hlength, hnames⟩ := regionNames ext hext
  have hbackslash : '\\' ∉ file := by
    intro hmem
    have := mem_map_of_mem (f := Char.toLower) hmem
    rw [hfile] at this
    exact (hnames _ (by simp)).2.2 this
  have hne : file ≠ [] := by
    rintro rfl
    simp at hfile
  refine ⟨((withSlashes directory ++ ['/']).dropWhile (· == '/')).map Char.toLower, ext, hlength, ?_, ?_⟩
  · have hofList : path = .ofList (directory ++ '/' :: file) := by rw [← hpath, String.ofList_toList]
    rw [hofList, foldPath_file directory hne hslash hbackslash, hfile]
  · obtain ⟨hlower, hs, hb⟩ := hnames "param@kr.".toList (by simp)
    rw [foldPath_file directory (by simp) hs hb, hlower]

end AliasAux

/-- Aliases with the same folded path are for files with the same folded path. -/
theorem foldPath_eq_of_alias {category path target category' path' target' : String}
    (h : koreanRegionParamAlias category path = some target)
    (h' : koreanRegionParamAlias category' path' = some target') (hfold : foldPath target = foldPath target') :
    foldPath path = foldPath path' := by
  obtain ⟨stem, ext, hext, hpath, htarget⟩ := AliasAux.foldPath_alias h
  obtain ⟨stem', ext', hext', hpath', htarget'⟩ := AliasAux.foldPath_alias h'
  rw [← String.toList_inj, htarget, htarget'] at hfold
  obtain ⟨hstem, hregion⟩ := append_inj' hfold (by simp [hext, hext'])
  rw [← String.toList_inj, hpath, hpath', hstem, append_cancel_left hregion]

/-! ## The files of a selection -/

/-- A planned file of a selected asset. -/
structure PlannedItem where
  category : String
  path : String
  sha256 : String
deriving DecidableEq

/-- The planned files of the selected assets, in their order. -/
def plannedItems (selected : List AssetPlan) : List PlannedItem :=
  selected.flatMap fun asset => asset.files.map fun file => ⟨asset.category, file.virtualPath, file.sha256⟩

/-- The first of some files at a folded path. -/
def firstAt (items : List PlannedItem) (folded : String) : Option PlannedItem :=
  items.find? fun item => foldPath item.path == folded

/-- The file as it is to be staged. -/
def PlannedItem.pending (item : PlannedItem) : PendingFile := ⟨item.path, item.path, item.sha256⟩

/-- The alias that the asset of a file asks for. -/
def PlannedItem.wanted (item : PlannedItem) : Option (String × PendingFile) :=
  (koreanRegionParamAlias item.category item.path).map fun path => (item.category, ⟨path, item.path, item.sha256⟩)

/-- The file that is found first is one of the files, at the path. -/
theorem mem_of_firstAt {items : List PlannedItem} {folded : String} {item : PlannedItem}
    (h : firstAt items folded = some item) : item ∈ items ∧ foldPath item.path = folded := by
  have hfold := find?_some h
  exact ⟨mem_of_find?_eq_some h, by simpa using hfold⟩

/-- None is found where none of the files is. -/
theorem firstAt_eq_none {items : List PlannedItem} {folded : String} :
    firstAt items folded = none ↔ ∀ item ∈ items, foldPath item.path ≠ folded := by
  simp [firstAt]

/-- One more file is found where none was before it. -/
theorem firstAt_concat (items : List PlannedItem) (item : PlannedItem) (folded : String) :
    firstAt (items ++ [item]) folded = (firstAt items folded).or (if foldPath item.path = folded then some item else none) := by
  simp [firstAt, find?_append, find?_singleton]

/-! ## Merging -/

/-- What some files have been merged to. -/
structure Merged (items : List PlannedItem) (merge : Merge) : Prop where
  pending : ∀ folded, merge.pending.lookup folded = (firstAt items folded).map PlannedItem.pending
  aliases : ∀ wanted, wanted ∈ merge.aliases ↔
    ∃ item, firstAt items (foldPath item.path) = some item ∧ item.wanted = some wanted

/-- One more file. -/
theorem Merged.mergeEntry {items : List PlannedItem} {merge merge' : Merge} {item : PlannedItem}
    (hm : Merged items merge) (h : mergeEntry item.category merge item.path item.sha256 = .ok merge') :
    Merged (items ++ [item]) merge' := by
  unfold Assets.mergeEntry at h
  rw [hm.pending] at h
  cases hfirst : firstAt items (foldPath item.path) with
  | some first =>
    -- the file was merged already
    simp only [hfirst, Option.map_some] at h
    split at h
    · obtain rfl := Except.ok.inj h
      have hsame : ∀ folded, firstAt (items ++ [item]) folded = firstAt items folded := by
        intro folded
        rw [firstAt_concat]
        split
        · rename_i heq
          rw [← heq, hfirst, Option.some_or]
        · rw [Option.or_none]
      exact ⟨fun folded => by rw [hsame, hm.pending], fun wanted => by simp only [hsame, hm.aliases]⟩
    · cases h
  | none =>
    simp only [hfirst, Option.map_none] at h
    obtain rfl := Except.ok.inj h
    refine ⟨fun folded => ?_, fun wanted => ?_⟩
    · rw [lookup_insert, firstAt_concat, hm.pending]
      by_cases hfold : folded = foldPath item.path
      · subst hfold
        simp [hfirst, PlannedItem.pending]
      · rw [if_neg hfold, if_neg (fun h => hfold h.symm), Option.or_none]
    · have hold : (∃ other, firstAt (items ++ [item]) (foldPath other.path) = some other ∧ other.wanted = some wanted) ↔
          wanted ∈ merge.aliases ∨ item.wanted = some wanted := by
        rw [hm.aliases]
        constructor
        · rintro ⟨other, hother, hwanted⟩
          rw [firstAt_concat] at hother
          cases hbefore : firstAt items (foldPath other.path) with
          | some found =>
            rw [hbefore, Option.some_or] at hother
            exact .inl ⟨other, hbefore.trans hother, hwanted⟩
          | none =>
            rw [hbefore, Option.none_or] at hother
            split at hother
            · obtain rfl := Option.some.inj hother
              exact .inr hwanted
            · cases hother
        · rintro (⟨other, hother, hwanted⟩ | hwanted)
          · exact ⟨other, by rw [firstAt_concat, hother, Option.some_or], hwanted⟩
          · exact ⟨item, by rw [firstAt_concat, hfirst, Option.none_or, if_pos rfl], hwanted⟩
      rw [hold]
      unfold PlannedItem.wanted
      cases koreanRegionParamAlias item.category item.path with
      | none => simp
      | some path => simp [eq_comm]

/-- Some more files. -/
theorem Merged.mergeEntries {items more : List PlannedItem} {merge merge' : Merge} (hm : Merged items merge)
    (h : more.foldlM (fun merge item => Assets.mergeEntry item.category merge item.path item.sha256) merge = .ok merge') :
    Merged (items ++ more) merge' := by
  induction more generalizing items merge with
  | nil =>
    obtain rfl := Except.ok.inj h
    rwa [append_nil]
  | cons item more ih =>
    rw [foldlM_cons] at h
    obtain ⟨merge₁, hmerge, h⟩ := bind_eq_ok.1 h
    have := ih (hm.mergeEntry hmerge) h
    rwa [append_assoc, singleton_append] at this

/-- The manifest of an asset that lists its files. -/
theorem Merged.mergeAsset {manifests : FiniteMap String DraftManifest} {items : List PlannedItem} {merge merge' : Merge}
    {asset : AssetPlan} (hm : Merged items merge) (hasset : ManifestOf manifests asset)
    (h : mergeAsset manifests merge asset = .ok merge') : Merged (items ++ plannedItems [asset]) merge' := by
  unfold Assets.mergeAsset at h
  simp only [bind_eq_ok, orElse_eq_ok] at h
  obtain ⟨manifest, hmanifest, x, -, y, -, h⟩ := h
  obtain ⟨manifest', hmanifest', hlisted⟩ := hasset
  obtain rfl : manifest = manifest' := Option.some.inj (hmanifest.symm.trans hmanifest')
  refine hm.mergeEntries ?_
  have hentries : manifest.entries.foldlM
      (fun merge entry => Assets.mergeEntry asset.category merge entry.targetPath entry.expectedSha256) merge =
      manifest.listed.foldlM (fun merge file => Assets.mergeEntry asset.category merge file.1 file.2) merge := by
    rw [DraftManifest.listed, foldlM_map]
  rw [hentries, hlisted, listed, foldlM_map] at h
  rw [plannedItems, flatMap_singleton, foldlM_map]
  exact h

/-- The manifests of some assets. -/
theorem Merged.mergeAssets {manifests : FiniteMap String DraftManifest} {selected : List AssetPlan}
    {items : List PlannedItem} {merge merge' : Merge} (hm : Merged items merge)
    (hselected : ∀ asset ∈ selected, ManifestOf manifests asset)
    (h : selected.foldlM (Assets.mergeAsset manifests) merge = .ok merge') :
    Merged (items ++ plannedItems selected) merge' := by
  induction selected generalizing items merge with
  | nil =>
    obtain rfl := Except.ok.inj h
    simpa [plannedItems] using hm
  | cons asset selected ih =>
    rw [foldlM_cons] at h
    obtain ⟨merge₁, hmerge, h⟩ := bind_eq_ok.1 h
    have hfirst := hm.mergeAsset (hselected asset mem_cons_self) hmerge
    have := ih hfirst (fun other hother => hselected other (mem_cons_of_mem _ hother)) h
    simpa [plannedItems] using this

/-- What the aliases add: at each folded path without a file, the first of them. -/
theorem lookup_addAliases (aliases : List (String × PendingFile)) (pending : FiniteMap String PendingFile) (folded : String) :
    (aliases.foldl addAlias pending).lookup folded =
      (pending.lookup folded).or ((aliases.find? fun wanted => foldPath wanted.2.path == folded).map (·.2)) := by
  induction aliases generalizing pending with
  | nil => simp
  | cons wanted aliases ih =>
    rw [foldl_cons, ih, addAlias, find?_cons]
    by_cases hfold : foldPath wanted.2.path = folded
    · subst hfold
      cases hlookup : pending.lookup (foldPath wanted.2.path) with
      | some file => simp [hlookup]
      | none => simp
    · rw [beq_false_of_ne hfold]
      split
      · rfl
      · rw [lookup_insert, if_neg (fun h => hfold h.symm)]

/-! ## Staged files -/

/-- The planned file is of a kind that is wanted under a second path, and no planned file has that path. -/
def AliasWanted (selected : List AssetPlan) (item : PlannedItem) (path : String) : Prop :=
  koreanRegionParamAlias item.category item.path = some path ∧
    ∀ other ∈ plannedItems selected, foldPath other.path ≠ foldPath path

/-- For every alias that is wanted, the first selected asset with the file wants it too. -/
def AliasesKept (selected : List AssetPlan) : Prop :=
  ∀ item ∈ plannedItems selected, ∀ path, AliasWanted selected item path →
    ∀ first, firstAt (plannedItems selected) (foldPath item.path) = some first →
      koreanRegionParamAlias first.category first.path = some path

/-- What is pending for a selection, when the manifests list what was planned. -/
structure Pending (selected : List AssetPlan) (pending : FiniteMap String PendingFile) : Prop where
  /-- At the folded path of a planned file is the first of the planned files with that path. -/
  planned : ∀ folded item, firstAt (plannedItems selected) folded = some item → pending.lookup folded = some item.pending
  /-- At any other folded path is an alias that the first asset with its file wants, if there is one. -/
  aliased : ∀ folded, firstAt (plannedItems selected) folded = none → ∀ file,
    pending.lookup folded = some file ↔ foldPath file.path = folded ∧
      ∃ item, firstAt (plannedItems selected) (foldPath item.path) = some item ∧ item.wanted = some (item.category, file)

/-- What is pending after the merge and the aliases. -/
theorem pending_of_pendingFiles {manifests : FiniteMap String DraftManifest} {selected : List AssetPlan}
    {pending : FiniteMap String PendingFile} (hselected : ∀ asset ∈ selected, ManifestOf manifests asset)
    (h : pendingFiles manifests selected = .ok pending) : Pending selected pending := by
  unfold pendingFiles at h
  obtain ⟨merge, hmerge, h⟩ := bind_eq_ok.1 h
  obtain rfl := Except.ok.inj h
  have hm : Merged (plannedItems selected) merge := by
    have hempty : Merged [] ⟨∅, []⟩ := ⟨fun _ => rfl, by simp [firstAt]⟩
    simpa using hempty.mergeAssets hselected hmerge
  refine ⟨fun folded item hitem => ?_, fun folded hnone file => ?_⟩
  · rw [lookup_addAliases, hm.pending, hitem, Option.map_some, Option.some_or]
  · rw [lookup_addAliases, hm.pending, hnone, Option.map_none, Option.none_or]
    constructor
    · intro hfile
      obtain ⟨wanted, hwanted, rfl⟩ := Option.map_eq_some_iff.1 hfile
      have hfold := find?_some hwanted
      obtain ⟨item, hitem, heq⟩ := (hm.aliases wanted).1 (mem_of_find?_eq_some hwanted)
      refine ⟨by simpa using hfold, item, hitem, ?_⟩
      obtain ⟨path, -, rfl⟩ := Option.map_eq_some_iff.1 heq
      exact heq
    · rintro ⟨rfl, item, hitem, heq⟩
      -- an alias at the same folded path is for the same file
      cases hfind : merge.aliases.find? fun wanted => foldPath wanted.2.path == foldPath file.path with
      | none =>
        have := find?_eq_none.1 hfind _ ((hm.aliases _).2 ⟨item, hitem, heq⟩)
        simp at this
      | some wanted =>
        have hfold := find?_some hfind
        obtain ⟨other, hother, hwanted⟩ := (hm.aliases wanted).1 (mem_of_find?_eq_some hfind)
        obtain ⟨path, hpath, hp⟩ := Option.map_eq_some_iff.1 heq
        obtain ⟨path', hpath', hp'⟩ := Option.map_eq_some_iff.1 hwanted
        have hsame : foldPath other.path = foldPath item.path := by
          refine foldPath_eq_of_alias hpath' hpath ?_
          rw [← hp', ← (Prod.mk.inj hp).2] at hfold
          simpa using hfold
        rw [hsame, hitem] at hother
        obtain rfl := Option.some.inj hother
        rw [heq] at hwanted
        rw [← Option.some.inj hwanted]
        rfl

/-- Each pending file stands at its own folded path. -/
theorem Pending.foldPath_eq {selected : List AssetPlan} {pending : FiniteMap String PendingFile}
    (hp : Pending selected pending) {folded : String} {file : PendingFile} (h : pending.lookup folded = some file) :
    foldPath file.path = folded := by
  cases hfirst : firstAt (plannedItems selected) folded with
  | some item =>
    rw [hp.planned folded item hfirst] at h
    obtain rfl := Option.some.inj h
    exact (mem_of_firstAt hfirst).2
  | none => exact ((hp.aliased folded hfirst file).1 h).1

/-! ## Archives -/

/-- The chunks hold the entries, in order. -/
theorem flatten_partitionFrom (entries : List Rho5WriteEntry) (current : List Rho5WriteEntry) (currentBytes : Nat) :
    (partitionFrom current currentBytes entries).flatten = current ++ entries := by
  induction entries generalizing current currentBytes with
  | nil =>
    unfold partitionFrom
    split
    · rename_i hnil
      simp [hnil]
    · simp
  | cons entry entries ih =>
    unfold partitionFrom
    split
    · rw [flatten_cons, ih, singleton_append]
    · rw [ih, append_assoc, singleton_append]

/-- There are as many archive names as are asked for. -/
theorem length_sequentialArchiveNames {first : String} {count : Nat} {names : List String}
    (h : sequentialArchiveNames first count = some names) : names.length = count := by
  unfold sequentialArchiveNames at h
  simp only [Option.bind_eq_bind, Option.bind_eq_some_iff] at h
  obtain ⟨ext, -, ⟨stemStart, suffix⟩, -, h⟩ := h
  split at h
  · cases h
  · obtain ⟨firstNumber, -, h⟩ := Option.bind_eq_some_iff.1 h
    split at h
    · obtain rfl := Option.some.inj h
      simp
    · cases h

/-- What a staging does: the pending files are extracted, and the archives hold their entries. -/
theorem stageCompatibleInner_eq_ok {library : PlanLibrary} {stage : StageLibrary} {source : AssetIndex} {plan : PlanOutput}
    {categories : List String} {names : ArchiveNames} {selectedAssets : Option (List String)}
    {archives : List (String × List Rho5WriteEntry)}
    (h : stageCompatibleInner library stage source plan categories names selectedAssets = .ok archives) :
    ∃ pending files, pendingFiles plan.manifests (selectAssets categories selectedAssets plan.report.assets) = .ok pending ∧
      files.Perm (values pending) ∧
      Forall₂ (fun file entry => extractPending library stage source file = .ok entry) files
        (archives.flatMap (·.2)) := by
  unfold stageCompatibleInner at h
  simp only [bind_eq_ok, orElse_eq_ok] at h
  obtain ⟨-, -, -, -, -, -, -, -, pending, hpending, entries, hentries, archiveNames, hnames, -, -, -, -, h⟩ := h
  obtain rfl := Except.ok.inj h
  refine ⟨pending, (values pending).insertionSort fun a b => foldPath a.path ≤ foldPath b.path, hpending,
    perm_insertionSort _ _, ?_⟩
  have hlength := length_sequentialArchiveNames hnames
  have hflat : (archiveNames.zip (partitionEntries entries)).flatMap (·.2) = entries := by
    rw [flatMap_def, map_snd_zip (by omega), partitionEntries, flatten_partitionFrom, nil_append]
  rw [hflat]
  exact traverse_eq_ok.1 hentries

/-- What a file that is extracted again becomes. -/
theorem extractPending_eq_ok {library : PlanLibrary} {stage : StageLibrary} {source : AssetIndex} {file : PendingFile}
    {entry : Rho5WriteEntry} (h : extractPending library stage source file = .ok entry) :
    entry.path = file.path ∧ ∃ record bytes changed, source.effective file.sourcePath = some record ∧
      source.extract record = .ok bytes ∧ stage.normalizeImportedXunResource file.path bytes = .ok (entry.data, changed) := by
  unfold extractPending at h
  simp only [bind_eq_ok, orElse_eq_ok] at h
  obtain ⟨record, hrecord, bytes, hbytes, x, -, ⟨data, changed⟩, hdata, h⟩ := h
  obtain rfl := Except.ok.inj h
  refine ⟨rfl, record, bytes, changed, hrecord, ?_, ?_⟩
  · cases he : source.extract record with
    | error e => simp [he, mapError_error] at hbytes
    | ok b => simpa [he, mapError_ok] using hbytes
  · cases he : stage.normalizeImportedXunResource file.path bytes with
    | error e => simp [he, mapError_error] at hdata
    | ok b => simpa [he, mapError_ok] using hdata

/-- An entry has the bytes of a planned file, read again with the planned digest and normalized, at a path. -/
def Carries (library : PlanLibrary) (stage : StageLibrary) (source : AssetIndex) (item : PlannedItem) (path : String)
    (entry : Rho5WriteEntry) : Prop :=
  entry.path = path ∧ ∃ record bytes changed, source.effective item.path = some record ∧ source.extract record = .ok bytes ∧
    hex (library.sha256 bytes) = item.sha256 ∧ stage.normalizeImportedXunResource path bytes = .ok (entry.data, changed)

/-- The archives of a staging hold exactly the planned files of the selected assets, and the aliases that are wanted, each path
once up to case. -/
structure ArchivesFaithful (library : PlanLibrary) (stage : StageLibrary) (source : AssetIndex) (selected : List AssetPlan)
    (archives : List (String × List Rho5WriteEntry)) : Prop where
  once : ((archives.flatMap (·.2)).map fun entry => foldPath entry.path).Nodup
  planned : ∀ item ∈ plannedItems selected, ∃ entry ∈ archives.flatMap (·.2),
    Carries library stage source item item.path entry
  aliased : ∀ item ∈ plannedItems selected, ∀ path, AliasWanted selected item path →
    ∃ entry ∈ archives.flatMap (·.2), Carries library stage source item path entry
  nothingElse : ∀ entry ∈ archives.flatMap (·.2), ∃ item ∈ plannedItems selected, ∃ path,
    (path = item.path ∨ AliasWanted selected item path) ∧ Carries library stage source item path entry

/-- The archives that `stage_compatible`, or `stage_selected_compatible` for some assets, writes. -/
def Stages (library : PlanLibrary) (stage : StageLibrary) (source : AssetIndex) (plan : PlanOutput) (categories : List String)
    (names : ArchiveNames) (archives : List (String × List Rho5WriteEntry)) : Option (List String) → Prop
  | none => stageCompatible library stage source plan categories names = .ok archives
  | some selectedAssets => stageSelectedCompatible library stage source plan categories names selectedAssets = .ok archives

/-- Both do the same, once it is clear which assets are selected. -/
theorem Stages.inner {library : PlanLibrary} {stage : StageLibrary} {source : AssetIndex} {plan : PlanOutput}
    {categories : List String} {names : ArchiveNames} {archives : List (String × List Rho5WriteEntry)}
    {selectedAssets : Option (List String)} (h : Stages library stage source plan categories names archives selectedAssets) :
    stageCompatibleInner library stage source plan categories names selectedAssets = .ok archives := by
  cases selectedAssets with
  | none => exact h
  | some selectedAssets =>
    obtain ⟨x, -, h⟩ := bind_eq_ok.1 h
    exact h

/-- A planned file of an asset of the report is sound. -/
theorem sound_of_mem_plannedItems {library : PlanLibrary} {source : AssetIndex} {output : PlanOutput}
    {selected : List AssetPlan} (hs : output.Sound library source) (hselected : ∀ asset ∈ selected, asset ∈ output.report.assets)
    {item : PlannedItem} (h : item ∈ plannedItems selected) :
    ∃ bytes, FileSound library source ⟨item.path, bytes, item.sha256⟩ := by
  obtain ⟨asset, hasset, hitem⟩ := mem_flatMap.1 h
  obtain ⟨file, hfile, rfl⟩ := mem_map.1 hitem
  exact ⟨file.bytes, hs.files asset (hselected asset hasset) file hfile⟩

/-- A pending file that stands for a planned file is written with the bytes of that file. -/
theorem carries_of_extractPending {library : PlanLibrary} {stage : StageLibrary} {source : AssetIndex} {item : PlannedItem}
    {path : String} {entry : Rho5WriteEntry} (hitem : ∃ bytes, FileSound library source ⟨item.path, bytes, item.sha256⟩)
    (h : extractPending library stage source ⟨path, item.path, item.sha256⟩ = .ok entry) :
    Carries library stage source item path entry := by
  obtain ⟨hpath, record, bytes, changed, hrecord, hbytes, hdata⟩ := extractPending_eq_ok h
  obtain ⟨_, record', bytes', hrecord', -, hbytes', hsha⟩ := hitem
  obtain rfl : record = record' := Option.some.inj (hrecord.symm.trans hrecord')
  obtain rfl : bytes = bytes' := Except.ok.inj (hbytes.symm.trans hbytes')
  exact ⟨hpath, record, bytes, changed, hrecord, hbytes, hsha.symm, hdata⟩

section Staged

variable {library : PlanLibrary} {stage : StageLibrary} {source : AssetIndex} {selected : List AssetPlan}
  {pending : FiniteMap String PendingFile} {files : List PendingFile} {entries : List Rho5WriteEntry}

/-- Every pending file is written. -/
theorem exists_entry (hperm : files.Perm (values pending))
    (hentries : Forall₂ (fun file entry => extractPending library stage source file = .ok entry) files entries)
    {folded : String} {file : PendingFile} (h : pending.lookup folded = some file) :
    ∃ entry ∈ entries, extractPending library stage source file = .ok entry := by
  have hmem : file ∈ files := hperm.symm.subset (mem_values_iff.2 ⟨folded, h⟩)
  obtain ⟨i, hi, rfl⟩ := mem_iff_getElem.1 hmem
  have hentry : i < entries.length := by
    rw [← hentries.length_eq]
    exact hi
  exact ⟨entries[i], getElem_mem hentry, hentries.get hi hentry⟩

/-- Nothing else is written. -/
theorem exists_pending (hperm : files.Perm (values pending))
    (hentries : Forall₂ (fun file entry => extractPending library stage source file = .ok entry) files entries)
    {entry : Rho5WriteEntry} (h : entry ∈ entries) :
    ∃ folded file, pending.lookup folded = some file ∧ extractPending library stage source file = .ok entry := by
  obtain ⟨i, hi, rfl⟩ := mem_iff_getElem.1 h
  have hfile : i < files.length := by
    rw [hentries.length_eq]
    exact hi
  obtain ⟨folded, hlookup⟩ := mem_values_iff.1 (hperm.subset (getElem_mem hfile))
  exact ⟨folded, files[i], hlookup, hentries.get hfile hi⟩

/-- Each folded path is written once. -/
theorem nodup_entries (hp : Pending selected pending) (hperm : files.Perm (values pending))
    (hentries : Forall₂ (fun file entry => extractPending library stage source file = .ok entry) files entries) :
    (entries.map fun entry => foldPath entry.path).Nodup := by
  have hpaths : (entries.map fun entry => foldPath entry.path) = files.map fun file => foldPath file.path := by
    clear hperm
    induction hentries with
    | nil => rfl
    | cons hextract _ ih => rw [map_cons, map_cons, ih, (extractPending_eq_ok hextract).1]
  have hkeys : (values pending).map (fun file => foldPath file.path) = pending.keys := by
    rw [values, map_map]
    refine map_congr_left fun entry hentry => ?_
    exact hp.foldPath_eq (lookup_eq_some_iff.2 hentry)
  rw [hpaths, (hperm.map _).nodup_iff, hkeys]
  exact pending.nodupKeys

/-- What a staging writes is faithful exactly when no alias is lost. -/
theorem archivesFaithful_iff {output : PlanOutput} {archives : List (String × List Rho5WriteEntry)}
    (hs : output.Sound library source) (hselected : ∀ asset ∈ selected, asset ∈ output.report.assets)
    (hp : Pending selected pending) (hperm : files.Perm (values pending))
    (hentries : Forall₂ (fun file entry => extractPending library stage source file = .ok entry) files
      (archives.flatMap (·.2))) :
    ArchivesFaithful library stage source selected archives ↔ AliasesKept selected := by
  have hsound := fun item (h : item ∈ plannedItems selected) => sound_of_mem_plannedItems hs hselected h
  constructor
  · intro hf item hitem path hwanted first hfirst
    -- the entry at the alias path is an alias that the first asset with its file wants, and that file is this one
    obtain ⟨entry, hentry, hcarries⟩ := hf.aliased item hitem path hwanted
    obtain ⟨folded, file, hlookup, hextract⟩ := exists_pending hperm hentries hentry
    have hpath : file.path = path := (extractPending_eq_ok hextract).1.symm.trans hcarries.1
    have hfold := hp.foldPath_eq hlookup
    rw [hpath] at hfold
    have hnone : firstAt (plannedItems selected) folded = none := by
      rw [firstAt_eq_none, ← hfold]
      exact hwanted.2
    obtain ⟨-, other, hother, heq⟩ := (hp.aliased folded hnone file).1 hlookup
    obtain ⟨path', hpath', hp'⟩ := Option.map_eq_some_iff.1 heq
    have hsame : path' = path := by rw [← hpath, ← (Prod.mk.inj hp').2]
    subst hsame
    rw [foldPath_eq_of_alias hpath' hwanted.1 rfl, hfirst] at hother
    rw [Option.some.inj hother]
    exact hpath'
  · intro hkept
    refine ⟨nodup_entries hp hperm hentries, ?_, ?_, ?_⟩
    · intro item hitem
      cases hfirst : firstAt (plannedItems selected) (foldPath item.path) with
      | none => exact absurd rfl (firstAt_eq_none.1 hfirst item hitem)
      | some first =>
        -- the first file with the folded path has the same path and the same digest
        obtain ⟨hmem, hfold⟩ := mem_of_firstAt hfirst
        obtain ⟨_, hf⟩ := hsound first hmem
        obtain ⟨_, hi⟩ := hsound item hitem
        obtain ⟨hpath, hsha⟩ := hf.unique hi hfold
        simp only at hpath hsha
        have hlookup := hp.planned _ _ hfirst
        rw [PlannedItem.pending, hpath, hsha] at hlookup
        obtain ⟨entry, hentry, hextract⟩ := exists_entry hperm hentries hlookup
        exact ⟨entry, hentry, carries_of_extractPending (hsound item hitem) hextract⟩
    · intro item hitem path hwanted
      cases hfirst : firstAt (plannedItems selected) (foldPath item.path) with
      | none => exact absurd rfl (firstAt_eq_none.1 hfirst item hitem)
      | some first =>
        have halias := hkept item hitem path hwanted first hfirst
        obtain ⟨hmem, hfold⟩ := mem_of_firstAt hfirst
        obtain ⟨_, hf⟩ := hsound first hmem
        obtain ⟨_, hi⟩ := hsound item hitem
        obtain ⟨hpath, hsha⟩ := hf.unique hi hfold
        simp only at hpath hsha
        have hnone : firstAt (plannedItems selected) (foldPath path) = none := firstAt_eq_none.2 hwanted.2
        have hlookup := (hp.aliased _ hnone ⟨path, item.path, item.sha256⟩).2
          ⟨rfl, first, hfold ▸ hfirst, by rw [PlannedItem.wanted, halias, hpath, hsha]; rfl⟩
        obtain ⟨entry, hentry, hextract⟩ := exists_entry hperm hentries hlookup
        exact ⟨entry, hentry, carries_of_extractPending (hsound item hitem) hextract⟩
    · intro entry hentry
      obtain ⟨folded, file, hlookup, hextract⟩ := exists_pending hperm hentries hentry
      cases hfirst : firstAt (plannedItems selected) folded with
      | some item =>
        obtain ⟨hmem, -⟩ := mem_of_firstAt hfirst
        rw [hp.planned folded item hfirst] at hlookup
        obtain rfl := Option.some.inj hlookup
        exact ⟨item, hmem, item.path, .inl rfl, carries_of_extractPending (hsound item hmem) hextract⟩
      | none =>
        obtain ⟨rfl, item, hitem, heq⟩ := (hp.aliased folded hfirst file).1 hlookup
        obtain ⟨hmem, -⟩ := mem_of_firstAt hitem
        obtain ⟨path, hpath, hfile⟩ := Option.map_eq_some_iff.1 heq
        obtain rfl := (Prod.mk.inj hfile).2
        exact ⟨item, hmem, path, .inr ⟨hpath, firstAt_eq_none.1 hfirst⟩,
          carries_of_extractPending (hsound item hmem) hextract⟩

end Staged

/-! ## A plan and what is staged of it -/

/-- The digests of a few contents. -/
def sampleSha256 (bytes : List UInt8) : List UInt8 :=
  if bytes = [1] then
    [0x4b, 0xf5, 0x12, 0x2f, 0x34, 0x45, 0x54, 0xc5, 0x3b, 0xde, 0x2e, 0xbb, 0x8c, 0xd2, 0xb7, 0xe3,
      0xd1, 0x60, 0x0a, 0xd6, 0x31, 0xc3, 0x85, 0xa5, 0xd7, 0xcc, 0xe2, 0x3c, 0x77, 0x85, 0x45, 0x9a]
  else if bytes = [2] then
    [0xdb, 0xc1, 0xb4, 0xc9, 0x00, 0xff, 0xe4, 0x8d, 0x57, 0x5b, 0x5d, 0xa5, 0xc6, 0x38, 0x04, 0x01,
      0x25, 0xf6, 0x5d, 0xb0, 0xfe, 0x3e, 0x24, 0x49, 0x4b, 0x76, 0xea, 0x98, 0x64, 0x57, 0xd9, 0x86]
  else
    [0x29, 0x11, 0x43, 0x63, 0xf7, 0x49, 0xa0, 0x22, 0x6b, 0x69, 0x88, 0xdd, 0xa3, 0xca, 0x24, 0x92,
      0xa9, 0x54, 0x11, 0x7a, 0xb6, 0xb5, 0xf3, 0x82, 0x70, 0x6c, 0x20, 0x30, 0x0d, 0xab, 0xc0, 0x79]

/-- The libraries, for contents without strings and a source without tracks. -/
def sampleLibrary : PlanLibrary := ⟨sampleSha256, Char.isAlphanum, fun _ => some [], .ok []⟩

/-- A staging that changes and refuses nothing. -/
def sampleStage : StageLibrary := ⟨fun _ bytes => .ok (bytes, false), fun _ _ => .ok ()⟩

/-- An index without files. -/
def noAssets : AssetIndex := ⟨[], by decide, fun _ => .error "no such record"⟩

/-- A plan of everything. -/
def sampleOptions : PlanOptions := ⟨"all", none, [], [], false, 10, 100⟩

/-- Two groups of one file each, whose prefixes are sanitized to the same name. -/
def twoGroups : AssetIndex where
  effectiveRecords := [⟨"kart/x/a.dds", 1, .rho5 0⟩, ⟨"kart_/x/b.dds", 1, .rho5 1⟩]
  sorted := by decide +kernel
  extract record := .ok (if record.origin = .rho5 0 then [1] else [2])

/-- A kart with its region parameters. -/
def oneKart : AssetIndex where
  effectiveRecords := [⟨"kart_/x/param@cn.xml", 4, .rho5 0⟩]
  sorted := by decide +kernel
  extract _ := .ok [0x3c, 0x61, 0x2f, 0x3e]

end Assets

end P5136
