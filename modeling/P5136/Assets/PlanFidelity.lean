import P5136.Assets.Staging

/-!
# What a plan writes is what its manifests list

A planned group lists the files it has collected, once in the report and once in its manifest. Whether the report's name for the
manifest still leads there after the whole run is a question of names only.
-/

namespace P5136

namespace Assets

open Checks List

/-- The path and the digest of each planned file. -/
def listed (asset : AssetPlan) : List (String × String) := asset.files.map fun file => (file.virtualPath, file.sha256)

/-- The path and the digest of each entry of a manifest. -/
def DraftManifest.listed (manifest : DraftManifest) : List (String × String) :=
  manifest.entries.map fun entry => (entry.targetPath, entry.expectedSha256)

/-! ## The effective records of an index -/

namespace AssetIndex

/-- Records with the same folded path are the same. -/
theorem record_inj (index : AssetIndex) {a b : AssetRecord} (ha : a ∈ index.effectiveRecords)
    (hb : b ∈ index.effectiveRecords) (h : foldPath a.virtualPath = foldPath b.virtualPath) : a = b := by
  have hnodup : (index.effectiveRecords.map fun record => foldPath record.virtualPath).Nodup := by
    refine index.sorted.imp ?_
    rintro p q hlt rfl
    exact String.lt_irrefl p hlt
  exact inj_on_of_nodup_map hnodup ha hb h

/-- The effective record at the path of a record is that record. -/
theorem effective_eq_some (index : AssetIndex) {path : String} {record : AssetRecord} :
    index.effective path = some record ↔
      record ∈ index.effectiveRecords ∧ foldPath record.virtualPath = foldPath path := by
  unfold effective
  constructor
  · intro h
    have hp := find?_some h
    rw [beq_iff_eq] at hp
    exact ⟨mem_of_find?_eq_some h, hp⟩
  · rintro ⟨hmem, hfold⟩
    cases hf : index.effectiveRecords.find? fun record => foldPath record.virtualPath == foldPath path with
    | none => simpa [hfold] using find?_eq_none.1 hf record hmem
    | some other =>
      have hp := find?_some hf
      rw [beq_iff_eq] at hp
      rw [index.record_inj (mem_of_find?_eq_some hf) hmem (hp.trans hfold.symm)]

end AssetIndex

/-- A path is the path of an effective record. -/
def IsRecordPath (source : AssetIndex) (path : String) : Prop := ∃ record ∈ source.effectiveRecords, record.virtualPath = path

/-- A planned file stands for an effective record that was extracted, and has its digest. -/
def FileSound (library : PlanLibrary) (source : AssetIndex) (file : FilePlan) : Prop :=
  ∃ record bytes, source.effective file.virtualPath = some record ∧ record.virtualPath = file.virtualPath ∧
    source.extract record = .ok bytes ∧ file.sha256 = hex (library.sha256 bytes)

/-- Sound files with the same folded path have the same path and the same digest. -/
theorem FileSound.unique {library : PlanLibrary} {source : AssetIndex} {f g : FilePlan} (hf : FileSound library source f)
    (hg : FileSound library source g) (h : foldPath f.virtualPath = foldPath g.virtualPath) :
    f.virtualPath = g.virtualPath ∧ f.sha256 = g.sha256 := by
  obtain ⟨r, bytes, hr, hrp, hrb, hfs⟩ := hf
  obtain ⟨r', bytes', hr', hrp', hrb', hgs⟩ := hg
  rw [AssetIndex.effective_eq_some] at hr hr'
  obtain rfl : r = r' := source.record_inj hr.1 hr'.1 (by rw [hr.2, hr'.2, h])
  rw [hrb] at hrb'
  cases hrb'
  exact ⟨hrp.symm.trans hrp', hfs.trans hgs.symm⟩

/-! ## The loop of a group -/

/-- What holds before and after every turn of the loop. -/
structure PlanState.Sound (library : PlanLibrary) (source : AssetIndex) (state : PlanState) : Prop where
  /-- Only records are visited. -/
  queue : ∀ path ∈ state.queue, IsRecordPath source path
  /-- The files and the entries are listed side by side. -/
  entries : (state.manifestEntries.map fun entry => (entry.targetPath, entry.expectedSha256)) =
    state.files.map fun file => (file.virtualPath, file.sha256)
  files : ∀ file ∈ state.files, FileSound library source file
  /-- What was visited are different records. -/
  nodup : state.visited.Nodup
  visited : ∀ folded ∈ state.visited, folded ∈ source.effectiveRecords.map fun record => foldPath record.virtualPath

/-- What a reference resolves to in the source is a record. -/
theorem isRecordPath_of_resolveReference {source target : AssetIndex} {origin candidate found : String} {group : AssetGroup}
    (h : resolveReference source target origin group candidate = .source found) : IsRecordPath source found := by
  unfold resolveReference at h
  simp only at h
  split at h
  · rename_i record hrecord
    cases h
    obtain ⟨attempt, -, hattempt⟩ := exists_of_findSome?_eq_some hrecord
    exact ⟨record, (source.effective_eq_some.1 hattempt).1, rfl⟩
  · split at h <;> cases h

/-- An entry of a manifest stands at the path of its record, with the digest. -/
theorem manifestEntry_listed (record : AssetRecord) (sha256 : String) :
    ((manifestEntry record sha256).targetPath, (manifestEntry record sha256).expectedSha256) =
      (record.virtualPath, sha256) := by
  unfold manifestEntry
  split <;> rfl

/-- A file that is opened is an effective record, extracted. -/
theorem openFile_eq_ok {source : AssetIndex} {options : PlanOptions} {path : String} {total : Nat} {file : OpenedFile}
    (h : openFile source options path total = .ok file) :
    source.effective path = some file.record ∧ source.extract file.record = .ok file.bytes := by
  unfold openFile at h
  simp only [bind_eq_ok, orElse_eq_ok] at h
  obtain ⟨record, hrecord, total', -, x, -, bytes, hbytes, y, -, h⟩ := h
  obtain rfl := Except.ok.inj h
  refine ⟨hrecord, ?_⟩
  cases he : source.extract record with
  | error e => simp [he, mapError_error] at hbytes
  | ok b => simpa [he, mapError_ok] using hbytes

/-- A turn of the loop keeps all that, and visits one record more. -/
theorem PlanState.Sound.visit {library : PlanLibrary} {source target : AssetIndex} {group : AssetGroup}
    {options : PlanOptions} {path : String} {state state' : PlanState} (hs : state.Sound library source)
    (hpath : IsRecordPath source path) (hnew : foldPath path ∉ state.visited)
    (h : visit library source target group options path state = .ok state') :
    state'.Sound library source ∧ state'.visited = foldPath path :: state.visited := by
  unfold Assets.visit at h
  obtain ⟨file, hfile, h⟩ := bind_eq_ok.1 h
  obtain ⟨seen, -, h⟩ := bind_eq_ok.1 h
  obtain rfl := Except.ok.inj h
  obtain ⟨hrecord, hbytes⟩ := openFile_eq_ok hfile
  obtain ⟨hmem, hfold⟩ := source.effective_eq_some.1 hrecord
  -- the record at the path of a record is that record
  have hvirtual : file.record.virtualPath = path := by
    obtain ⟨record, hrecordMem, rfl⟩ := hpath
    rw [source.record_inj hmem hrecordMem hfold]
  refine ⟨⟨?_, ?_, ?_, ?_, ?_⟩, rfl⟩
  · intro found hfound
    rcases mem_append.1 hfound with hfound | hfound
    · exact hs.queue found hfound
    · obtain ⟨⟨candidate, resolution⟩, hreference, hmatch⟩ := mem_filterMap.1 hfound
      cases resolution with
      | source p =>
        cases hmatch
        obtain ⟨item, -, hitem⟩ := mem_flatMap.1 hreference
        obtain ⟨candidate', -, heq⟩ := mem_map.1 hitem
        exact isRecordPath_of_resolveReference (Prod.mk.inj heq).2
      | target p => cases hmatch
      | missing => cases hmatch
  · simp only [collect, map_append, map_cons, map_nil, hs.entries, manifestEntry_listed, hvirtual]
  · intro f hf
    rcases mem_append.1 hf with hf | hf
    · exact hs.files f hf
    · rw [mem_singleton] at hf
      subst hf
      exact ⟨file.record, file.bytes, hrecord, hvirtual, hbytes, rfl⟩
  · exact nodup_cons.2 ⟨hnew, hs.nodup⟩
  · intro folded hfolded
    rcases mem_cons.1 hfolded with rfl | hfolded
    · exact mem_map.2 ⟨file.record, hmem, hfold⟩
    · exact hs.visited folded hfolded

/-- What the queue loses only shortens it. -/
theorem PlanState.Sound.dropQueue {library : PlanLibrary} {source : AssetIndex} {state : PlanState} {queue : List String}
    (hs : state.Sound library source) (h : ∀ path ∈ queue, path ∈ state.queue) :
    PlanState.Sound library source { state with queue } :=
  ⟨fun path hp => hs.queue path (h path hp), hs.entries, hs.files, hs.nodup, hs.visited⟩

/-- No turn itself runs out of turns. -/
theorem visit_ne_exhausted {library : PlanLibrary} {source target : AssetIndex} {group : AssetGroup} {options : PlanOptions}
    {path : String} {state : PlanState} : visit library source target group options path state ≠ .error .exhausted := by
  have hopen : Avoids (· = .exhausted) (openFile source options path state.totalBytes) :=
    (avoids_orElse (.inr (by simp))).bind fun _ _ => (avoids_orElse (.inr (by simp))).bind fun _ _ =>
      (avoids_ensure (.inr (by simp))).bind fun _ _ => (avoids_mapError (by simp)).bind fun _ _ =>
      (avoids_ensure (.inr (by simp))).bind fun _ _ => avoids_pure _
  have hsearch : ∀ (signature : List UInt8) (records : List AssetRecord),
      Avoids (· = .exhausted) (targetFormatSeen.search target signature records) := by
    intro signature records
    induction records with
    | nil => exact avoids_ok _
    | cons record records ih =>
      refine (avoids_mapError (by simp)).bind fun bytes _ => ?_
      split
      · exact avoids_pure _
      · exact ih
  have hseen : ∀ ext bytes, Avoids (· = .exhausted) (formatSeen target ext bytes) := by
    intro ext bytes
    unfold formatSeen
    split
    · exact hsearch _ _
    · exact avoids_ok _
  have hvisit : Avoids (· = .exhausted) (visit library source target group options path state) :=
    hopen.bind fun _ _ => (hseen _ _).bind fun _ _ => avoids_pure _
  exact fun h => hvisit _ h rfl

/-- The loop ends when all that is left in the queue was visited. -/
theorem visitAll_nil {library : PlanLibrary} {source target : AssetIndex} {group : AssetGroup} {options : PlanOptions}
    {state : PlanState} (budget : Nat) (h : state.queue.dropWhile (fun path => foldPath path ∈ state.visited) = []) :
    visitAll library source target group options budget state = .ok { state with queue := [] } := by
  unfold visitAll
  rw [h]

/-- It goes on with the first path that was not. -/
theorem visitAll_cons {library : PlanLibrary} {source target : AssetIndex} {group : AssetGroup} {options : PlanOptions}
    {state : PlanState} {path : String} {queue : List String} (budget : Nat)
    (h : state.queue.dropWhile (fun path => foldPath path ∈ state.visited) = path :: queue) :
    visitAll library source target group options (budget + 1) state =
      (visit library source target group options path { state with queue } >>=
        visitAll library source target group options budget) := by
  conv_lhs => unfold visitAll
  rw [h]

/-- Without a budget it stops there. -/
theorem visitAll_exhausted {library : PlanLibrary} {source target : AssetIndex} {group : AssetGroup} {options : PlanOptions}
    {state : PlanState} {path : String} {queue : List String}
    (h : state.queue.dropWhile (fun path => foldPath path ∈ state.visited) = path :: queue) :
    visitAll library source target group options 0 state = .error .exhausted := by
  unfold visitAll
  rw [h]

/-- The first path that was not visited, and what is left behind it. -/
theorem PlanState.Sound.next {library : PlanLibrary} {source : AssetIndex} {state : PlanState} {path : String}
    {queue : List String} (hs : state.Sound library source)
    (h : state.queue.dropWhile (fun path => foldPath path ∈ state.visited) = path :: queue) :
    PlanState.Sound library source { state with queue } ∧ IsRecordPath source path ∧ foldPath path ∉ state.visited := by
  have hsub : ∀ p ∈ path :: queue, p ∈ state.queue := by
    intro p hp
    rw [← h] at hp
    exact (dropWhile_sublist _).subset hp
  refine ⟨hs.dropQueue fun p hp => hsub p (mem_cons_of_mem _ hp), hs.queue path (hsub path mem_cons_self), ?_⟩
  have hne : state.queue.dropWhile (fun path => foldPath path ∈ state.visited) ≠ [] := by simp [h]
  have hnot := head_dropWhile_not (fun path => decide (foldPath path ∈ state.visited)) hne
  simpa [h] using hnot

/-- The loop keeps all that to its end. -/
theorem PlanState.Sound.visitAll {library : PlanLibrary} {source target : AssetIndex} {group : AssetGroup}
    {options : PlanOptions} {budget : Nat} {state state' : PlanState} (hs : state.Sound library source)
    (h : visitAll library source target group options budget state = .ok state') : state'.Sound library source := by
  induction budget generalizing state with
  | zero =>
    cases hq : state.queue.dropWhile (fun path => foldPath path ∈ state.visited) with
    | nil =>
      rw [visitAll_nil 0 hq] at h
      cases h
      exact hs.dropQueue (by simp)
    | cons path queue =>
      rw [visitAll_exhausted hq] at h
      cases h
  | succ budget ih =>
    cases hq : state.queue.dropWhile (fun path => foldPath path ∈ state.visited) with
    | nil =>
      rw [visitAll_nil (budget + 1) hq] at h
      cases h
      exact hs.dropQueue (by simp)
    | cons path queue =>
      rw [visitAll_cons budget hq] at h
      obtain ⟨state₁, hvisit, h⟩ := bind_eq_ok.1 h
      obtain ⟨hsound, hpath, hnew⟩ := hs.next hq
      exact ih (hsound.visit hpath hnew hvisit).1 h

/-- A budget of as many turns as there are records that were not visited is never used up. -/
theorem PlanState.Sound.not_exhausted {library : PlanLibrary} {source target : AssetIndex} {group : AssetGroup}
    {options : PlanOptions} {budget : Nat} {state : PlanState} (hs : state.Sound library source)
    (hbudget : source.effectiveRecords.length ≤ budget + state.visited.length) :
    Assets.visitAll library source target group options budget state ≠ .error .exhausted := by
  induction budget generalizing state with
  | zero =>
    cases hq : state.queue.dropWhile (fun path => foldPath path ∈ state.visited) with
    | nil =>
      rw [visitAll_nil 0 hq]
      simp
    | cons path queue =>
      -- one more record than there are would have been visited
      obtain ⟨-, ⟨record, hmem, rfl⟩, hnew⟩ := hs.next hq
      have hsub : (foldPath record.virtualPath :: state.visited).Subperm
          (source.effectiveRecords.map fun record => foldPath record.virtualPath) := by
        refine subperm_of_subset (nodup_cons.2 ⟨hnew, hs.nodup⟩) ?_
        intro folded hfolded
        rcases mem_cons.1 hfolded with rfl | hfolded
        · exact mem_map.2 ⟨record, hmem, rfl⟩
        · exact hs.visited folded hfolded
      have hle := hsub.length_le
      simp only [length_cons, length_map] at hle
      omega
  | succ budget ih =>
    cases hq : state.queue.dropWhile (fun path => foldPath path ∈ state.visited) with
    | nil =>
      rw [visitAll_nil (budget + 1) hq]
      simp
    | cons path queue =>
      rw [visitAll_cons budget hq]
      obtain ⟨hsound, hpath, hnew⟩ := hs.next hq
      intro h
      rcases bind_eq_error.1 h with h | ⟨state₁, hvisit, h⟩
      · exact visit_ne_exhausted h
      · obtain ⟨hsound', hvisited⟩ := hsound.visit hpath hnew hvisit
        refine ih hsound' ?_ h
        rw [hvisited, length_cons]
        simp only
        omega

/-- The loop of a group starts with records only. -/
theorem PlanState.Sound.initial (library : PlanLibrary) (source : AssetIndex) (group : AssetGroup)
    (experimentalNative : Bool) :
    PlanState.Sound library source ⟨initialQueue source group experimentalNative, [], [], [], [], [], 0, false, false⟩ := by
  refine ⟨?_, rfl, by simp, by simp, by simp⟩
  intro path hpath
  rcases mem_append.1 hpath with hpath | hpath
  · obtain ⟨record, hrecord, rfl⟩ := mem_map.1 hpath
    exact ⟨record, (mem_filter.1 hrecord).1, rfl⟩
  · split at hpath
    · obtain ⟨record, hrecord, rfl⟩ := mem_map.1 hpath
      exact ⟨record, (mem_filter.1 hrecord).1, rfl⟩
    · cases hpath

/-! ## Groups -/

/-- What is true of a planned group and the manifest that is written for it. -/
structure Planned (library : PlanLibrary) (source : AssetIndex) (group : AssetGroup) (plan : AssetPlan)
    (manifest : DraftManifest) : Prop where
  group : plan.virtualPrefix = group.virtualPrefix
  /-- The manifest is named after the sanitized form of the group's prefix. -/
  name : plan.manifest = "manifests/" ++ (safeAssetName library.sha256 plan.virtualPrefix ++ ".json")
  listed : manifest.listed = Assets.listed plan
  files : ∀ file ∈ plan.files, FileSound library source file

/-- A planned group lists its files in the manifest that is written for it. -/
theorem planned_of_planGroup {library : PlanLibrary} {source target : AssetIndex} {group : AssetGroup}
    {options : PlanOptions} {plan : AssetPlan} {manifest : DraftManifest}
    (h : planGroup library source target group options = .ok (plan, manifest)) :
    Planned library source group plan manifest := by
  unfold planGroup at h
  obtain ⟨x, -, h⟩ := bind_eq_ok.1 h
  obtain ⟨state, hstate, h⟩ := bind_eq_ok.1 h
  obtain ⟨rfl, rfl⟩ := Prod.mk.inj (Except.ok.inj h)
  have hs := (PlanState.Sound.initial library source group _).visitAll hstate
  refine ⟨rfl, rfl, ?_, ?_⟩
  · -- both lists are sorted by the path that their elements share
    have hfiles := map_insertionSort (r := fun a b : FilePlan => a.virtualPath ≤ b.virtualPath)
      (s := fun a b : String × String => a.1 ≤ b.1) (fun file : FilePlan => (file.virtualPath, file.sha256)) state.files
      (fun a _ b _ => Iff.rfl)
    have hentries := map_insertionSort (r := fun a b : DraftManifestEntry => a.targetPath ≤ b.targetPath)
      (s := fun a b : String × String => a.1 ≤ b.1)
      (fun entry : DraftManifestEntry => (entry.targetPath, entry.expectedSha256)) state.manifestEntries
      (fun a _ b _ => Iff.rfl)
    simp only [DraftManifest.listed, Assets.listed]
    rw [hfiles, hentries, hs.entries]
  · intro file hfile
    exact hs.files file ((perm_insertionSort _ _).subset hfile)

/-! ## Runs -/

/-- What is true while the groups are planned one by one: every asset of the report has sound files, and its name leads to the
manifest of an asset with that name. -/
structure PlanOutput.Sound (library : PlanLibrary) (source : AssetIndex) (output : PlanOutput) : Prop where
  name : ∀ asset ∈ output.report.assets,
    asset.manifest = "manifests/" ++ (safeAssetName library.sha256 asset.virtualPrefix ++ ".json")
  files : ∀ asset ∈ output.report.assets, ∀ file ∈ asset.files, FileSound library source file
  manifests : ∀ asset ∈ output.report.assets, ∃ other ∈ output.report.assets, ∃ manifest, other.manifest = asset.manifest ∧
    output.manifests.lookup asset.manifest = some manifest ∧ manifest.listed = listed other

/-- The next group keeps all that. -/
theorem PlanOutput.Sound.planNext {library : PlanLibrary} {source target : AssetIndex} {options : PlanOptions}
    {output : PlanOutput} (hs : output.Sound library source) (group : AssetGroup) :
    (planNext library source target options output group).Sound library source := by
  unfold Assets.planNext
  split
  · rename_i plan manifest hplan
    have hp := planned_of_planGroup hplan
    refine ⟨?_, ?_, ?_⟩
    · intro asset hasset
      rcases mem_append.1 hasset with hasset | hasset
      · exact hs.name asset hasset
      · rw [mem_singleton] at hasset
        subst hasset
        exact hp.name
    · intro asset hasset
      rcases mem_append.1 hasset with hasset | hasset
      · exact hs.files asset hasset
      · rw [mem_singleton] at hasset
        subst hasset
        exact hp.files
    · intro asset hasset
      have hlookup := FiniteMap.lookup_insert output.manifests plan.manifest asset.manifest manifest
      by_cases hname : asset.manifest = plan.manifest
      · rw [if_pos hname] at hlookup
        exact ⟨plan, mem_append_right _ (by simp), manifest, hname.symm, hlookup, hp.listed⟩
      · rw [if_neg hname] at hlookup
        rcases mem_append.1 hasset with hasset | hasset
        · obtain ⟨other, hother, m, hm, hl, hlisted⟩ := hs.manifests asset hasset
          exact ⟨other, mem_append_left _ hother, m, hm, hlookup.trans hl, hlisted⟩
        · rw [mem_singleton] at hasset
          exact absurd (hasset ▸ rfl) hname
  · exact ⟨hs.name, hs.files, hs.manifests⟩

/-- A run plans the selected groups, one after the other. -/
theorem runPlan_eq_ok {library : PlanLibrary} {source target : AssetIndex} {options : PlanOptions}
    {before : FiniteMap String DraftManifest} {output : PlanOutput}
    (h : runPlan library source target options before = .ok output) :
    ∃ groups, selectGroups library source target options = .ok groups ∧
      output = groups.foldl (planNext library source target options) ⟨⟨1, [], []⟩, before⟩ := by
  unfold runPlan at h
  obtain ⟨x, -, h⟩ := bind_eq_ok.1 h
  obtain ⟨y, -, h⟩ := bind_eq_ok.1 h
  obtain ⟨z, -, h⟩ := bind_eq_ok.1 h
  obtain ⟨groups, hgroups, h⟩ := bind_eq_ok.1 h
  exact ⟨groups, hgroups, (Except.ok.inj h).symm⟩

/-- The assets of the report are the selected groups that could be planned. -/
theorem assets_of_runPlan {library : PlanLibrary} {source target : AssetIndex} {options : PlanOptions}
    {before : FiniteMap String DraftManifest} {output : PlanOutput}
    (h : runPlan library source target options before = .ok output) :
    ∃ groups, selectGroups library source target options = .ok groups ∧
      ∀ asset, asset ∈ output.report.assets ↔
        ∃ group ∈ groups, ∃ manifest, planGroup library source target group options = .ok (asset, manifest) := by
  obtain ⟨groups, hgroups, rfl⟩ := runPlan_eq_ok h
  refine ⟨groups, hgroups, fun asset => ?_⟩
  have hrun : ∀ output : PlanOutput,
      asset ∈ (groups.foldl (planNext library source target options) output).report.assets ↔
        asset ∈ output.report.assets ∨
          ∃ group ∈ groups, ∃ manifest, planGroup library source target group options = .ok (asset, manifest) := by
    clear * -
    induction groups with
    | nil => simp
    | cons group groups ih =>
      intro output
      rw [foldl_cons, ih, exists_mem_cons_iff, ← or_assoc]
      refine or_congr ?_ Iff.rfl
      unfold planNext
      cases hplan : planGroup library source target group options with
      | error error => simp
      | ok result => simp [addPlan, Prod.ext_iff, eq_comm]
  simpa using hrun ⟨⟨1, [], []⟩, before⟩

/-- So do the runs. -/
theorem PlanOutput.Sound.runPlan {library : PlanLibrary} {source target : AssetIndex} {options : PlanOptions}
    {before : FiniteMap String DraftManifest} {output : PlanOutput}
    (h : runPlan library source target options before = .ok output) : output.Sound library source := by
  obtain ⟨groups, -, rfl⟩ := runPlan_eq_ok h
  have hrun : ∀ output : PlanOutput, output.Sound library source →
      (groups.foldl (Assets.planNext library source target options) output).Sound library source := by
    clear * -
    induction groups with
    | nil => exact fun output hs => hs
    | cons group groups ih => exact fun output hs => ih _ (hs.planNext group)
  exact hrun _ ⟨by simp, by simp, by simp⟩

/-! ## Names -/

/-- An asset names a manifest that lists exactly the asset's own planned files. -/
def ManifestOf (manifests : FiniteMap String DraftManifest) (asset : AssetPlan) : Prop :=
  ∃ manifest, manifests.lookup asset.manifest = some manifest ∧ manifest.listed = listed asset

instance (manifests : FiniteMap String DraftManifest) (asset : AssetPlan) : Decidable (ManifestOf manifests asset) :=
  decidable_of_iff ((manifests.lookup asset.manifest).map DraftManifest.listed = some (listed asset))
    Option.map_eq_some_iff

/-- Every asset of the report does. -/
def ManifestsFaithful (output : PlanOutput) : Prop := ∀ asset ∈ output.report.assets, ManifestOf output.manifests asset

instance (output : PlanOutput) : Decidable (ManifestsFaithful output) :=
  inferInstanceAs (Decidable (∀ asset ∈ output.report.assets, ManifestOf output.manifests asset))

/-- Two groups that are selected and planned have the same sanitized prefix only if they plan the same files. -/
def NamesApart (library : PlanLibrary) (source target : AssetIndex) (options : PlanOptions) : Prop :=
  ∀ groups, selectGroups library source target options = .ok groups →
    ∀ group ∈ groups, ∀ other ∈ groups, ∀ plan manifest plan' manifest',
      planGroup library source target group options = .ok (plan, manifest) →
      planGroup library source target other options = .ok (plan', manifest') →
      safeAssetName library.sha256 group.virtualPrefix = safeAssetName library.sha256 other.virtualPrefix →
      listed plan = listed plan'

/-- A manifest is found again exactly when the names tell it apart. -/
theorem manifestsFaithful_iff {library : PlanLibrary} {source target : AssetIndex} {options : PlanOptions}
    {before : FiniteMap String DraftManifest} {output : PlanOutput}
    (h : runPlan library source target options before = .ok output) :
    ManifestsFaithful output ↔ NamesApart library source target options := by
  have hs := PlanOutput.Sound.runPlan h
  obtain ⟨groups, hgroups, hassets⟩ := assets_of_runPlan h
  constructor
  · intro hfaithful groups' hgroups' group hgroup other hother plan manifest plan' manifest' hplan hplan' hname
    obtain rfl : groups = groups' := Except.ok.inj (hgroups.symm.trans hgroups')
    have ha := (hassets plan).2 ⟨group, hgroup, manifest, hplan⟩
    have hb := (hassets plan').2 ⟨other, hother, manifest', hplan'⟩
    have hmanifest : plan.manifest = plan'.manifest := by
      rw [hs.name plan ha, hs.name plan' hb, (planned_of_planGroup hplan).group, (planned_of_planGroup hplan').group, hname]
    obtain ⟨m, hm, hma⟩ := hfaithful plan ha
    obtain ⟨m', hm', hmb⟩ := hfaithful plan' hb
    rw [hmanifest, hm'] at hm
    cases hm
    exact hma.symm.trans hmb
  · intro hapart asset hasset
    obtain ⟨other, hother, manifest, hname, hlookup, hlisted⟩ := hs.manifests asset hasset
    obtain ⟨group, hgroup, m, hplan⟩ := (hassets asset).1 hasset
    obtain ⟨group', hgroup', m', hplan'⟩ := (hassets other).1 hother
    refine ⟨manifest, hlookup, hlisted.trans (hapart groups hgroups group' hgroup' group hgroup _ _ _ _ hplan' hplan ?_)⟩
    rw [hs.name other hother, hs.name asset hasset, (planned_of_planGroup hplan).group,
      (planned_of_planGroup hplan').group] at hname
    exact (String.append_left_inj _).1 ((String.append_right_inj _).1 hname)

end Assets

end P5136
