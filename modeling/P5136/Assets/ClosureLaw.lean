import Mathlib.Data.List.TakeWhile
import P5136.Assets.PlanSession
import P5136.Lib.Worklist

/-!
# What the plan of a group lists

The plan of a group lists the files that the group needs: its own, and what they refer to, over any number of references, cycles
included. All else that the plan says is said of these files, in whatever order they were visited and whatever the planner
remembers of earlier groups.
-/

namespace P5136

namespace Assets

open Checks List

/-- What an index has at a path. -/
def AssetIndex.contents (index : AssetIndex) (path : String) : Option (List UInt8) :=
  (index.effective path).bind fun record => (index.extract record).toOption

/-- The strings in a file. -/
def stringsIn (library : PlanLibrary) (path : String) (bytes : List UInt8) : List StructuredString :=
  (analyzeContent library path (Rho5.toAsciiLowercase (extension path)) bytes).strings

/-- The reference candidates in a file. -/
def candidatesIn (library : PlanLibrary) (path : String) (bytes : List UInt8) : List String :=
  (stringsIn library path bytes).flatMap fun item => referenceCandidates library item.value

section

variable (library : PlanLibrary) (source target : AssetIndex) (group : AssetGroup) (options : PlanOptions)

/-- An effective file of the group itself or, for an experimental XUN kart, of the shared XUN folders. -/
def InGroup (path : String) : Prop :=
  ∃ record ∈ source.effectiveRecords, record.virtualPath = path ∧
    (pathInPrefix path group.virtualPrefix = true ∨
      (Planner.experimentalNative group options = true ∧ eqIgnoreAsciiCase group.category "kart" = true ∧
        "xun".toList.isSuffixOf (Rho5.toAsciiLowercase group.assetId).toList = true ∧
        (pathInPrefix path "gui/tachometer/xun" = true ∨ pathInPrefix path "effect/charger" = true)))

/-- A file has a reference candidate that resolves to another in the source. -/
def RefersTo (path found : String) : Prop :=
  ∃ bytes, source.contents path = some bytes ∧
    ∃ candidate ∈ candidatesIn library path bytes, resolveReference source target path group candidate = .source found

/-- The least set of files that has those of the group and, with a file, what it refers to. -/
def Needed : String → Prop := Worklist.Closure (InGroup source group options) (RefersTo library source target group)

/-- Some file among the first of the target with the extension `1s` has the signature. -/
def SignatureSeen (signature : List UInt8) : Prop :=
  ∃ record ∈ (target.effectiveRecords.filter fun record => extension record.virtualPath == "1s").take 128,
    ∃ bytes, target.extract record = .ok bytes ∧ bytes.take 2 = signature

/-- Nothing in a file stands against using it. -/
structure Clean (path : String) (bytes : List UInt8) : Prop where
  resolved : ∀ candidate ∈ candidatesIn library path bytes, resolveReference source target path group candidate ≠ .missing
  parsed : (analyzeContent library path (Rho5.toAsciiLowercase (extension path)) bytes).parseFailed = false
  /-- The text of a structured file has no Han characters. -/
  translated : Rho5.toAsciiLowercase (extension path) ∈ ["xml", "kml", "bml"] →
    ∀ item ∈ stringsIn library path bytes, hasHan item.value = false
  /-- Neither the path nor a string has a native marker; strings scanned out of binary data do not count. -/
  marked : nativeMarker path = none ∧ ∀ item ∈ stringsIn library path bytes,
    "binary:".toList.isPrefixOf item.selector.toList = false → nativeMarker item.value = none
  seen : Rho5.toAsciiLowercase (extension path) = "1s" → SignatureSeen target (bytes.take 2)

/-! ## Visiting in any order -/

/-- The loop of `plan_group` in any order: each turn takes any path of the queue. -/
inductive Walk : PlannerState → PlannerState → Prop where
  /-- All that is left in the queue was visited. -/
  | finish {state : PlannerState} (h : ∀ path ∈ state.queue, foldPath path ∈ state.visited) :
      Walk state { state with queue := [] }
  /-- A path that was visited is dropped. -/
  | drop {state final : PlannerState} {path : String} {queue : List String} (hqueue : state.queue.Perm (path :: queue))
      (hvisited : foldPath path ∈ state.visited) (h : Walk { state with queue } final) : Walk state final
  /-- A path that was not is visited. -/
  | visit {state final : PlannerState} {path : String} {queue : List String} {file : OpenedFile} {seen : Bool}
      (hqueue : state.queue.Perm (path :: queue)) (hnew : foldPath path ∉ state.visited)
      (hopen : openFile source options path state.totalBytes = .ok file)
      (hseen : formatSeen target (Rho5.toAsciiLowercase (extension path)) file.bytes = .ok seen)
      (h : Walk (Planner.collect library source target group path file seen { state with queue }) final) : Walk state final

/-- What a plan says, when a group is planned. -/
structure ClosureLaw (plan : ReferencedPlan) : Prop where
  /-- The files are those that the group needs. -/
  listed : ∀ path, path ∈ plan.files.map (·.virtualPath) ↔ Needed library source target group options path
  /-- Each is listed once, also without regard to case. -/
  once : (plan.files.map fun file => foldPath file.virtualPath).Nodup
  /-- Each is an effective file of the source, with its contents. -/
  effective : ∀ file ∈ plan.files, ∃ record bytes, source.effective file.virtualPath = some record ∧
    record.virtualPath = file.virtualPath ∧ source.extract record = .ok bytes ∧ record.size = file.bytes ∧
    bytes.length = file.bytes ∧ file.sha256 = hex (library.sha256 bytes)
  totalBytes : plan.totalBytes = (plan.files.map (·.bytes)).sum
  /-- Every candidate in every file is reported, with what it resolves to, and nothing else is. -/
  reported : ∀ report, report ∈ plan.references ↔ ∃ path bytes, Needed library source target group options path ∧
    source.contents path = some bytes ∧ ∃ candidate ∈ candidatesIn library path bytes,
      report = (resolveReference source target path group candidate).report path candidate
  /-- The unresolved ones are listed once more. -/
  unresolved : ∀ text, text ∈ plan.unresolvedReferences ↔ ∃ path bytes, Needed library source target group options path ∧
    source.contents path = some bytes ∧ ∃ candidate ∈ candidatesIn library path bytes,
      resolveReference source target path group candidate = .missing ∧ text = path ++ ": " ++ candidate
  /-- The group is compatible exactly when every file is clean. -/
  status : plan.status = .compatibleCandidate ↔ ∀ path bytes, Needed library source target group options path →
    source.contents path = some bytes → Clean library source target group path bytes
  /-- The files may be visited in any order. -/
  anyOrder : ∀ final, Walk library source target group options (Planner.initialState source group options) final →
    statusOf (Planner.experimentalNative group options) final.toPlanState = plan.status ∧ final.files.Perm plan.files ∧
      final.totalBytes = plan.totalBytes ∧ final.references.toFinset = plan.references

end

/-- The strings of a set are those that were put into it. -/
theorem mem_sortedSet {strings : List String} {text : String} : text ∈ sortedSet strings ↔ text ∈ strings := by
  unfold sortedSet
  rw [(perm_insertionSort _ _).mem_iff, mem_eraseDups]

/-- A path of the initial queue is a file of the group itself or of the shared folders. -/
theorem mem_initialQueue {source : AssetIndex} {group : AssetGroup} {options : PlanOptions} {path : String} :
    path ∈ initialQueue source group (Planner.experimentalNative group options) ↔ InGroup source group options path := by
  unfold initialQueue InGroup
  rw [mem_append]
  constructor
  · rintro (hown | hshared)
    · obtain ⟨record, hrecord, rfl⟩ := mem_map.1 hown
      obtain ⟨hmem, hprefix⟩ := mem_filter.1 hrecord
      exact ⟨record, hmem, rfl, .inl hprefix⟩
    · split at hshared
      · rename_i hexperimental
        obtain ⟨record, hrecord, rfl⟩ := mem_map.1 hshared
        obtain ⟨hmem, hprefix⟩ := mem_filter.1 hrecord
        exact ⟨record, hmem, rfl, .inr ⟨hexperimental.1, hexperimental.2.1, hexperimental.2.2, Bool.or_eq_true_iff.1 hprefix⟩⟩
      · cases hshared
  · rintro ⟨record, hmem, rfl, hown | ⟨hexperimental, hkart, hxun, hprefix⟩⟩
    · exact .inl (mem_map.2 ⟨record, mem_filter.2 ⟨hmem, hown⟩, rfl⟩)
    · rw [if_pos ⟨hexperimental, hkart, hxun⟩]
      exact .inr (mem_map.2 ⟨record, mem_filter.2 ⟨hmem, Bool.or_eq_true_iff.2 hprefix⟩, rfl⟩)

/-! ## What was visited -/

/-- A file as it was visited. -/
structure VisitedFile where
  path : String
  record : AssetRecord
  bytes : List UInt8
  seen : Bool

namespace VisitedFile

variable (library : PlanLibrary) (source target : AssetIndex) (group : AssetGroup)

/-- It is an effective file of the source, with what was extracted from it. -/
structure Sound (file : VisitedFile) : Prop where
  effective : source.effective file.path = some file.record
  path : file.record.virtualPath = file.path
  extract : source.extract file.record = .ok file.bytes
  size : file.bytes.length = file.record.size
  seen : formatSeen target (Rho5.toAsciiLowercase (extension file.path)) file.bytes = .ok file.seen

/-- The entry of the plan. -/
def plan (file : VisitedFile) : FilePlan := ⟨file.path, file.bytes.length, hex (library.sha256 file.bytes)⟩

/-- The references in it, with what they resolve to. -/
def references (file : VisitedFile) : List (String × ReferenceResolution) :=
  referencesOf library source target group file.path (stringsIn library file.path file.bytes)

/-- The reports of them. -/
def reports (file : VisitedFile) : List ReferenceReport :=
  (file.references library source target group).map fun reference => reference.2.report file.path reference.1

/-- The unresolved ones. -/
def unresolved (file : VisitedFile) : List String :=
  (file.references library source target group).filterMap fun reference => match reference.2 with
    | .missing => some (file.path ++ ": " ++ reference.1)
    | _ => none

/-- The paths in the source that they resolve to. -/
def found (file : VisitedFile) : List String :=
  (file.references library source target group).filterMap fun reference => match reference.2 with
    | .source found => some found
    | _ => none

/-- The strings in it to translate. -/
def localization (file : VisitedFile) : List (String × StructuredString) :=
  let ext := Rho5.toAsciiLowercase (extension file.path)
  if ext = "xml" ∨ ext = "kml" ∨ ext = "bml" then
    ((stringsIn library file.path file.bytes).filter fun item => hasHan item.value).map fun item => (file.path, item)
  else []

/-- Whether it has a native marker. -/
def native (file : VisitedFile) : Bool :=
  (nativeMarker file.path).isSome || (stringsIn library file.path file.bytes).any fun item =>
    !"binary:".toList.isPrefixOf item.selector.toList && (nativeMarker item.value).isSome

/-- Whether its contents could not be parsed, or its format is not one that was seen. -/
def formatUnresolved (file : VisitedFile) : Bool :=
  (analyzeContent library file.path (Rho5.toAsciiLowercase (extension file.path)) file.bytes).parseFailed || !file.seen

/-- Files visited at the same path are the same. -/
theorem Sound.unique {file other : VisitedFile} (h : file.Sound source target) (h' : other.Sound source target)
    (hpath : file.path = other.path) : file = other := by
  obtain ⟨path, record, bytes, seen⟩ := file
  obtain ⟨path', record', bytes', seen'⟩ := other
  obtain rfl : path = path' := hpath
  obtain rfl : record = record' := Option.some.inj (h.effective.symm.trans h'.effective)
  obtain rfl : bytes = bytes' := Except.ok.inj (h.extract.symm.trans h'.extract)
  obtain rfl : seen = seen' := Except.ok.inj (h.seen.symm.trans h'.seen)
  rfl

/-- A visited file has the contents that the source has at its path. -/
theorem Sound.contents {file : VisitedFile} (h : file.Sound source target) : source.contents file.path = some file.bytes := by
  unfold AssetIndex.contents
  rw [h.effective, Option.bind_some, h.extract]
  rfl

end VisitedFile

section

variable {library : PlanLibrary} {source target : AssetIndex} {group : AssetGroup} {options : PlanOptions}

/-- What the loop has found is what the visited files add to it. -/
structure Gathered (library : PlanLibrary) (source target : AssetIndex) (group : AssetGroup) (walked : List VisitedFile)
    (state : PlannerState) : Prop where
  sound : ∀ file ∈ walked, file.Sound source target
  nodup : (walked.map fun file => foldPath file.path).Nodup
  visited : ∀ folded, folded ∈ state.visited ↔ folded ∈ walked.map fun file => foldPath file.path
  files : state.files = walked.map (·.plan library)
  unresolved : state.unresolved = walked.flatMap (·.unresolved library source target group)
  localization : state.localization = walked.flatMap (·.localization library)
  totalBytes : state.totalBytes = (walked.map fun file => file.record.size).sum
  native : state.nativeRequired = walked.any (·.native library)
  format : state.formatUnresolved = walked.any (·.formatUnresolved library)
  references : state.references = walked.flatMap (·.reports library source target group)

/-- Nothing was visited at first. -/
theorem Gathered.start : Gathered library source target group [] (Planner.initialState source group options) := by
  constructor <;> simp [Planner.initialState]

/-- What was found does not depend on what is left in the queue. -/
theorem Gathered.withQueue {walked : List VisitedFile} {state : PlannerState}
    (h : Gathered library source target group walked state) (queue : List String) :
    Gathered library source target group walked { state with queue } :=
  ⟨h.sound, h.nodup, h.visited, h.files, h.unresolved, h.localization, h.totalBytes, h.native, h.format, h.references⟩

/-- A turn makes pending what the file refers to. -/
theorem collect_queue (path : String) (file : OpenedFile) (seen : Bool) (state : PlannerState) :
    (Planner.collect library source target group path file seen state).queue =
      state.queue ++ VisitedFile.found library source target group ⟨path, file.record, file.bytes, seen⟩ := rfl

/-- A file that is opened is there, within the limits. -/
theorem openFile_total {path : String} {total : Nat} {file : OpenedFile} (h : openFile source options path total = .ok file) :
    file.totalBytes = total + file.record.size ∧ file.bytes.length = file.record.size := by
  unfold openFile at h
  simp only [bind_eq_ok, orElse_eq_ok, ensure_eq_ok] at h
  obtain ⟨record, -, total', htotal, _, -, bytes, -, _, hsize, h⟩ := h
  obtain rfl := Except.ok.inj h
  exact ⟨Checked.add_eq_some.1 htotal |>.1.symm, hsize⟩

/-- A turn adds the file that it visits. -/
theorem Gathered.visit {files : List VisitedFile} {state : PlannerState} (h : Gathered library source target group files state)
    {path : String} {file : OpenedFile} {seen : Bool} (hpath : IsRecordPath source path) (hnew : foldPath path ∉ state.visited)
    (hopen : openFile source options path state.totalBytes = .ok file)
    (hseen : formatSeen target (Rho5.toAsciiLowercase (extension path)) file.bytes = .ok seen) :
    Gathered library source target group (files ++ [⟨path, file.record, file.bytes, seen⟩])
      (Planner.collect library source target group path file seen state) := by
  obtain ⟨heffective, hextract⟩ := openFile_eq_ok hopen
  obtain ⟨htotal, hsize⟩ := openFile_total hopen
  have hvirtual : file.record.virtualPath = path := by
    obtain ⟨record, hmem, rfl⟩ := hpath
    obtain ⟨hmem', hfold⟩ := source.effective_eq_some.1 heffective
    rw [source.record_inj hmem' hmem hfold]
  constructor
  · intro other hother
    rcases mem_append.1 hother with hother | hother
    · exact h.sound other hother
    · obtain rfl := mem_singleton.1 hother
      exact ⟨heffective, hvirtual, hextract, hsize, hseen⟩
  · rw [map_append, nodup_append]
    refine ⟨h.nodup, by simp, ?_⟩
    rintro folded hmem other hother rfl
    obtain rfl := mem_singleton.1 hother
    exact hnew ((h.visited _).2 hmem)
  · intro folded
    simp only [Planner.collect, Assets.collect, mem_cons, h.visited, map_append, map_cons, map_nil,
      mem_append, not_mem_nil, or_false]
    exact or_comm
  · simp only [Planner.collect, Assets.collect, h.files, map_append, map_cons, map_nil, VisitedFile.plan]
  · simp only [Planner.collect, Assets.collect, h.unresolved, flatMap_append, flatMap_cons, flatMap_nil,
      append_nil]
    rfl
  · simp only [Planner.collect, Assets.collect, h.localization, flatMap_append, flatMap_cons, flatMap_nil,
      append_nil]
    rfl
  · simp only [Planner.collect, Assets.collect, htotal, h.totalBytes, map_append, map_cons, map_nil,
      sum_append, sum_cons, sum_nil, Nat.add_zero]
  · simp only [Planner.collect, Assets.collect, h.native, any_append, any_cons, any_nil, Bool.or_false]
    rfl
  · simp only [Planner.collect, Assets.collect, h.format, any_append, any_cons, any_nil, Bool.or_false,
      Bool.or_assoc]
    rfl
  · simp only [Planner.collect, h.references, flatMap_append, flatMap_cons, flatMap_nil, append_nil]
    rfl

/-! ## A whole walk -/

/-- The references in a visited file are the candidates in it. -/
theorem VisitedFile.mem_references {file : VisitedFile} {reference : String × ReferenceResolution} :
    reference ∈ file.references library source target group ↔ ∃ candidate ∈ candidatesIn library file.path file.bytes,
      reference = (candidate, resolveReference source target file.path group candidate) := by
  simp only [VisitedFile.references, referencesOf, candidatesIn, mem_flatMap, mem_map]
  constructor
  · rintro ⟨item, hitem, candidate, hcandidate, rfl⟩
    exact ⟨candidate, ⟨item, hitem, hcandidate⟩, rfl⟩
  · rintro ⟨candidate, ⟨item, hitem, hcandidate⟩, rfl⟩
    exact ⟨item, hitem, candidate, hcandidate, rfl⟩

/-- The reports of a visited file are those of the candidates in it. -/
theorem VisitedFile.mem_reports {file : VisitedFile} {report : ReferenceReport} :
    report ∈ file.reports library source target group ↔ ∃ candidate ∈ candidatesIn library file.path file.bytes,
      report = (resolveReference source target file.path group candidate).report file.path candidate := by
  constructor
  · intro hreport
    obtain ⟨reference, hreference, rfl⟩ := mem_map.1 hreport
    obtain ⟨candidate, hcandidate, rfl⟩ := VisitedFile.mem_references.1 hreference
    refine ⟨candidate, hcandidate, ?_⟩
    dsimp only
  · rintro ⟨candidate, hcandidate, hreport⟩
    have hmem : (candidate, resolveReference source target file.path group candidate) ∈
        file.references library source target group := VisitedFile.mem_references.2 ⟨candidate, hcandidate, rfl⟩
    refine mem_map.2 ⟨_, hmem, ?_⟩
    dsimp only
    exact hreport.symm

/-- The unresolved references of a visited file are the candidates in it that are missing. -/
theorem VisitedFile.mem_unresolved {file : VisitedFile} {text : String} :
    text ∈ file.unresolved library source target group ↔ ∃ candidate ∈ candidatesIn library file.path file.bytes,
      resolveReference source target file.path group candidate = .missing ∧ text = file.path ++ ": " ++ candidate := by
  unfold VisitedFile.unresolved
  rw [mem_filterMap]
  constructor
  · rintro ⟨reference, hreference, htext⟩
    obtain ⟨candidate, hcandidate, rfl⟩ := VisitedFile.mem_references.1 hreference
    refine ⟨candidate, hcandidate, ?_⟩
    dsimp only at htext
    split at htext
    · rename_i hresolved
      exact ⟨hresolved, (Option.some.inj htext).symm⟩
    · cases htext
  · rintro ⟨candidate, hcandidate, hresolved, rfl⟩
    exact ⟨_, VisitedFile.mem_references.2 ⟨candidate, hcandidate, rfl⟩, by simp only [hresolved]⟩

/-- What a visited file makes pending is what it refers to. -/
theorem VisitedFile.Sound.mem_found {file : VisitedFile} (h : file.Sound source target) {found : String} :
    found ∈ file.found library source target group ↔ RefersTo library source target group file.path found := by
  unfold VisitedFile.found RefersTo
  rw [mem_filterMap]
  constructor
  · rintro ⟨reference, hreference, hfound⟩
    obtain ⟨candidate, hcandidate, rfl⟩ := VisitedFile.mem_references.1 hreference
    refine ⟨file.bytes, h.contents, candidate, hcandidate, ?_⟩
    dsimp only at hfound
    split at hfound
    · rename_i hresolved
      rw [hresolved, Option.some.inj hfound]
    · cases hfound
  · rintro ⟨bytes, hbytes, candidate, hcandidate, hresolved⟩
    obtain rfl : file.bytes = bytes := Option.some.inj (h.contents.symm.trans hbytes)
    exact ⟨_, VisitedFile.mem_references.2 ⟨candidate, hcandidate, rfl⟩, by simp only [hresolved]⟩

/-- Only effective files are needed. -/
theorem Needed.isRecordPath {path : String} (h : Needed library source target group options path) :
    IsRecordPath source path := by
  cases h with
  | root h =>
    obtain ⟨record, hmem, hpath, -⟩ := h
    exact ⟨record, hmem, hpath⟩
  | step _ h =>
    obtain ⟨bytes, -, candidate, -, hresolved⟩ := h
    exact isRecordPath_of_resolveReference hresolved

/-- What holds of the queue and of what was visited, between two turns. -/
abbrev Walking (library : PlanLibrary) (source target : AssetIndex) (group : AssetGroup) (options : PlanOptions)
    (walked : List VisitedFile) (state : PlannerState) : Prop :=
  Worklist.Keeps (InGroup source group options) (RefersTo library source target group) (· ∈ state.queue)
    (· ∈ walked.map (·.path))

/-- A path whose folded form was visited was visited. -/
theorem Gathered.path_mem {walked : List VisitedFile} {state : PlannerState}
    (h : Gathered library source target group walked state) {path : String} (hpath : IsRecordPath source path)
    (hvisited : foldPath path ∈ state.visited) : path ∈ walked.map (·.path) := by
  obtain ⟨file, hfile, hfold⟩ := mem_map.1 ((h.visited _).1 hvisited)
  obtain ⟨record, hmem, rfl⟩ := hpath
  have hsound := h.sound file hfile
  have hrecord := source.record_inj (source.effective_eq_some.1 hsound.effective).1 hmem (by rw [hsound.path, hfold])
  exact mem_map.2 ⟨file, hfile, by rw [← hsound.path, hrecord]⟩

/-- A walk in any order visits what is needed. -/
theorem Walk.gathered {state final : PlannerState} (h : Walk library source target group options state final)
    {walked : List VisitedFile} (hgathered : Gathered library source target group walked state)
    (hwalking : Walking library source target group options walked state) :
    ∃ walked', Gathered library source target group walked' final ∧
      ∀ path, path ∈ walked'.map (·.path) ↔ Needed library source target group options path := by
  induction h generalizing walked with
  | finish h =>
    refine ⟨walked, hgathered.withQueue [], hwalking.visited_iff fun path hpath => ?_⟩
    exact hgathered.path_mem (Needed.isRecordPath (hwalking.reached path (.inl hpath))) (h path hpath)
  | @drop state final path queue hqueue hvisited h ih =>
    refine ih (hgathered.withQueue queue) ?_
    have hpath : path ∈ state.queue := hqueue.mem_iff.2 mem_cons_self
    refine hwalking.drop (fun other hother => hqueue.mem_iff.2 (mem_cons_of_mem _ hother)) fun other hother => ?_
    rcases mem_cons.1 (hqueue.mem_iff.1 hother) with rfl | hother
    · exact .inr (hgathered.path_mem (Needed.isRecordPath (hwalking.reached other (.inl hpath))) hvisited)
    · exact .inl hother
  | @visit state final path queue file seen hqueue hnew hopen hseen h ih =>
    have hpath : path ∈ state.queue := hqueue.mem_iff.2 mem_cons_self
    have hrecord := Needed.isRecordPath (hwalking.reached path (.inl hpath))
    have hafter := (hgathered.withQueue queue).visit hrecord hnew hopen hseen
    refine ih hafter ?_
    have hsound := hafter.sound ⟨path, file.record, file.bytes, seen⟩ (mem_append_right _ (mem_singleton_self _))
    simp only [Walking, collect_queue, mem_append]
    refine hwalking.visit hpath (fun other => ?_) (fun other hother => ?_) (fun other hother => ?_) fun other hother => ?_
    · simp only [map_append, map_cons, map_nil, mem_append, mem_singleton]
      exact or_comm
    · exact .inr (hsound.mem_found.2 hother)
    · rcases hother with hother | hother
      · exact .inl (hqueue.mem_iff.2 (mem_cons_of_mem _ hother))
      · exact .inr (hsound.mem_found.1 hother)
    · rcases mem_cons.1 (hqueue.mem_iff.1 hother) with rfl | hother
      · exact .inr rfl
      · exact .inl (.inl hother)

/-- Dropping what was visited from the head of the queue is part of a walk. -/
theorem Walk.of_dropWhile {state final : PlannerState} (queue : List String)
    (h : Walk library source target group options
      { state with queue := queue.dropWhile fun path => foldPath path ∈ state.visited } final) :
    Walk library source target group options { state with queue } final := by
  induction queue with
  | nil => exact h
  | cons path queue ih =>
    by_cases hvisited : foldPath path ∈ state.visited
    · rw [dropWhile_cons_of_pos (by simpa using hvisited)] at h
      exact .drop (.refl _) hvisited (ih h)
    · rw [dropWhile_cons_of_neg (by simpa using hvisited)] at h
      exact h

/-- A turn that succeeds opens the file, looks for its format and collects what is in it. -/
theorem visit_eq_ok {path : String} {state state' : PlannerState} {cache : SignatureCache} (hsound : cache.Sound target)
    (h : (Planner.visit library source target group options path state cache).1 = .ok state') :
    ∃ file seen, openFile source options path state.totalBytes = .ok file ∧
      formatSeen target (Rho5.toAsciiLowercase (extension path)) file.bytes = .ok seen ∧
      state' = Planner.collect library source target group path file seen state := by
  unfold Planner.visit at h
  cases hopen : openFile source options path state.totalBytes with
  | error error =>
    rw [hopen] at h
    cases h
  | ok file =>
    rw [hopen] at h
    have hseen := (Planner.formatSeen_eq hsound (Rho5.toAsciiLowercase (extension path)) file.bytes).1
    dsimp only at h
    generalize Planner.formatSeen target (Rho5.toAsciiLowercase (extension path)) file.bytes cache = result at h hseen
    obtain ⟨error | seen, cache'⟩ := result
    · cases h
    · exact ⟨file, seen, rfl, hseen.symm, (Except.ok.inj h).symm⟩

/-- The loop of a planner walks over the queue from its head. -/
theorem walk_of_visitAll {budget : Nat} {state final : PlannerState} {cache : SignatureCache} (hsound : cache.Sound target)
    (h : (Planner.visitAll library source target group options budget state cache).1 = .ok final) :
    Walk library source target group options state final := by
  have hdone : ∀ state : PlannerState, (state.queue.dropWhile fun path => foldPath path ∈ state.visited) = [] →
      Walk library source target group options state { state with queue := [] } := by
    intro state hqueue
    refine .finish fun path hpath => ?_
    simpa using dropWhile_eq_nil_iff.1 hqueue path hpath
  induction budget generalizing state cache with
  | zero =>
    unfold Planner.visitAll at h
    cases hqueue : state.queue.dropWhile (fun path => foldPath path ∈ state.visited) with
    | nil =>
      rw [hqueue] at h
      obtain rfl := Except.ok.inj h
      exact hdone state hqueue
    | cons path queue =>
      rw [hqueue] at h
      cases h
  | succ budget ih =>
    unfold Planner.visitAll at h
    cases hqueue : state.queue.dropWhile (fun path => foldPath path ∈ state.visited) with
    | nil =>
      rw [hqueue] at h
      obtain rfl := Except.ok.inj h
      exact hdone state hqueue
    | cons path queue =>
      rw [hqueue] at h
      refine Walk.of_dropWhile state.queue ?_
      rw [hqueue]
      have hnew : foldPath path ∉ state.visited := by
        have hne : state.queue.dropWhile (fun path => foldPath path ∈ state.visited) ≠ [] := by simp [hqueue]
        have hnot := head_dropWhile_not (fun path => decide (foldPath path ∈ state.visited)) hne
        simpa [hqueue] using hnot
      have hvisit (state' : PlannerState)
          (h : (Planner.visit library source target group options path { state with queue } cache).1 = .ok state') :=
        visit_eq_ok hsound h
      have hafter := (Planner.visit_eq library source group options hsound path { state with queue }).2
      dsimp only at h
      generalize Planner.visit library source target group options path { state with queue } cache = result
        at h hvisit hafter
      obtain ⟨error | state', cache'⟩ := result
      · cases h
      · obtain ⟨file, seen, hopen, hseen, rfl⟩ := hvisit _ rfl
        exact .visit (.refl _) hnew hopen hseen (ih hafter h)

/-! ## The status -/

/-- A search that ends has found whether one of the files has the signature. -/
theorem search_eq_ok {signature : List UInt8} {records : List AssetRecord} {seen : Bool}
    (h : targetFormatSeen.search target signature records = .ok seen) :
    seen = true ↔ ∃ record ∈ records, ∃ bytes, target.extract record = .ok bytes ∧ bytes.take 2 = signature := by
  induction records with
  | nil =>
    cases h
    simp
  | cons record records ih =>
    unfold targetFormatSeen.search at h
    obtain ⟨bytes, hbytes, h⟩ := bind_eq_ok.1 h
    have hbytes := mapError_eq_ok.1 hbytes
    rw [exists_mem_cons_iff]
    split at h
    · rename_i hfound
      cases h
      simp only [true_iff]
      exact .inl ⟨bytes, hbytes, hfound⟩
    · rename_i hother
      rw [ih h]
      constructor
      · exact .inr
      · rintro (⟨bytes', hbytes', hfound⟩ | hlater)
        · rw [hbytes] at hbytes'
          cases hbytes'
          exact absurd hfound hother
        · exact hlater

/-- A visited file is clean when it adds nothing that stands against the group. -/
theorem VisitedFile.Sound.isClean_iff {file : VisitedFile} (h : file.Sound source target) :
    Clean library source target group file.path file.bytes ↔ file.native library = false ∧
      file.formatUnresolved library = false ∧ file.unresolved library source target group = [] ∧
      file.localization library = [] := by
  have hseen : Rho5.toAsciiLowercase (extension file.path) = "1s" →
      (file.seen = true ↔ SignatureSeen target (file.bytes.take 2)) := by
    intro hext
    have hfound := h.seen
    rw [formatSeen, if_pos hext] at hfound
    exact search_eq_ok hfound
  have hother : Rho5.toAsciiLowercase (extension file.path) ≠ "1s" → file.seen = true := by
    intro hext
    have hfound := h.seen
    rw [formatSeen, if_neg hext] at hfound
    exact (Except.ok.inj hfound).symm
  constructor
  · intro hclean
    refine ⟨?_, ?_, ?_, ?_⟩
    · unfold VisitedFile.native
      rw [hclean.marked.1, Option.isSome_none, Bool.false_or, any_eq_false]
      intro item hitem
      cases hbinary : "binary:".toList.isPrefixOf item.selector.toList with
      | true =>
        rw [Bool.not_true, Bool.false_and]
        exact Bool.false_ne_true
      | false =>
        rw [hclean.marked.2 item hitem hbinary, Option.isSome_none, Bool.and_false]
        exact Bool.false_ne_true
    · unfold VisitedFile.formatUnresolved
      rw [hclean.parsed, Bool.false_or]
      by_cases hext : Rho5.toAsciiLowercase (extension file.path) = "1s"
      · rw [(hseen hext).2 (hclean.seen hext), Bool.not_true]
      · rw [hother hext, Bool.not_true]
    · unfold VisitedFile.unresolved
      rw [filterMap_eq_nil_iff]
      intro reference hreference
      obtain ⟨candidate, hcandidate, rfl⟩ := VisitedFile.mem_references.1 hreference
      have hresolved := hclean.resolved candidate hcandidate
      dsimp only
      split
      · rename_i hmissing
        exact absurd hmissing hresolved
      · rfl
    · unfold VisitedFile.localization
      dsimp only
      split
      · rename_i hext
        rw [map_eq_nil_iff, filter_eq_nil_iff]
        intro item hitem
        simp [hclean.translated (by simpa using hext) item hitem]
      · rfl
  · rintro ⟨hnative, hformat, hunresolved, hlocalization⟩
    simp only [VisitedFile.native, Bool.or_eq_false_iff, any_eq_false] at hnative
    simp only [VisitedFile.formatUnresolved, Bool.or_eq_false_iff, Bool.not_eq_false'] at hformat
    refine ⟨?_, hformat.1, ?_, ⟨by simpa using hnative.1, ?_⟩, fun hext => (hseen hext).1 hformat.2⟩
    · intro candidate hcandidate hmissing
      have hnone := filterMap_eq_nil_iff.1 hunresolved _ (VisitedFile.mem_references.2 ⟨candidate, hcandidate, rfl⟩)
      simp only [hmissing, reduceCtorEq] at hnone
    · intro hext item hitem
      unfold VisitedFile.localization at hlocalization
      dsimp only at hlocalization
      rw [if_pos (by simpa using hext), map_eq_nil_iff, filter_eq_nil_iff] at hlocalization
      simpa using hlocalization item hitem
    · intro item hitem hbinary
      have hunmarked := hnative.2 item hitem
      rw [hbinary, Bool.not_false, Bool.true_and] at hunmarked
      simpa using hunmarked

/-- A group is compatible when nothing stands against it. -/
theorem statusOf_eq_compatible {experimental : Bool} {state : PlanState} :
    statusOf experimental state = .compatibleCandidate ↔ state.nativeRequired = false ∧ state.formatUnresolved = false ∧
      state.unresolved = [] ∧ state.localization = [] := by
  unfold statusOf
  cases hnative : state.nativeRequired with
  | true =>
    simp only [true_and, if_true, Bool.true_eq_false, false_and, iff_false]
    split <;> simp
  | false =>
    simp only [Bool.false_eq_true, false_and, if_false, true_and]
    cases hformat : state.formatUnresolved with
    | true => simp
    | false =>
      by_cases hunresolved : state.unresolved = []
      · by_cases hlocalization : state.localization = []
        · simp [hunresolved, hlocalization]
        · simp [hunresolved, hlocalization]
      · simp [hunresolved]

/-- A group is compatible exactly when every visited file is clean. -/
theorem Gathered.status_iff {walked : List VisitedFile} {state : PlannerState}
    (h : Gathered library source target group walked state) (experimental : Bool) :
    statusOf experimental state.toPlanState = .compatibleCandidate ↔
      ∀ file ∈ walked, Clean library source target group file.path file.bytes := by
  rw [statusOf_eq_compatible, h.native, h.format, h.unresolved, h.localization, any_eq_false, any_eq_false,
    flatMap_eq_nil_iff, flatMap_eq_nil_iff]
  constructor
  · rintro ⟨hnative, hformat, hunresolved, hlocalization⟩ file hfile
    exact (h.sound file hfile).isClean_iff.2 ⟨by simpa using hnative file hfile, by simpa using hformat file hfile,
      hunresolved file hfile, hlocalization file hfile⟩
  · intro hclean
    have hall (file : VisitedFile) (hfile : file ∈ walked) := (h.sound file hfile).isClean_iff.1 (hclean file hfile)
    exact ⟨fun file hfile => by simp [(hall file hfile).1], fun file hfile => by simp [(hall file hfile).2.1],
      fun file hfile => (hall file hfile).2.2.1, fun file hfile => (hall file hfile).2.2.2⟩

/-! ## The order -/

/-- Two walks that visit the same paths visit the same files. -/
theorem Gathered.perm {walked walked' : List VisitedFile} {state state' : PlannerState}
    (h : Gathered library source target group walked state) (h' : Gathered library source target group walked' state')
    (hpaths : ∀ path, path ∈ walked.map (·.path) ↔ path ∈ walked'.map (·.path)) : walked.Perm walked' := by
  have hnodup {walked : List VisitedFile} (h : (walked.map fun file => foldPath file.path).Nodup) : walked.Nodup :=
    Nodup.of_map _ h
  rw [perm_ext_iff_of_nodup (hnodup h.nodup) (hnodup h'.nodup)]
  intro file
  constructor
  · intro hfile
    obtain ⟨other, hother, hpath⟩ := mem_map.1 ((hpaths _).1 (mem_map.2 ⟨file, hfile, rfl⟩))
    rwa [(h.sound file hfile).unique source target (h'.sound other hother) hpath.symm]
  · intro hfile
    obtain ⟨other, hother, hpath⟩ := mem_map.1 ((hpaths _).2 (mem_map.2 ⟨file, hfile, rfl⟩))
    rwa [(h'.sound file hfile).unique source target (h.sound other hother) hpath.symm]

/-- The status says the same of files in another order. -/
theorem Gathered.status_congr {walked walked' : List VisitedFile} {state state' : PlannerState}
    (h : Gathered library source target group walked state) (h' : Gathered library source target group walked' state')
    (hperm : walked.Perm walked') (experimental : Bool) :
    statusOf experimental state.toPlanState = statusOf experimental state'.toPlanState := by
  have hnative : state.nativeRequired = state'.nativeRequired := by
    rw [h.native, h'.native, hperm.any_eq]
  have hformat : state.formatUnresolved = state'.formatUnresolved := by
    rw [h.format, h'.format, hperm.any_eq]
  have hunresolved : state.unresolved = [] ↔ state'.unresolved = [] := by
    rw [h.unresolved, h'.unresolved, flatMap_eq_nil_iff, flatMap_eq_nil_iff]
    exact forall_congr' fun file => by rw [hperm.mem_iff]
  have hlocalization : state.localization = [] ↔ state'.localization = [] := by
    rw [h.localization, h'.localization, flatMap_eq_nil_iff, flatMap_eq_nil_iff]
    exact forall_congr' fun file => by rw [hperm.mem_iff]
  unfold statusOf
  simp only [hnative, hformat, ne_eq, hunresolved, hlocalization]

/-- The reports of the visited files are those of the candidates in the files that are needed. -/
theorem Gathered.exists_file {walked : List VisitedFile} {state : PlannerState}
    (h : Gathered library source target group walked state)
    (hneeded : ∀ path, path ∈ walked.map (·.path) ↔ Needed library source target group options path)
    (p : String → List UInt8 → Prop) :
    (∃ file ∈ walked, p file.path file.bytes) ↔
      ∃ path bytes, Needed library source target group options path ∧ source.contents path = some bytes ∧ p path bytes := by
  constructor
  · rintro ⟨file, hfile, hp⟩
    exact ⟨file.path, file.bytes, (hneeded _).1 (mem_map.2 ⟨file, hfile, rfl⟩), (h.sound file hfile).contents, hp⟩
  · rintro ⟨path, bytes, hpath, hbytes, hp⟩
    obtain ⟨file, hfile, rfl⟩ := mem_map.1 ((hneeded _).2 hpath)
    obtain rfl : file.bytes = bytes := Option.some.inj ((h.sound file hfile).contents.symm.trans hbytes)
    exact ⟨file, hfile, hp⟩

/-! ## The plan -/

/-- What a walk over a group has found makes a plan that says what it should. -/
theorem closureLaw_of_walk {state : PlannerState}
    (h : Walk library source target group options (Planner.initialState source group options) state) :
    ClosureLaw library source target group options (Planner.finish library group options state).1 := by
  have hstart : Walking library source target group options [] (Planner.initialState source group options) := by
    have hroots : (· ∈ (Planner.initialState source group options).queue) = InGroup source group options :=
      funext fun path => propext mem_initialQueue
    have hnone : (· ∈ ([] : List VisitedFile).map (·.path)) = fun _ => False := by simp
    unfold Walking
    rw [hroots, hnone]
    exact .start
  obtain ⟨walked, hgathered, hneeded⟩ := h.gathered Gathered.start hstart
  have hfiles : (Planner.finish library group options state).1.files.Perm (walked.map (·.plan library)) := by
    rw [← hgathered.files]
    exact perm_insertionSort _ _
  constructor
  · intro path
    rw [(hfiles.map _).mem_iff, map_map, ← hneeded]
    rfl
  · rw [(hfiles.map _).nodup_iff, map_map]
    exact hgathered.nodup
  · intro entry hentry
    obtain ⟨file, hfile, rfl⟩ := mem_map.1 (hfiles.mem_iff.1 hentry)
    have hsound := hgathered.sound file hfile
    exact ⟨file.record, file.bytes, hsound.effective, hsound.path, hsound.extract, hsound.size.symm, rfl, rfl⟩
  · rw [(hfiles.map _).sum_nat, map_map]
    refine hgathered.totalBytes.trans (congrArg sum (map_congr_left fun file hfile => ?_))
    exact (hgathered.sound file hfile).size.symm
  · intro report
    change report ∈ state.references.toFinset ↔ _
    rw [mem_toFinset, hgathered.references, mem_flatMap, ← hgathered.exists_file hneeded fun path bytes =>
      ∃ candidate ∈ candidatesIn library path bytes,
        report = (resolveReference source target path group candidate).report path candidate]
    exact exists_congr fun file => and_congr_right fun _ => VisitedFile.mem_reports
  · intro text
    change text ∈ sortedSet state.unresolved ↔ _
    rw [mem_sortedSet, hgathered.unresolved, mem_flatMap, ← hgathered.exists_file hneeded fun path bytes =>
      ∃ candidate ∈ candidatesIn library path bytes,
        resolveReference source target path group candidate = .missing ∧ text = path ++ ": " ++ candidate]
    exact exists_congr fun file => and_congr_right fun _ => VisitedFile.mem_unresolved
  · change statusOf _ state.toPlanState = _ ↔ _
    rw [hgathered.status_iff]
    constructor
    · intro hclean path bytes hpath hbytes
      obtain ⟨file, hfile, rfl⟩ := mem_map.1 ((hneeded path).2 hpath)
      obtain rfl : file.bytes = bytes := Option.some.inj ((hgathered.sound file hfile).contents.symm.trans hbytes)
      exact hclean file hfile
    · intro hclean file hfile
      exact hclean file.path file.bytes ((hneeded _).1 (mem_map.2 ⟨file, hfile, rfl⟩))
        (hgathered.sound file hfile).contents
  · intro final hfinal
    obtain ⟨walked', hgathered', hneeded'⟩ := hfinal.gathered Gathered.start hstart
    have hperm := hgathered'.perm hgathered fun path => (hneeded' path).trans (hneeded path).symm
    refine ⟨hgathered'.status_congr hgathered hperm _, ?_, ?_, ?_⟩
    · rw [hgathered'.files]
      exact (hperm.map _).trans hfiles.symm
    · rw [hgathered'.totalBytes, (hperm.map _).sum_nat]
      exact hgathered.totalBytes.symm
    · change _ = state.references.toFinset
      rw [hgathered'.references, hgathered.references]
      exact toFinset_eq_of_perm _ _ (hperm.flatMap_right _)

/-- Planning a group comes to an end. -/
theorem planGroup_ne_exhausted : planGroup library source target group options ≠ .error .exhausted := by
  intro h
  unfold planGroup at h
  rcases bind_eq_error.1 h with h | ⟨_, -, h⟩
  · exact absurd (ensure_eq_error.1 h).2 (by simp)
  rcases bind_eq_error.1 h with h | ⟨state, -, h⟩
  · exact (PlanState.Sound.initial library source group _).not_exhausted (Nat.le_add_right _ _) h
  · cases h

end

/-! ## Two files that refer to each other -/

/-- An index of two files of one kart. -/
def cycleIndex : AssetIndex where
  effectiveRecords := [⟨"kart/a/x.xml", 1, .rho5 0⟩, ⟨"kart/a/y.xml", 1, .rho5 1⟩]
  sorted := by decide +kernel
  extract record := .ok [if record.origin = .rho5 0 then 0 else 1]

/-- Libraries with which each of the files names the other. -/
def cycleLibrary : PlanLibrary where
  sha256 _ := []
  isAlphanumeric := Char.isAlphanum
  analyzeXml bytes := some [⟨"/kart", "text", if bytes = [0] then "y.xml" else "x.xml"⟩]
  activeOrdinaryTrackIds := .ok []

/-- The kart. -/
def cycleGroup : AssetGroup := ⟨"kart", "a", "kart/a", false⟩

/-- Room for both files. -/
def cycleOptions : PlanOptions := ⟨"all", none, [], [], false, 1, 2⟩

end Assets

end P5136
