import P5136.Assets.Names
import P5136.Lib.FiniteMap
import P5136.Rho5.Aaa

/-!
# Planning asset groups

A plan goes over the groups of the source that are selected. For each it collects the files of the group and, over the references
in their contents, the source files they depend on, and writes a manifest of them. What the contents of an XML file say, what is
alphanumeric, and the digests come from libraries; the files of both indexes can be extracted or not, the same way each time.
-/

namespace P5136

namespace Assets

open Checks

/-- `LegacyRhoFileProperty`. -/
inductive FileProperty where
  | none | compressed | encrypted | partialEncrypted | compressedEncrypted
deriving DecidableEq

def propertyName : FileProperty → String
  | .none => "none"
  | .compressed => "compressed"
  | .encrypted => "encrypted"
  | .partialEncrypted => "partial_encrypted"
  | .compressedEncrypted => "compressed_encrypted"

/-- Where a file of an index is. -/
inductive AssetOrigin where
  | legacy (archive internalPath : String) (property : FileProperty)
  | rho5 (entryIndex : Nat)
deriving DecidableEq

/-- A file of an index. -/
structure AssetRecord where
  virtualPath : String
  size : Nat
  origin : AssetOrigin
deriving DecidableEq

/-- An index: its effective records, one for each folded path and in the order of those, and what they extract to. -/
structure AssetIndex where
  effectiveRecords : List AssetRecord
  sorted : (effectiveRecords.map fun record => foldPath record.virtualPath).Pairwise (· < ·)
  extract : AssetRecord → Except String (List UInt8)

def AssetIndex.effective (index : AssetIndex) (path : String) : Option AssetRecord :=
  index.effectiveRecords.find? fun record => foldPath record.virtualPath == foldPath path

/-- A string found in the contents of a file. -/
structure StructuredString where
  selector : String
  field : String
  value : String
deriving DecidableEq

/-- The localization tasks of a `BTreeSet`, in its order: by path, selector, field and value, sorted in turn from the last. -/
def sortedTasks (tasks : List (String × StructuredString)) : List (String × StructuredString) :=
  let fields := (tasks.eraseDups.insertionSort fun a b => a.2.value ≤ b.2.value).insertionSort fun a b => a.2.field ≤ b.2.field
  (fields.insertionSort fun a b => a.2.selector ≤ b.2.selector).insertionSort fun a b => a.1 ≤ b.1

/-- What the analysis of a file's contents found. -/
structure ContentAnalysis where
  strings : List StructuredString
  parseFailed : Bool
deriving DecidableEq

/-- The libraries that a plan uses. -/
structure PlanLibrary where
  /-- The digest of some bytes. -/
  sha256 : List UInt8 → List UInt8
  /-- `char::is_alphanumeric`. -/
  isAlphanumeric : Char → Bool
  /-- The strings of an XML document, when it is one. -/
  analyzeXml : List UInt8 → Option (List StructuredString)
  /-- `active_ordinary_track_ids` of the source. -/
  activeOrdinaryTrackIds : Except String (List String)

structure PlanOptions where
  category : String
  asset : Option String
  assetSelectors : List String
  experimentalNativeSelectors : List String
  includeExisting : Bool
  maxAssets : Nat
  maxAssetBytes : Nat
deriving DecidableEq

/-! ## The strings of a file -/

/-- `push_structured`; none when the string or the strings before it are too large. -/
def pushStructured (output : List StructuredString) (selector field value : String) : Option (List StructuredString) :=
  if output.length < 250000 ∧ value.utf8ByteSize ≤ 64 * 1024 then
    some (if trim value = "" then output else output ++ [⟨selector, field, value⟩])
  else none

mutual

def collectBmlStrings : AaaNode → (parent : String) → (sibling : Nat) → List StructuredString →
    Option (List StructuredString)
  | ⟨name, text, attributes, children⟩, parent, sibling, output => do
    let selector := parent ++ "/" ++ name ++ "[" ++ toString sibling ++ "]"
    let output ← pushStructured output selector "text" text
    let output ← attributes.foldlM (fun output pair => pushStructured output selector ("attribute:" ++ pair.1) pair.2) output
    collectBmlChildren children selector 0 output

/-- The loop of `collect_bml_strings` over the children. -/
def collectBmlChildren : List AaaNode → (parent : String) → (sibling : Nat) → List StructuredString →
    Option (List StructuredString)
  | [], _, _, output => some output
  | child :: children, parent, sibling, output => do
    let output ← collectBmlStrings child parent sibling output
    collectBmlChildren children parent (sibling + 1) output

end

def analyzeBml (bytes : List UInt8) : Option (List StructuredString) :=
  match AaaNode.decodeBinaryXml bytes .default with
  | .ok node => collectBmlStrings node "" 0 []
  | .error _ => none

/-- Runs of so many accepted elements. -/
def longRuns {α : Type} (accept : α → Bool) : (current : List α) → List α → List (List α)
  | current, [] => if 4 ≤ current.length then [current] else []
  | current, a :: rest =>
    if accept a then longRuns accept (current ++ [a]) rest
    else (if 4 ≤ current.length then [current] else []) ++ longRuns accept [] rest

def referenceCandidates (library : PlanLibrary) (value : String) : List String :=
  let tokens := value.toList.splitOnP fun c =>
    !(library.isAlphanumeric c || c == '_' || c == '-' || c == '.' || c == '@' || c == '/' || c == '\\')
  let tokens := tokens.map withSlashes
  sortedSet ((tokens.filter fun token =>
    let hasStem := match rsplitOnce '.' token with
      | some (stem, _) => trimMatches (fun c => c == '/' || c == '\\' || c == '.') stem ≠ []
      | none => false
    hasStem && (String.ofList token).utf8ByteSize ≤ 4096 && isAssetExtension (extension (.ofList token))).map .ofList)

def scanBinaryStrings (library : PlanLibrary) (path : String) (bytes : List UInt8) : List StructuredString :=
  let narrow := (longRuns (fun b : UInt8 => 0x20 ≤ b.toNat && b.toNat ≤ 0x7e) [] bytes).map fun run =>
    String.ofList (run.map fun b => Char.ofNat b.toNat)
  let wide := (longRuns (fun u : UInt16 => 0x20 ≤ u.toNat && u.toNat ≠ 0x7f) [] (LittleEndian.words bytes)).filterMap
    fun run => (Utf16.decode run).map String.ofList
  let values := ((sortedSet (narrow ++ wide)).filter fun value => !(referenceCandidates library value).isEmpty).take 250000
  values.zipIdx.map fun (value, index) =>
    ⟨"binary:" ++ path ++ ":" ++ toString index, "embedded_string", value⟩

def analyzeContent (library : PlanLibrary) (path ext : String) (bytes : List UInt8) : ContentAnalysis :=
  let structured (strings : Option (List StructuredString)) : ContentAnalysis := ⟨strings.getD [], strings.isNone⟩
  if ext = "xml" ∨ ext = "kml" then structured (library.analyzeXml bytes)
  else if ext = "bml" then structured (analyzeBml bytes)
  else if ext = "1s" ∨ ext = "uset" ∨ ext = "kap" then ⟨scanBinaryStrings library path bytes, false⟩
  else ⟨[], false⟩

/-! ## Groups -/

/-- A group of the source that is planned. -/
structure AssetGroup where
  category : String
  assetId : String
  virtualPrefix : String
  targetHasGroup : Bool
deriving DecidableEq

/-- The key of an asset in the selectors. -/
def assetKey (category assetId : String) : String := Rho5.toAsciiLowercase category ++ ":" ++ Rho5.toAsciiLowercase assetId

/-- The group that a record of the source stands for, when it is selected. -/
def candidateOf (activeTracks targetGroups : List String) (options : PlanOptions) (record : AssetRecord) :
    Option AssetGroup :=
  match groupForPath record.virtualPath with
  | none => none
  | some (category, assetId, virtualPrefix) =>
    if category = "track" ∧ ¬foldPath assetId ∈ activeTracks then none
    else if options.category ≠ "all" ∧ options.category ≠ category then none
    else if (match options.asset with
      | some wanted => !eqIgnoreAsciiCase assetId wanted && !eqIgnoreAsciiCase virtualPrefix wanted
      | none => false) then none
    else if options.assetSelectors ≠ [] ∧ ¬assetKey category assetId ∈ options.assetSelectors then none
    else
      let targetHasGroup := decide (foldPath virtualPrefix ∈ targetGroups)
      if targetHasGroup ∧ !options.includeExisting then none
      else some ⟨category, assetId, virtualPrefix, targetHasGroup⟩

/-- Why a plan is not made at all. -/
inductive RunPlanError where
  | maxAssetsZero
  | maxAssetBytesZero
  | invalidCategory (category : String)
  | activeTracks (error : String)
  | tooManyGroups (matched maximum : Nat)
deriving DecidableEq

/-- The first of each groups with one folded prefix. -/
def firstGroups : List AssetGroup → List AssetGroup
  | [] => []
  | group :: groups =>
    group :: (firstGroups groups).filter fun other => foldPath other.virtualPrefix ≠ foldPath group.virtualPrefix

def selectGroups (library : PlanLibrary) (source target : AssetIndex) (options : PlanOptions) :
    Except RunPlanError (List AssetGroup) := do
  let activeTracks ← library.activeOrdinaryTrackIds.mapError .activeTracks
  let targetGroups := (target.effectiveRecords.filterMap fun record => groupForPath record.virtualPath).map fun group =>
    foldPath group.2.2
  let candidates := source.effectiveRecords.filterMap (candidateOf activeTracks targetGroups options)
  let groups := (firstGroups candidates).insertionSort fun a b => foldPath a.virtualPrefix ≤ foldPath b.virtualPrefix
  if groups.length > options.maxAssets then
    if options.asset.isSome ∨ options.assetSelectors ≠ [] then .error (.tooManyGroups groups.length options.maxAssets)
    else pure (groups.take options.maxAssets)
  else pure groups

/-! ## References -/

inductive ReferenceResolution where
  | source (path : String)
  | target (path : String)
  | missing
deriving DecidableEq

def resolveReference (source target : AssetIndex) (origin : String) (group : AssetGroup) (candidate : String) :
    ReferenceResolution :=
  let parent := match rsplitOnce '/' origin.toList with
    | some (parent, _) => String.ofList parent
    | none => ""
  let groupRoot := String.ofList (if '/' ∈ group.virtualPrefix.toList then
    group.virtualPrefix.toList.takeWhile (· != '/') else [])
  let attempts := (if (categoryForRoot (.ofList (candidate.toList.takeWhile (· != '/')))).isSome then
    [normalizeVirtual candidate] else []) ++
    [normalizeVirtual (parent ++ "/" ++ candidate), normalizeVirtual (group.virtualPrefix ++ "/" ++ candidate),
      normalizeVirtual (groupRoot ++ "/" ++ candidate)]
  let attempts := sortedSet (attempts.filterMap id)
  match attempts.findSome? source.effective with
  | some record => .source record.virtualPath
  | none => match attempts.findSome? target.effective with
    | some record => .target record.virtualPath
    | none => .missing

/-! ## Files of a group -/

/-- Where a manifest takes an entry from. -/
inductive DraftSource where
  | rho5Cn (path : String)
  | legacy (archive path : String)
deriving DecidableEq

/-- An entry of a manifest. -/
structure DraftManifestEntry where
  source : DraftSource
  targetPath : String
  property : Option String
  expectedSha256 : String
deriving DecidableEq

def manifestEntry (record : AssetRecord) (expectedSha256 : String) : DraftManifestEntry :=
  match record.origin with
  | .legacy archive internalPath property =>
    ⟨.legacy archive internalPath, record.virtualPath, some (propertyName property), expectedSha256⟩
  | .rho5 _ => ⟨.rho5Cn record.virtualPath, record.virtualPath, none, expectedSha256⟩

/-- A planned file. -/
structure FilePlan where
  virtualPath : String
  bytes : Nat
  sha256 : String
deriving DecidableEq

/-- Why a group cannot be planned. -/
inductive PlanGroupError where
  | noEffectiveFiles
  | dependencyDisappeared (path : String)
  | byteCountOverflow
  | tooLarge (maximum : Nat)
  | extract (path error : String)
  | sizeChanged (path : String)
  | extractTarget (error : String)
  | exhausted
deriving DecidableEq

/-- `target_format_seen`. What is remembered of earlier calls only saves extractions. -/
def targetFormatSeen (target : AssetIndex) (ext : String) (signature : List UInt8) : Except PlanGroupError Bool :=
  let rec search : List AssetRecord → Except PlanGroupError Bool
    | [] => .ok false
    | record :: records => do
      let bytes ← (target.extract record).mapError .extractTarget
      if bytes.take 2 = signature then pure true else search records
  search ((target.effectiveRecords.filter fun record => extension record.virtualPath == ext).take 128)

/-- What the loop of `plan_group` has found: the paths still to visit, the folded paths visited, and what it collects. -/
structure PlanState where
  queue : List String
  visited : List String
  files : List FilePlan
  manifestEntries : List DraftManifestEntry
  unresolved : List String
  localization : List (String × StructuredString)
  totalBytes : Nat
  nativeRequired : Bool
  formatUnresolved : Bool

/-- The references in the strings of a file, in order, each with what it resolves to. -/
def referencesOf (library : PlanLibrary) (source target : AssetIndex) (group : AssetGroup) (path : String)
    (strings : List StructuredString) : List (String × ReferenceResolution) :=
  strings.flatMap fun item => (referenceCandidates library item.value).map fun candidate =>
    (candidate, resolveReference source target path group candidate)

/-- A file as it is visited: its record, its bytes, and how many bytes there are with it. -/
structure OpenedFile where
  record : AssetRecord
  bytes : List UInt8
  totalBytes : Nat

/-- The file at a path, within the limit. -/
def openFile (source : AssetIndex) (options : PlanOptions) (path : String) (totalBytes : Nat) :
    Except PlanGroupError OpenedFile := do
  let record ← orElse (source.effective path) (.dependencyDisappeared path)
  let totalBytes ← orElse (Checked.add totalBytes record.size) .byteCountOverflow
  ensure (totalBytes ≤ options.maxAssetBytes) (.tooLarge options.maxAssetBytes)
  let bytes ← (source.extract record).mapError (.extract path)
  ensure (bytes.length = record.size) (.sizeChanged path)
  pure ⟨record, bytes, totalBytes⟩

/-- Whether the target has files of the format of a file. -/
def formatSeen (target : AssetIndex) (ext : String) (bytes : List UInt8) : Except PlanGroupError Bool :=
  if ext = "1s" then targetFormatSeen target "1s" (bytes.take 2) else .ok true

/-- What a file adds to what the loop has found. -/
def collect (library : PlanLibrary) (source target : AssetIndex) (group : AssetGroup) (path : String) (file : OpenedFile)
    (seen : Bool) (state : PlanState) : PlanState :=
  let sha256 := hex (library.sha256 file.bytes)
  let ext := Rho5.toAsciiLowercase (extension path)
  let analysis := analyzeContent library path ext file.bytes
  let native := (nativeMarker path).isSome || analysis.strings.any fun item =>
    !"binary:".toList.isPrefixOf item.selector.toList && (nativeMarker item.value).isSome
  let localization := if ext = "xml" ∨ ext = "kml" ∨ ext = "bml" then
    (analysis.strings.filter fun item => hasHan item.value).map fun item => (path, item) else []
  let references := referencesOf library source target group path analysis.strings
  let found := references.filterMap fun reference => match reference.2 with
    | .source found => some found
    | _ => none
  let unresolved := references.filterMap fun reference => match reference.2 with
    | .missing => some (path ++ ": " ++ reference.1)
    | _ => none
  { queue := state.queue ++ found
    visited := foldPath path :: state.visited
    files := state.files ++ [⟨path, file.bytes.length, sha256⟩]
    manifestEntries := state.manifestEntries ++ [manifestEntry file.record sha256]
    unresolved := state.unresolved ++ unresolved
    localization := state.localization ++ localization
    totalBytes := file.totalBytes
    nativeRequired := state.nativeRequired || native
    formatUnresolved := state.formatUnresolved || analysis.parseFailed || !seen }

/-- One turn of the loop of `plan_group`, for a path that was not visited. -/
def visit (library : PlanLibrary) (source target : AssetIndex) (group : AssetGroup) (options : PlanOptions) (path : String)
    (state : PlanState) : Except PlanGroupError PlanState := do
  let file ← openFile source options path state.totalBytes
  let seen ← formatSeen target (Rho5.toAsciiLowercase (extension path)) file.bytes
  pure (collect library source target group path file seen state)

/-- The loop of `plan_group`. A budget of as many turns as there are unvisited records is never used up. -/
def visitAll (library : PlanLibrary) (source target : AssetIndex) (group : AssetGroup) (options : PlanOptions) :
    (budget : Nat) → PlanState → Except PlanGroupError PlanState
  | budget, state =>
    match state.queue.dropWhile (fun path => foldPath path ∈ state.visited), budget with
    | [], _ => .ok { state with queue := [] }
    | _ :: _, 0 => .error .exhausted
    | path :: queue, budget + 1 => do
      let state ← visit library source target group options path { state with queue }
      visitAll library source target group options budget state

inductive CompatibilityStatus where
  | compatibleCandidate
  | experimentalNativeCandidate
  | localizationRequired
  | nativeBackportRequired
  | unresolved
deriving DecidableEq

/-- The status that `plan_group` gives. -/
def statusOf (experimentalNative : Bool) (state : PlanState) : CompatibilityStatus :=
  if state.nativeRequired ∧ experimentalNative ∧ ¬state.formatUnresolved ∧ state.unresolved = [] ∧ state.localization = [] then
    .experimentalNativeCandidate
  else if state.nativeRequired then .nativeBackportRequired
  else if state.formatUnresolved ∨ state.unresolved ≠ [] then .unresolved
  else if state.localization ≠ [] then .localizationRequired
  else .compatibleCandidate

/-- `COMPATIBILITY_ASSERTION`. -/
def compatibilityAssertion : String := "p5136-static-verified-v1"

/-- `EXPERIMENTAL_NATIVE_ASSERTION`. -/
def experimentalNativeAssertion : String := "p5136-xun-sidecar-experimental-v1"

/-- `REVIEW_REQUIRED`. -/
def reviewRequired : String := "review-required-not-importable"

/-- A manifest as it is written. -/
structure DraftManifest where
  schemaVersion : Nat
  compatibility : String
  outputArchive : String
  entries : List DraftManifestEntry
deriving DecidableEq

/-- An asset of the report. -/
structure AssetPlan where
  category : String
  assetId : String
  virtualPrefix : String
  targetAlreadyHasGroup : Bool
  status : CompatibilityStatus
  totalBytes : Nat
  files : List FilePlan
  unresolvedReferences : List String
  localizationTasks : List (String × StructuredString)
  manifest : String
deriving DecidableEq

/-- The paths a group starts from. -/
def initialQueue (source : AssetIndex) (group : AssetGroup) (experimentalNative : Bool) : List String :=
  (source.effectiveRecords.filter fun record => pathInPrefix record.virtualPath group.virtualPrefix).map (·.virtualPath) ++
    (if experimentalNative ∧ eqIgnoreAsciiCase group.category "kart" ∧
        "xun".toList.isSuffixOf (Rho5.toAsciiLowercase group.assetId).toList then
      (source.effectiveRecords.filter fun record => pathInPrefix record.virtualPath "gui/tachometer/xun" ||
        pathInPrefix record.virtualPath "effect/charger").map (·.virtualPath)
    else [])

/-- `plan_group`: the plan, and the manifest that is written for it under its name. -/
def planGroup (library : PlanLibrary) (source target : AssetIndex) (group : AssetGroup) (options : PlanOptions) :
    Except PlanGroupError (AssetPlan × DraftManifest) := do
  let experimentalNative := decide (assetKey group.category group.assetId ∈ options.experimentalNativeSelectors)
  ensure (source.effectiveRecords.any fun record => pathInPrefix record.virtualPath group.virtualPrefix)
    .noEffectiveFiles
  let state ← visitAll library source target group options source.effectiveRecords.length
    ⟨initialQueue source group experimentalNative, [], [], [], [], [], 0, false, false⟩
  let status := statusOf experimentalNative state
  let files := state.files.insertionSort fun a b => a.virtualPath ≤ b.virtualPath
  let manifestEntries := state.manifestEntries.insertionSort fun a b => a.targetPath ≤ b.targetPath
  let name := safeAssetName library.sha256 group.virtualPrefix
  let compatibility := match status with
    | .compatibleCandidate => compatibilityAssertion
    | .experimentalNativeCandidate => experimentalNativeAssertion
    | _ => reviewRequired
  pure (⟨group.category, group.assetId, group.virtualPrefix, group.targetHasGroup, status, state.totalBytes, files,
    sortedSet state.unresolved, sortedTasks state.localization, "manifests/" ++ (name ++ ".json")⟩,
    ⟨1, compatibility, "import_" ++ name ++ ".rho", manifestEntries⟩)

/-! ## Plans -/

/-- The report of a plan: the assets that could be planned, and the groups that could not. -/
structure PlanReport where
  schemaVersion : Nat
  warnings : List (String × PlanGroupError)
  assets : List AssetPlan

/-- What a plan leaves in its output directory: the report and the manifests. -/
structure PlanOutput where
  report : PlanReport
  manifests : FiniteMap String DraftManifest

/-- The manifest of a group that was planned, written over one of the same name. -/
def addPlan (output : PlanOutput) (plan : AssetPlan) (manifest : DraftManifest) : PlanOutput :=
  ⟨{ output.report with assets := output.report.assets ++ [plan] }, output.manifests.insert plan.manifest manifest⟩

/-- One turn of the loop of `run_plan`. -/
def planNext (library : PlanLibrary) (source target : AssetIndex) (options : PlanOptions) (output : PlanOutput)
    (group : AssetGroup) : PlanOutput :=
  match planGroup library source target group options with
  | .ok (plan, manifest) => addPlan output plan manifest
  | .error error =>
    { output with report := { output.report with warnings := output.report.warnings ++ [(group.virtualPrefix, error)] } }

/-- `run_plan`, in a directory that holds some manifests already. -/
def runPlan (library : PlanLibrary) (source target : AssetIndex) (options : PlanOptions)
    (before : FiniteMap String DraftManifest) : Except RunPlanError PlanOutput := do
  ensure (options.maxAssets > 0) .maxAssetsZero
  ensure (options.maxAssetBytes > 0) .maxAssetBytesZero
  ensure (["all", "kart", "character", "track", "pet", "flying_pet"].contains options.category = true)
    (.invalidCategory options.category)
  let groups ← selectGroups library source target options
  pure (groups.foldl (planNext library source target options) ⟨⟨1, [], []⟩, before⟩)

end Assets

end P5136
