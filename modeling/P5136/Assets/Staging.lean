import P5136.Assets.Planner
import P5136.Rho5.Writer

/-!
# Staging planned assets

The staging merges the manifests of the selected assets by folded path, adds the Korean names of the region parameters, extracts
each file again against its digest, and cuts the entries into archives. The compatibility patches of single resources, and all
that happens to the catalogs and to the written archives, are parameters: the staging may fail there, but the resource entries
stay what they are.
-/

namespace P5136

namespace Assets

open Checks

/-- A file that is to be staged. -/
structure PendingFile where
  path : String
  sourcePath : String
  expectedSha256 : String
deriving DecidableEq

/-- The archives of a staging. -/
structure ArchiveNames where
  resource : String
  table : String
  catalog : String
deriving DecidableEq

/-- The parts of a staging that do not choose the resource entries. -/
structure StageLibrary where
  /-- `normalize_imported_xun_resource`. -/
  normalizeImportedXunResource : String → List UInt8 → Except String (List UInt8 × Bool)
  /-- The destination, the catalogs and the base archives of the target, and the writing and verifying of all archives. -/
  finish : (codes : List (String × String)) → (archives : List (String × List Rho5WriteEntry)) → Except String Unit

/-- Why a staging fails. -/
inductive StageError where
  | noAssetsSelected
  | archiveName (name : String)
  | archiveNamesEqual
  | noCategory
  | category (category : String)
  | unsupportedPlan
  | nothingSelected
  | manifestMissing (manifest : String)
  | manifestSchema
  | compatibility (manifest : String)
  | manifestsDisagree (path : String)
  | sourceDisappeared (path : String)
  | extract (error : String)
  | sha256Mismatch (path expected actual : String)
  | normalize (error : String)
  | archiveSequence
  | finish (error : String)
deriving DecidableEq

/-! ## Selection -/

/-- The assets of the report that are staged. -/
def selectAssets (categories : List String) (selectedAssets : Option (List String)) (assets : List AssetPlan) :
    List AssetPlan :=
  assets.filter fun asset =>
    let key := assetKey asset.category asset.assetId
    let explicitlySelected := match selectedAssets with
      | some selected => decide (key ∈ selected)
      | none => false
    let acceptedStatus := asset.status == .compatibleCandidate ||
      (asset.status == .experimentalNativeCandidate && explicitlySelected)
    decide (Rho5.toAsciiLowercase asset.category ∈ categories.map Rho5.toAsciiLowercase) && acceptedStatus &&
      (selectedAssets.isNone || explicitlySelected)

/-! ## Merging the manifests -/

def koreanRegionParamAlias (category path : String) : Option String :=
  match rsplitOnce '/' path.toList with
  | none => none
  | some (directory, fileName) =>
    let lower := Rho5.toAsciiLowercase category
    if lower = "kart" ∧ eqIgnoreAsciiCase (.ofList fileName) "param@cn.xml" then
      some (.ofList (directory ++ '/' :: "param@kr.xml".toList))
    else if lower = "flying_pet" ∧ eqIgnoreAsciiCase (.ofList fileName) "param@cn.bml" then
      some (.ofList (directory ++ '/' :: "param@kr.bml".toList))
    else none

/-- What the manifests have been merged to: the files by folded path, and the aliases that are wanted, in order. -/
structure Merge where
  pending : FiniteMap String PendingFile
  aliases : List (String × PendingFile)

/-- An entry of a manifest, for an asset of some category. -/
def mergeEntry (category : String) (merge : Merge) (targetPath expectedSha256 : String) : Except StageError Merge :=
  match merge.pending.lookup (foldPath targetPath) with
  | some existing =>
    if eqIgnoreAsciiCase existing.expectedSha256 expectedSha256 then .ok merge
    else .error (.manifestsDisagree targetPath)
  | none => .ok {
      pending := merge.pending.insert (foldPath targetPath) ⟨targetPath, targetPath, expectedSha256⟩
      aliases := match koreanRegionParamAlias category targetPath with
        | some path => merge.aliases ++ [(category, ⟨path, targetPath, expectedSha256⟩)]
        | none => merge.aliases }

/-- The manifest of an asset. -/
def mergeAsset (manifests : FiniteMap String DraftManifest) (merge : Merge) (asset : AssetPlan) : Except StageError Merge := do
  let manifest ← orElse (manifests.lookup asset.manifest) (.manifestMissing asset.manifest)
  ensure (manifest.schemaVersion = 1) .manifestSchema
  let expectedAssertion := if asset.status = .experimentalNativeCandidate then experimentalNativeAssertion
    else compatibilityAssertion
  ensure (manifest.compatibility = expectedAssertion) (.compatibility asset.manifest)
  manifest.entries.foldlM (fun merge entry => mergeEntry asset.category merge entry.targetPath entry.expectedSha256) merge

/-- An alias is put in unless its path is planned. -/
def addAlias (pending : FiniteMap String PendingFile) (wanted : String × PendingFile) : FiniteMap String PendingFile :=
  if (pending.lookup (foldPath wanted.2.path)).isSome then pending else pending.insert (foldPath wanted.2.path) wanted.2

/-- The files of the selected assets and their aliases. -/
def pendingFiles (manifests : FiniteMap String DraftManifest) (selected : List AssetPlan) :
    Except StageError (FiniteMap String PendingFile) := do
  let merge ← selected.foldlM (mergeAsset manifests) ⟨∅, []⟩
  pure (merge.aliases.foldl addAlias merge.pending)

/-! ## Extracting and writing -/

/-- The entry of a file, extracted again. -/
def extractPending (library : PlanLibrary) (stage : StageLibrary) (source : AssetIndex) (file : PendingFile) :
    Except StageError Rho5WriteEntry := do
  let record ← orElse (source.effective file.sourcePath) (.sourceDisappeared file.sourcePath)
  let bytes ← (source.extract record).mapError .extract
  let actual := hex (library.sha256 bytes)
  ensure (eqIgnoreAsciiCase actual file.expectedSha256 = true)
    (.sha256Mismatch file.sourcePath file.expectedSha256 actual)
  let normalized ← (stage.normalizeImportedXunResource file.path bytes).mapError .normalize
  pure ⟨file.path, normalized.1, Rho5.packedEntryFlags⟩

/-- The turns of `partition_entries`, behind a chunk with so many bytes. -/
def partitionFrom (current : List Rho5WriteEntry) (currentBytes : Nat) : List Rho5WriteEntry → List (List Rho5WriteEntry)
  | [] => if current = [] then [] else [current]
  | entry :: entries =>
    if current ≠ [] ∧ min (currentBytes + entry.data.length) (2 ^ 64 - 1) > 40 * 1024 * 1024 then
      current :: partitionFrom [entry] (min entry.data.length (2 ^ 64 - 1)) entries
    else partitionFrom (current ++ [entry]) (min (currentBytes + entry.data.length) (2 ^ 64 - 1)) entries

def partitionEntries (entries : List Rho5WriteEntry) : List (List Rho5WriteEntry) := partitionFrom [] 0 entries

/-- The number that decimal digits spell, when it has 32 bits. -/
def parseU32 (digits : List Char) : Option Nat :=
  let number := digits.foldl (fun n c => 10 * n + (c.toNat - 48)) 0
  if number < 2 ^ 32 then some number else none

/-- A number with zeros before it, up to a width. -/
def paddedDecimal (width number : Nat) : List Char :=
  let digits := (toString number).toList
  List.replicate (width - digits.length) '0' ++ digits

def sequentialArchiveNames (first : String) (count : Nat) : Option (List String) := do
  let extensions := [".rho5".toList, ".RHO5".toList]
  let ext ← extensions.find? fun ext => ext.isSuffixOf first.toList
  let stem := first.toList.take (first.toList.length - ext.length)
  let (stemStart, suffix) ← rsplitOnce '_' stem
  if suffix = [] ∨ ¬suffix.all Char.isDigit then none
  else do
    let firstNumber ← parseU32 suffix
    if count ≤ 2 ^ 32 ∧ firstNumber + count ≤ 2 ^ 32 then
      some ((List.range count).map fun offset =>
        String.ofList (stemStart ++ '_' :: paddedDecimal suffix.length (firstNumber + offset) ++ ".rho5".toList))
    else none

/-- `validate_archive_name`. -/
def ValidArchiveName (name : String) : Prop :=
  Rho5.IsFileName name ∧ Rho5.isAscii name = true ∧ ".rho5".toList.isSuffixOf (Rho5.toAsciiLowercase name).toList = true

instance (name : String) : Decidable (ValidArchiveName name) := inferInstanceAs (Decidable (_ ∧ _ ∧ _))

/-- The names of the three kinds of archives. -/
def checkNames (names : ArchiveNames) : Except StageError Unit := do
  ensure (ValidArchiveName names.resource) (.archiveName names.resource)
  ensure (ValidArchiveName names.table) (.archiveName names.table)
  ensure (ValidArchiveName names.catalog) (.archiveName names.catalog)
  ensure (!eqIgnoreAsciiCase names.resource names.table ∧ !eqIgnoreAsciiCase names.resource names.catalog ∧
    !eqIgnoreAsciiCase names.table names.catalog) .archiveNamesEqual

/-- The categories of a staging. -/
def checkCategories (categories : List String) : Except StageError Unit := do
  ensure (categories ≠ []) .noCategory
  all (fun category => ensure
    (Rho5.toAsciiLowercase category ∈ ["kart", "character", "pet", "flying_pet"]) (.category category)) categories

/-- `stage_compatible_inner`: the resource archives that are written. -/
def stageCompatibleInner (library : PlanLibrary) (stage : StageLibrary) (source : AssetIndex) (plan : PlanOutput)
    (categories : List String) (names : ArchiveNames) (selectedAssets : Option (List String)) :
    Except StageError (List (String × List Rho5WriteEntry)) := do
  checkNames names
  checkCategories categories
  ensure (plan.report.schemaVersion = 1) .unsupportedPlan
  let selected := selectAssets categories selectedAssets plan.report.assets
  ensure (selected ≠ []) .nothingSelected
  let pending ← pendingFiles plan.manifests selected
  let files := (FiniteMap.values pending).insertionSort fun a b => foldPath a.path ≤ foldPath b.path
  let entries ← Checks.traverse (extractPending library stage source) files
  let chunks := partitionEntries entries
  let archiveNames ← orElse (sequentialArchiveNames names.resource chunks.length) .archiveSequence
  ensure (∀ name ∈ archiveNames, !eqIgnoreAsciiCase name names.table ∧ !eqIgnoreAsciiCase name names.catalog)
    .archiveSequence
  let archives := archiveNames.zip chunks
  (stage.finish (selected.map fun asset => (asset.category, asset.assetId)) archives).mapError .finish
  pure archives

def stageCompatible (library : PlanLibrary) (stage : StageLibrary) (source : AssetIndex) (plan : PlanOutput)
    (categories : List String) (names : ArchiveNames) : Except StageError (List (String × List Rho5WriteEntry)) :=
  stageCompatibleInner library stage source plan categories names none

def stageSelectedCompatible (library : PlanLibrary) (stage : StageLibrary) (source : AssetIndex) (plan : PlanOutput)
    (categories : List String) (names : ArchiveNames) (selectedAssets : List String) :
    Except StageError (List (String × List Rho5WriteEntry)) := do
  ensure (selectedAssets ≠ []) .noAssetsSelected
  stageCompatibleInner library stage source plan categories names (some selectedAssets)

end Assets

end P5136
