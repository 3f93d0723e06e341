import Mathlib.Data.Finset.Dedup
import P5136.Assets.PlanFidelity

/-!
# A planner and what it remembers

One planner plans group after group. It remembers which format signatures it has read from the target so far, and it reports every
reference in the files it lists. What it remembers only saves extractions: the plan of a group is the one of a new planner.
-/

namespace P5136

namespace Assets

/-- `ReferenceReport`: a reference in a file, and what became of it. -/
structure ReferenceReport where
  origin : String
  value : String
  resolvedPath : Option String
  resolution : String
deriving DecidableEq

/-- The report of a reference that was resolved. -/
def ReferenceResolution.report (origin value : String) : ReferenceResolution → ReferenceReport
  | .source found => ⟨origin, value, some found, "source_dependency"⟩
  | .target found => ⟨origin, value, some found, "target_satisfied"⟩
  | .missing => ⟨origin, value, none, "unresolved"⟩

/-- What the loop of `plan_group` has found, with the references it reports. -/
structure PlannerState extends PlanState where
  references : List ReferenceReport

/-- `AssetPlan` with its `references`; a set, listed in the order of its elements. -/
structure ReferencedPlan extends AssetPlan where
  references : Finset ReferenceReport

/-- `target_signatures`: the signatures known of the target's files with an extension. -/
abbrev SignatureCache := FiniteMap String (List (List UInt8))

namespace Planner

/-- The loop of `target_format_seen`: whether it found the signature, and what is known after it. -/
def search (target : AssetIndex) (signature : List UInt8) :
    List AssetRecord → (known : List (List UInt8)) → Except PlanGroupError (Bool × List (List UInt8))
  | [], known => .ok (false, known)
  | record :: records, known => do
    let bytes ← (target.extract record).mapError .extractTarget
    let candidate := bytes.take 2
    if candidate = signature then pure (true, known.insert candidate) else search target signature records (known.insert candidate)

/-- `target_format_seen`. What was known of the extension is lost when an extraction fails. -/
def targetFormatSeen (target : AssetIndex) (ext : String) (signature : List UInt8) (cache : SignatureCache) :
    Except PlanGroupError Bool × SignatureCache :=
  let known := (cache.lookup ext).getD []
  if signature ∈ known then (.ok true, cache)
  else
    let records := (target.effectiveRecords.filter fun record => extension record.virtualPath == ext).take 128
    match search target signature records known with
    | .ok (found, known) => (.ok found, cache.insert ext known)
    | .error error => (.error error, cache.erase ext)

/-- Whether the target has files of the format of a file. -/
def formatSeen (target : AssetIndex) (ext : String) (bytes : List UInt8) (cache : SignatureCache) :
    Except PlanGroupError Bool × SignatureCache :=
  if ext = "1s" then targetFormatSeen target "1s" (bytes.take 2) cache else (.ok true, cache)

/-- What a file adds to what the loop has found. -/
def collect (library : PlanLibrary) (source target : AssetIndex) (group : AssetGroup) (path : String) (file : OpenedFile)
    (seen : Bool) (state : PlannerState) : PlannerState :=
  let analysis := analyzeContent library path (Rho5.toAsciiLowercase (extension path)) file.bytes
  let references := referencesOf library source target group path analysis.strings
  { Assets.collect library source target group path file seen state.toPlanState with
    references := state.references ++ references.map fun reference => reference.2.report path reference.1 }

/-- One turn of the loop of `plan_group`, for a path that was not visited. -/
def visit (library : PlanLibrary) (source target : AssetIndex) (group : AssetGroup) (options : PlanOptions) (path : String)
    (state : PlannerState) (cache : SignatureCache) : Except PlanGroupError PlannerState × SignatureCache :=
  match openFile source options path state.totalBytes with
  | .error error => (.error error, cache)
  | .ok file =>
    match formatSeen target (Rho5.toAsciiLowercase (extension path)) file.bytes cache with
    | (.error error, cache) => (.error error, cache)
    | (.ok seen, cache) => (.ok (collect library source target group path file seen state), cache)

/-- The loop of `plan_group`, with a budget of turns. -/
def visitAll (library : PlanLibrary) (source target : AssetIndex) (group : AssetGroup) (options : PlanOptions) :
    (budget : Nat) → PlannerState → SignatureCache → Except PlanGroupError PlannerState × SignatureCache
  | budget, state, cache =>
    match state.queue.dropWhile (fun path => foldPath path ∈ state.visited), budget with
    | [], _ => (.ok { state with queue := [] }, cache)
    | _ :: _, 0 => (.error .exhausted, cache)
    | path :: queue, budget + 1 =>
      match visit library source target group options path { state with queue } cache with
      | (.error error, cache) => (.error error, cache)
      | (.ok state, cache) => visitAll library source target group options budget state cache

/-- Whether a group is planned with its native parts. -/
def experimentalNative (group : AssetGroup) (options : PlanOptions) : Bool :=
  decide (assetKey group.category group.assetId ∈ options.experimentalNativeSelectors)

/-- What the loop of a group starts with. -/
def initialState (source : AssetIndex) (group : AssetGroup) (options : PlanOptions) : PlannerState :=
  ⟨⟨initialQueue source group (experimentalNative group options), [], [], [], [], [], 0, false, false⟩, []⟩

/-- The plan of a group and its manifest, from what the loop has found. -/
def finish (library : PlanLibrary) (group : AssetGroup) (options : PlanOptions) (state : PlannerState) :
    ReferencedPlan × DraftManifest :=
  let status := statusOf (experimentalNative group options) state.toPlanState
  let files := state.files.insertionSort fun a b => a.virtualPath ≤ b.virtualPath
  let manifestEntries := state.manifestEntries.insertionSort fun a b => a.targetPath ≤ b.targetPath
  let name := safeAssetName library.sha256 group.virtualPrefix
  let compatibility := match status with
    | .compatibleCandidate => compatibilityAssertion
    | .experimentalNativeCandidate => experimentalNativeAssertion
    | _ => reviewRequired
  (⟨⟨group.category, group.assetId, group.virtualPrefix, group.targetHasGroup, status, state.totalBytes, files,
    sortedSet state.unresolved, sortedTasks state.localization, "manifests/" ++ (name ++ ".json")⟩, state.references.toFinset⟩,
    ⟨1, compatibility, "import_" ++ name ++ ".rho", manifestEntries⟩)

def planGroup (library : PlanLibrary) (source target : AssetIndex) (group : AssetGroup) (options : PlanOptions)
    (cache : SignatureCache) : Except PlanGroupError (ReferencedPlan × DraftManifest) × SignatureCache :=
  if source.effectiveRecords.any fun record => pathInPrefix record.virtualPath group.virtualPrefix then
    match visitAll library source target group options source.effectiveRecords.length (initialState source group options)
      cache with
    | (.error error, cache) => (.error error, cache)
    | (.ok state, cache) => (.ok (finish library group options state), cache)
  else (.error .noEffectiveFiles, cache)

/-- What a planner remembers after it has planned some groups. -/
def cacheAfter (library : PlanLibrary) (source target : AssetIndex) (options : PlanOptions) (groups : List AssetGroup) :
    SignatureCache :=
  groups.foldl (fun cache group => (planGroup library source target group options cache).2) ∅

end Planner

/-! ## What is remembered -/

namespace SignatureCache

/-- Every signature that is remembered would be found again. -/
def Sound (target : AssetIndex) (cache : SignatureCache) : Prop :=
  ∀ ext known, cache.lookup ext = some known → ∀ signature ∈ known, targetFormatSeen target ext signature = .ok true

end SignatureCache

namespace Planner

/-- A search finds what is found without remembering. -/
theorem search_fst (target : AssetIndex) (signature : List UInt8) (records : List AssetRecord) (known : List (List UInt8)) :
    (search target signature records known).map Prod.fst = targetFormatSeen.search target signature records := by
  induction records generalizing known with
  | nil => rfl
  | cons record records ih =>
    unfold search targetFormatSeen.search
    cases target.extract record with
    | error error => rfl
    | ok bytes =>
      change Except.map Prod.fst (if bytes.take 2 = signature then _ else _) = if bytes.take 2 = signature then _ else _
      by_cases hfound : bytes.take 2 = signature
      · rw [if_pos hfound, if_pos hfound]
        rfl
      · rw [if_neg hfound, if_neg hfound]
        exact ih _

/-- A search that succeeds reads signatures that would be found again from where it started. -/
theorem search_known {target : AssetIndex} {signature : List UInt8} {records : List AssetRecord}
    {known known' : List (List UInt8)} {found : Bool} (h : search target signature records known = .ok (found, known'))
    {other : List UInt8} (hother : other ∈ known') :
    other ∈ known ∨ targetFormatSeen.search target other records = .ok true := by
  induction records generalizing known with
  | nil =>
    cases h
    exact .inl hother
  | cons record records ih =>
    unfold search at h
    obtain ⟨bytes, hbytes, h⟩ := Checks.bind_eq_ok.1 h
    have hsearch : targetFormatSeen.search target other (record :: records) =
        if bytes.take 2 = other then .ok true else targetFormatSeen.search target other records := by
      rw [targetFormatSeen.search, hbytes]
      rfl
    rw [hsearch]
    by_cases hhere : bytes.take 2 = other
    · exact .inr (if_pos hhere)
    · rw [if_neg hhere]
      have hless : other ∈ known.insert (bytes.take 2) → other ∈ known := by
        intro hmem
        exact (List.mem_insert_iff.1 hmem).resolve_left fun heq => hhere heq.symm
      dsimp only at h
      split at h
      · cases h
        exact .inl (hless hother)
      · exact (ih h).imp_left hless

variable {library : PlanLibrary} {source target : AssetIndex} {group : AssetGroup} {options : PlanOptions}
variable {cache : SignatureCache}

/-- Looking for a signature is the same with what is remembered, and leaves only what would be found again. -/
theorem targetFormatSeen_eq (hsound : cache.Sound target) (ext : String) (signature : List UInt8) :
    (targetFormatSeen target ext signature cache).1 = Assets.targetFormatSeen target ext signature ∧
      (targetFormatSeen target ext signature cache).2.Sound target := by
  unfold targetFormatSeen
  by_cases hknown : signature ∈ (cache.lookup ext).getD []
  · rw [if_pos hknown]
    cases hlookup : cache.lookup ext with
    | none => simp [hlookup] at hknown
    | some known =>
      rw [hlookup, Option.getD_some] at hknown
      exact ⟨(hsound ext known hlookup signature hknown).symm, hsound⟩
  · rw [if_neg hknown]
    have hsearch : Assets.targetFormatSeen target ext signature = targetFormatSeen.search target signature
        ((target.effectiveRecords.filter fun record => extension record.virtualPath == ext).take 128) := rfl
    dsimp only
    generalize hrecords : (target.effectiveRecords.filter fun record => extension record.virtualPath == ext).take 128 = records
      at hsearch
    have hfst := search_fst target signature records ((cache.lookup ext).getD [])
    cases hresult : search target signature records ((cache.lookup ext).getD []) with
    | error error =>
      rw [hresult] at hfst
      refine ⟨hfst.trans hsearch.symm, fun other known hlookup => ?_⟩
      rw [FiniteMap.lookup_erase] at hlookup
      split at hlookup
      · cases hlookup
      · exact hsound other known hlookup
    | ok result =>
      obtain ⟨found, after⟩ := result
      rw [hresult] at hfst
      refine ⟨hfst.trans hsearch.symm, fun other known hlookup => ?_⟩
      rw [FiniteMap.lookup_insert] at hlookup
      split at hlookup
      · rename_i heq
        subst heq
        cases hlookup
        intro signature' hmem
        rcases search_known hresult hmem with hmem | hmem
        · cases hold : cache.lookup other with
          | none => simp [hold] at hmem
          | some known =>
            rw [hold, Option.getD_some] at hmem
            exact hsound other known hold signature' hmem
        · rw [← hrecords] at hmem
          exact hmem
      · exact hsound other known hlookup

/-- So is looking whether the target has files of a format. -/
theorem formatSeen_eq (hsound : cache.Sound target) (ext : String) (bytes : List UInt8) :
    (formatSeen target ext bytes cache).1 = Assets.formatSeen target ext bytes ∧
      (formatSeen target ext bytes cache).2.Sound target := by
  unfold formatSeen Assets.formatSeen
  by_cases hext : ext = "1s"
  · rw [if_pos hext, if_pos hext]
    exact targetFormatSeen_eq hsound "1s" _
  · rw [if_neg hext, if_neg hext]
    exact ⟨rfl, hsound⟩

/-- A file adds to the rest what it adds without its references. -/
@[simp] theorem collect_toPlanState (path : String) (file : OpenedFile) (seen : Bool) (state : PlannerState) :
    (collect library source target group path file seen state).toPlanState =
      Assets.collect library source target group path file seen state.toPlanState := rfl

variable (library source group options)

/-- A turn of the loop is the one of a planner that remembers nothing. -/
theorem visit_eq (hsound : cache.Sound target) (path : String) (state : PlannerState) :
    (visit library source target group options path state cache).1.map PlannerState.toPlanState =
        Assets.visit library source target group options path state.toPlanState ∧
      (visit library source target group options path state cache).2.Sound target := by
  unfold visit Assets.visit
  cases openFile source options path state.totalBytes with
  | error error => exact ⟨rfl, hsound⟩
  | ok file =>
    obtain ⟨hseen, hsound'⟩ := formatSeen_eq hsound (Rho5.toAsciiLowercase (extension path)) file.bytes
    dsimp only [bind, Except.bind]
    rw [← hseen]
    generalize formatSeen target (Rho5.toAsciiLowercase (extension path)) file.bytes cache = result at hsound' ⊢
    obtain ⟨error | seen, cache'⟩ := result
    · exact ⟨rfl, hsound'⟩
    · refine ⟨?_, hsound'⟩
      simp only [Except.map, collect_toPlanState]
      rfl

/-- So is the whole loop. -/
theorem visitAll_eq (hsound : cache.Sound target) (budget : Nat) (state : PlannerState) :
    (visitAll library source target group options budget state cache).1.map PlannerState.toPlanState =
        Assets.visitAll library source target group options budget state.toPlanState ∧
      (visitAll library source target group options budget state cache).2.Sound target := by
  induction budget generalizing state cache with
  | zero =>
    unfold visitAll
    cases hqueue : state.queue.dropWhile (fun path => foldPath path ∈ state.visited) with
    | nil =>
      rw [visitAll_nil 0 hqueue]
      exact ⟨rfl, hsound⟩
    | cons path queue =>
      rw [visitAll_exhausted hqueue]
      exact ⟨rfl, hsound⟩
  | succ budget ih =>
    unfold visitAll
    cases hqueue : state.queue.dropWhile (fun path => foldPath path ∈ state.visited) with
    | nil =>
      rw [visitAll_nil (budget + 1) hqueue]
      exact ⟨rfl, hsound⟩
    | cons path queue =>
      rw [visitAll_cons budget hqueue]
      obtain ⟨hvisit, hsound'⟩ := visit_eq library source group options hsound path { state with queue }
      dsimp only
      generalize visit library source target group options path { state with queue } cache = result at hvisit hsound' ⊢
      rw [← hvisit]
      obtain ⟨error | state', cache'⟩ := result
      · exact ⟨rfl, hsound'⟩
      · exact ih hsound' state'

/-- The plan of a group is the one of a planner that remembers nothing. -/
theorem planGroup_eq (hsound : cache.Sound target) :
    (planGroup library source target group options cache).1.map (Prod.map ReferencedPlan.toAssetPlan id) =
        Assets.planGroup library source target group options ∧
      (planGroup library source target group options cache).2.Sound target := by
  unfold planGroup Assets.planGroup
  by_cases hany : source.effectiveRecords.any fun record => pathInPrefix record.virtualPath group.virtualPrefix
  · rw [if_pos hany, (Checks.ensure_eq_ok (x := ())).2 hany]
    obtain ⟨hvisit, hsound'⟩ := visitAll_eq library source group options hsound
      source.effectiveRecords.length (initialState source group options)
    dsimp only [bind, Except.bind]
    generalize visitAll library source target group options source.effectiveRecords.length
      (initialState source group options) cache = result at hvisit hsound' ⊢
    change _ = Except.bind (Assets.visitAll library source target group options source.effectiveRecords.length
      (initialState source group options).toPlanState) _ ∧ _
    rw [← hvisit]
    obtain ⟨error | state, cache'⟩ := result
    · exact ⟨rfl, hsound'⟩
    · exact ⟨rfl, hsound'⟩
  · rw [if_neg hany, show Checks.ensure _ PlanGroupError.noEffectiveFiles = .error .noEffectiveFiles from if_neg hany]
    exact ⟨rfl, hsound⟩

/-- A planner only ever remembers what would be found again. -/
theorem cacheAfter_sound (groups : List AssetGroup) : (cacheAfter library source target options groups).Sound target := by
  have hrun : ∀ cache : SignatureCache, cache.Sound target →
      (groups.foldl (fun cache group => (planGroup library source target group options cache).2) cache).Sound target := by
    induction groups with
    | nil => exact fun _ h => h
    | cons group groups ih => exact fun cache h => ih _ (planGroup_eq library source group options h).2
  exact hrun ∅ fun ext known hlookup => by simp at hlookup

/-! ## What is remembered does not matter -/

variable {cache' : SignatureCache}

/-- A turn finds the same with whatever is remembered. -/
theorem visit_congr (hsound : cache.Sound target) (hsound' : cache'.Sound target) (path : String) (state : PlannerState) :
    (visit library source target group options path state cache).1 =
      (visit library source target group options path state cache').1 := by
  unfold visit
  cases openFile source options path state.totalBytes with
  | error error => rfl
  | ok file =>
    have hseen := (formatSeen_eq hsound (Rho5.toAsciiLowercase (extension path)) file.bytes).1.trans
      (formatSeen_eq hsound' (Rho5.toAsciiLowercase (extension path)) file.bytes).1.symm
    dsimp only
    generalize formatSeen target (Rho5.toAsciiLowercase (extension path)) file.bytes cache = result at hseen ⊢
    generalize formatSeen target (Rho5.toAsciiLowercase (extension path)) file.bytes cache' = result' at hseen ⊢
    obtain ⟨outcome, _⟩ := result
    obtain ⟨outcome', _⟩ := result'
    obtain rfl : outcome = outcome' := hseen
    cases outcome with
    | error error => rfl
    | ok seen => rfl

/-- So does the loop. -/
theorem visitAll_congr (hsound : cache.Sound target) (hsound' : cache'.Sound target) (budget : Nat) (state : PlannerState) :
    (visitAll library source target group options budget state cache).1 =
      (visitAll library source target group options budget state cache').1 := by
  induction budget generalizing state cache cache' with
  | zero =>
    unfold visitAll
    cases state.queue.dropWhile (fun path => foldPath path ∈ state.visited) with
    | nil => rfl
    | cons path queue => rfl
  | succ budget ih =>
    unfold visitAll
    cases state.queue.dropWhile (fun path => foldPath path ∈ state.visited) with
    | nil => rfl
    | cons path queue =>
      have hvisit := visit_congr library source group options hsound hsound'
        path { state with queue }
      have hafter := (visit_eq library source group options hsound path
        { state with queue }).2
      have hafter' := (visit_eq library source group options hsound' path
        { state with queue }).2
      dsimp only
      generalize visit library source target group options path { state with queue } cache = result at hvisit hafter ⊢
      generalize visit library source target group options path { state with queue } cache' = result' at hvisit hafter' ⊢
      obtain ⟨outcome, after⟩ := result
      obtain ⟨outcome', after'⟩ := result'
      obtain rfl : outcome = outcome' := hvisit
      cases outcome with
      | error error => rfl
      | ok state' => exact ih hafter hafter' state'

/-- So does a group. -/
theorem planGroup_congr (hsound : cache.Sound target) (hsound' : cache'.Sound target) :
    (planGroup library source target group options cache).1 = (planGroup library source target group options cache').1 := by
  unfold planGroup
  split
  · have hvisit := visitAll_congr library source group options hsound hsound'
      source.effectiveRecords.length (initialState source group options)
    generalize visitAll library source target group options source.effectiveRecords.length
      (initialState source group options) cache = result at hvisit ⊢
    generalize visitAll library source target group options source.effectiveRecords.length
      (initialState source group options) cache' = result' at hvisit ⊢
    obtain ⟨outcome, _⟩ := result
    obtain ⟨outcome', _⟩ := result'
    obtain rfl : outcome = outcome' := hvisit
    cases outcome with
    | error error => rfl
    | ok state => rfl
  · rfl

end Planner

end Assets

end P5136
