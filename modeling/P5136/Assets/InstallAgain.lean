import P5136.Assets.InstallSafety

/-!
# Installing a bundle again

A run that succeeds leaves every entry of its bundle in place; the next run of the same bundle finds them all, and writes nothing
but its report.
-/

namespace P5136

open TrackBundle Transition List Option

namespace InstallSystem

variable {target : InstallTarget} {original : Files} {files : Files} {s t : InstallSystem}

/-- The entries of a bundle that agree about each catalog file. -/
def Agrees (bundle : TrackBundle) : Prop :=
  ∀ e ∈ bundle.entries, ∀ e' ∈ bundle.entries, ∀ i i', bundle.select e = .install i → bundle.select e' = .install i' →
    IsTrackBundleCatalogPath i'.path → i.relative = i'.relative → i.bytes = i'.bytes

/-! ## Entries in place -/

/-- Some entries of a bundle are in place. -/
def Done (target : InstallTarget) (files : Files) (bundle : TrackBundle) (entries : List TrackBundleEntry) : Prop :=
  ∀ e ∈ entries, ∀ i, bundle.select e = .install i → files.lookup (target.destination i.relative) = some i.bytes

/-- A path is none where these entries are. -/
def Clear (target : InstallTarget) (bundle : TrackBundle) (entries : List TrackBundleEntry) (path : FilePath) : Prop :=
  ∀ e ∈ entries, ∀ i, bundle.select e = .install i → target.destination i.relative ≠ path

/-- Another file does not change that entries are in place. -/
theorem Done.put {bundle : TrackBundle} {entries : List TrackBundleEntry} (h : Done target files bundle entries) {path : FilePath}
    (hclear : Clear target bundle entries path) (bytes : List UInt8) : Done target (files.insert path bytes) bundle entries := by
  intro e he i hi
  rw [FiniteMap.lookup_insert, if_neg (hclear e he i hi)]
  exact h e he i hi

/-- A file that is not there is no entry in place. -/
theorem Done.clear_of_absent {bundle : TrackBundle} {entries : List TrackBundleEntry} (h : Done target files bundle entries)
    {path : FilePath} (habsent : files.lookup path = none) : Clear target bundle entries path := by
  rintro e he i hi rfl
  rw [h e he i hi] at habsent
  cases habsent

/-- One more entry in place. -/
theorem Done.snoc {bundle : TrackBundle} {entries : List TrackBundleEntry} (h : Done target files bundle entries)
    {e : TrackBundleEntry} (he : ∀ i, bundle.select e = .install i → files.lookup (target.destination i.relative) = some i.bytes) :
    Done target files bundle (entries ++ [e]) := by
  intro e' he' i hi
  rcases mem_append.1 he' with he' | he'
  · exact h e' he' i hi
  · obtain rfl := mem_singleton.1 he'
    exact he i hi

/-- An entry on its way, behind those that are in place. -/
structure Underway (target : InstallTarget) (files : Files) (bundle : TrackBundle) (before : List TrackBundleEntry)
    (entry : InstallEntry) (remaining : List TrackBundleEntry) : Prop where
  split : ∃ e, bundle.entries = before ++ e :: remaining ∧ bundle.select e = .install entry
  done : Done target files bundle before
  clear : Clear target bundle before (target.destination entry.relative)

/-- How far a run is. -/
def Progress (target : InstallTarget) (files : Files) (run : InstallRun) : Prop :=
  match run.phase with
  | .inspecting remaining => ∃ before, run.bundle.entries = before ++ remaining ∧ Done target files run.bundle before
  | .backingUp entry remaining => ∃ before, Underway target files run.bundle before entry remaining
  | .copying entry remaining _ _ => ∃ before, Underway target files run.bundle before entry remaining ∧
      Clear target run.bundle before (target.backup entry.relative)
  | .opening entry remaining => ∃ before, Underway target files run.bundle before entry remaining
  | .writing entry remaining _ => ∃ before, Underway target files run.bundle before entry remaining
  | .verifying entry remaining => ∃ before, Underway target files run.bundle before entry remaining
  | .checking => Done target files run.bundle run.bundle.entries
  | .reporting _ _ => Done target files run.bundle run.bundle.entries

/-- A bundle of which every entry is in place, and whose report is none. -/
structure InPlace (target : InstallTarget) (files : Files) (bundle : TrackBundle) : Prop where
  done : Done target files bundle bundle.entries
  report : Clear target bundle bundle.entries bundle.reportPath

/-- The invariant of a run that ends with its entries in place, when they agree. -/
structure Installs (target : InstallTarget) (s : InstallSystem) : Prop where
  progress : ∀ run, s.run = some run → ¬target.dataRaw <+: run.bundle.directory ∧ (Agrees run.bundle → Progress target s.files run)
  succeeded : ∀ bundle, s.succeeded = some bundle → s.run = none ∧ (Agrees bundle → InPlace target s.files bundle)

/-- The report of a bundle outside DataRaw is not in DataRaw. -/
theorem destination_ne_reportPath {bundle : TrackBundle} (houtside : ¬target.dataRaw <+: bundle.directory) {relative : FilePath}
    (hne : relative ≠ []) : target.destination relative ≠ bundle.reportPath := by
  intro heq
  obtain ⟨above, last, hrelative⟩ := eq_nil_or_concat relative |>.resolve_left hne
  rw [InstallTarget.destination, TrackBundle.reportPath, hrelative, concat_eq_append, ← append_assoc] at heq
  refine houtside ?_
  rw [← (append_inj' heq rfl).1]
  exact prefix_append _ _

/-- The report of a bundle outside DataRaw is no entry. -/
theorem clear_reportPath {bundle : TrackBundle} (houtside : ¬target.dataRaw <+: bundle.directory)
    (entries : List TrackBundleEntry) : Clear target bundle entries bundle.reportPath :=
  fun _ _ i _ => destination_ne_reportPath houtside (ne_nil_of_safeRelativePath i.safe)

/-! ## Steps -/

/-- A run that is over. -/
theorem Installs.stop (hI : Installs target s) {run : InstallRun} (hrun : s.run = some run) : Installs target s.stop where
  progress := nofun
  succeeded bundle hb := by
    have hnone := (hI.succeeded bundle hb).1
    rw [hrun] at hnone
    cases hnone

/-- A run that goes on. -/
theorem Installs.goto (hI : Installs target s) {run : InstallRun} (hrun : s.run = some run) (counts : InstallCounts)
    (phase : InstallPhase) (hprogress : Agrees run.bundle → Progress target s.files ⟨run.bundle, counts, phase⟩) :
    Installs target (s.goto { run with counts := counts } phase) where
  progress r hr := by
    cases hr
    exact ⟨(hI.progress run hrun).1, hprogress⟩
  succeeded bundle hb := by
    have hnone := (hI.succeeded bundle hb).1
    rw [hrun] at hnone
    cases hnone

/-- A run that writes a file. -/
theorem Installs.put (hI : Installs target s) {run : InstallRun} (hrun : s.run = some run) (path : FilePath) (bytes : List UInt8)
    (phase : InstallPhase)
    (hprogress : Agrees run.bundle → Progress target (s.files.insert path bytes) ⟨run.bundle, run.counts, phase⟩) :
    Installs target ((s.put path bytes).goto run phase) where
  progress r hr := by
    cases hr
    exact ⟨(hI.progress run hrun).1, hprogress⟩
  succeeded bundle hb := by
    have hnone := (hI.succeeded bundle hb).1
    rw [hrun] at hnone
    cases hnone

/-- Writing a file that is none of the entries in place, and no entry's but the one underway. -/
theorem Underway.put {bundle : TrackBundle} {before : List TrackBundleEntry} {entry : InstallEntry}
    {remaining : List TrackBundleEntry} (h : Underway target files bundle before entry remaining) {path : FilePath}
    (hclear : Clear target bundle before path) (bytes : List UInt8) :
    Underway target (files.insert path bytes) bundle before entry remaining :=
  ⟨h.split, h.done.put hclear bytes, h.clear⟩

/-- An entry underway that is found in place. -/
theorem Underway.finish {bundle : TrackBundle} {before : List TrackBundleEntry} {entry : InstallEntry}
    {remaining : List TrackBundleEntry} (h : Underway target files bundle before entry remaining)
    (hfound : files.lookup (target.destination entry.relative) = some entry.bytes) :
    ∃ before, bundle.entries = before ++ remaining ∧ Done target files bundle before := by
  obtain ⟨e, hsplit, hselect⟩ := h.split
  refine ⟨before ++ [e], by rw [hsplit, append_assoc, singleton_append], h.done.snoc (fun i hi => ?_)⟩
  rw [hselect] at hi
  cases hi
  exact hfound

/-- Looking at a destination. -/
theorem Installs.inspect (hI : Installs target s) {run : InstallRun} (hrun : s.run = some run) {e : TrackBundleEntry}
    {remaining : List TrackBundleEntry} (hphase : run.phase = .inspecting (e :: remaining)) {entry : InstallEntry}
    (hselect : run.bundle.select e = .install entry) : Installs target (s.inspect target run entry remaining) := by
  obtain ⟨-, hprogress⟩ := hI.progress run hrun
  rw [Progress, hphase] at hprogress
  unfold InstallSystem.inspect
  split
  · rename_i existing hexisting
    split
    · rename_i hsame
      refine hI.goto hrun _ (.inspecting remaining) fun hagrees => ?_
      obtain ⟨before, hsplit, hdone⟩ := hprogress hagrees
      refine ⟨before ++ [e], by rw [hsplit, append_assoc, singleton_append], hdone.snoc (fun i hi => ?_)⟩
      rw [hselect] at hi
      cases hi
      rw [hexisting, hsame]
    · rename_i hdiffers
      split
      · rename_i hcatalog
        refine hI.goto hrun _ (.backingUp entry remaining) fun hagrees => ?_
        obtain ⟨before, hsplit, hdone⟩ := hprogress hagrees
        refine ⟨before, ⟨e, hsplit, hselect⟩, hdone, ?_⟩
        -- an entry in place there would have the same bytes
        intro e' he' i hi heq
        have hmem : e' ∈ run.bundle.entries ∧ e ∈ run.bundle.entries := by
          rw [hsplit]
          exact ⟨mem_append_left _ he', mem_append_right _ mem_cons_self⟩
        have hbytes := hagrees e' hmem.1 e hmem.2 i entry hi hselect hcatalog (append_cancel_left heq)
        have hfound := hdone e' he' i hi
        rw [heq, hexisting] at hfound
        exact hdiffers ((some.inj hfound).trans hbytes)
      · exact hI.stop hrun
  · rename_i habsent
    refine hI.goto hrun _ (.opening entry remaining) fun hagrees => ?_
    obtain ⟨before, hsplit, hdone⟩ := hprogress hagrees
    exact ⟨before, ⟨e, hsplit, hselect⟩, hdone, hdone.clear_of_absent habsent⟩

/-- `backup_once`. -/
theorem Installs.backUp (hI : Installs target s) {run : InstallRun} (hrun : s.run = some run) {entry : InstallEntry}
    {remaining : List TrackBundleEntry} (hphase : run.phase = .backingUp entry remaining) :
    Installs target (s.backUp target run entry remaining) := by
  obtain ⟨-, hprogress⟩ := hI.progress run hrun
  rw [Progress, hphase] at hprogress
  unfold InstallSystem.backUp
  split
  · exact hI.goto hrun _ (.opening entry remaining) hprogress
  · rename_i content habsent hcontent
    refine hI.put hrun _ [] (.copying entry remaining content 0) fun hagrees => ?_
    obtain ⟨before, hunderway⟩ := hprogress hagrees
    have hclear := hunderway.done.clear_of_absent habsent
    exact ⟨before, hunderway.put hclear [], hclear⟩
  · exact hI.stop hrun

/-- The next step of a run. -/
theorem Installs.advance (hI : Installs target s) {run : InstallRun} (hrun : s.run = some run)
    (h : s.advance target run = some t) : Installs target t := by
  obtain ⟨houtside, hprogress⟩ := hI.progress run hrun
  unfold Progress at hprogress
  unfold InstallSystem.advance at h
  split at h <;> rename_i hphase
  · rename_i e remaining
    split at h <;> rename_i hselect
    · cases h
      rw [hphase] at hprogress
      refine hI.goto hrun _ (.inspecting remaining) fun hagrees => ?_
      obtain ⟨before, hsplit, hdone⟩ := hprogress hagrees
      refine ⟨before ++ [e], by rw [hsplit, append_assoc, singleton_append], hdone.snoc (fun i hi => ?_)⟩
      rw [hselect] at hi
      cases hi
    · cases h
      exact hI.stop hrun
    · cases h
      exact hI.inspect hrun hphase hselect
  · cases h
    rw [hphase] at hprogress
    refine hI.goto hrun _ .checking fun hagrees => ?_
    obtain ⟨before, hsplit, hdone⟩ := hprogress hagrees
    rw [append_nil] at hsplit
    exact (hsplit ▸ hdone : Done target s.files run.bundle run.bundle.entries)
  · cases h
    exact hI.backUp hrun hphase
  · rename_i entry remaining content written
    rw [hphase] at hprogress
    split at h <;> cases h
    refine hI.goto hrun _ (.opening entry remaining) fun hagrees => ?_
    obtain ⟨before, hunderway, -⟩ := hprogress hagrees
    exact ⟨before, hunderway⟩
  · rename_i entry remaining
    rw [hphase] at hprogress
    cases h
    refine hI.put hrun _ [] (.writing entry remaining 0) fun hagrees => ?_
    obtain ⟨before, hunderway⟩ := hprogress hagrees
    exact ⟨before, hunderway.put hunderway.clear []⟩
  · rename_i entry remaining written
    rw [hphase] at hprogress
    split at h <;> cases h
    exact hI.goto hrun _ (.verifying entry remaining) hprogress
  · rename_i entry remaining
    rw [hphase] at hprogress
    split at h <;> cases h
    · rename_i hfound
      refine hI.goto hrun _ (.inspecting remaining) fun hagrees => ?_
      obtain ⟨before, hunderway⟩ := hprogress hagrees
      exact hunderway.finish hfound
    · exact hI.stop hrun
  · rw [hphase] at hprogress
    cases h
    exact hI.put hrun _ [] (.reporting (run.bundle.installReport run.counts) 0)
      fun hagrees => Done.put (hprogress hagrees) (clear_reportPath houtside _) []
  · rw [hphase] at hprogress
    split at h <;> cases h
    refine ⟨nofun, fun bundle hb => ?_⟩
    cases hb
    exact ⟨rfl, fun hagrees => ⟨hprogress hagrees, clear_reportPath houtside _⟩⟩

/-- Writing more of a file. -/
theorem Installs.write (hI : Installs target s) {run : InstallRun} (hrun : s.run = some run) {count : Nat}
    (h : s.write target run count = some t) : Installs target t := by
  obtain ⟨houtside, hprogress⟩ := hI.progress run hrun
  unfold Progress at hprogress
  unfold InstallSystem.write at h
  split at h <;> rename_i hphase
  · rename_i entry remaining content written
    rw [hphase] at hprogress
    split at h <;> cases h
    refine hI.put hrun _ _ (.copying entry remaining content (written + count)) fun hagrees => ?_
    obtain ⟨before, hunderway, hclear⟩ := hprogress hagrees
    exact ⟨before, hunderway.put hclear _, hclear⟩
  · rename_i entry remaining written
    rw [hphase] at hprogress
    split at h <;> cases h
    refine hI.put hrun _ _ (.writing entry remaining (written + count)) fun hagrees => ?_
    obtain ⟨before, hunderway⟩ := hprogress hagrees
    exact ⟨before, hunderway.put hunderway.clear _⟩
  · rename_i bytes written
    rw [hphase] at hprogress
    split at h <;> cases h
    exact hI.put hrun _ _ (.reporting bytes (written + count))
      fun hagrees => Done.put (hprogress hagrees) (clear_reportPath houtside _) _
  · cases h

/-- Every step keeps the invariant. -/
theorem Installs.step (hI : Installs target s) {event : InstallEvent} (h : s.Step target event t) : Installs target t := by
  unfold InstallSystem.Step at h
  cases event with
  | begin bundle =>
    simp only [InstallSystem.next] at h
    split at h <;> cases h
    rename_i haccepts
    refine ⟨fun run hrun => ?_, fun done hdone => ?_⟩
    · cases hrun
      refine ⟨haccepts.2.2.2.1, fun _ => ⟨[], rfl, fun entry he => ?_⟩⟩
      cases he
    · cases hdone
  | run =>
    obtain ⟨run, hrun, h⟩ := bind_eq_some_iff.1 h
    exact hI.advance hrun h
  | write count =>
    obtain ⟨run, hrun, h⟩ := bind_eq_some_iff.1 h
    exact hI.write hrun h
  | fail =>
    obtain ⟨run, hrun, h⟩ := map_eq_some_iff.1 h
    cases h
    exact hI.stop hrun

/-! ## The second run -/

/-- A run of a bundle that is in place only looks at it. -/
structure Again (target : InstallTarget) (bundle : TrackBundle) (files : Files) (s : InstallSystem) : Prop where
  inPlace : InPlace target s.files bundle
  same : ∀ path, path ≠ bundle.reportPath → s.files.lookup path = files.lookup path
  run : ∀ run, s.run = some run → run.bundle = bundle ∧ match run.phase with
    | .inspecting remaining => ∀ e ∈ remaining, e ∈ bundle.entries
    | .checking => True
    | .reporting _ _ => True
    | _ => False

/-- Writing the report leaves the entries in place. -/
theorem Again.report {bundle : TrackBundle} (h : Again target bundle files s) {run : InstallRun} (hrun : s.run = some run)
    (bytes : List UInt8) (content : List UInt8) (written : Nat) :
    Again target bundle files ((s.put bundle.reportPath bytes).goto run (.reporting content written)) where
  inPlace := ⟨h.inPlace.done.put h.inPlace.report bytes, h.inPlace.report⟩
  same path hne := by
    have hlookup : (s.files.insert bundle.reportPath bytes).lookup path = files.lookup path := by
      rw [FiniteMap.lookup_insert, if_neg hne]
      exact h.same path hne
    exact hlookup
  run r hr := by
    cases hr
    exact ⟨(h.run run hrun).1, trivial⟩

/-- A run that goes on looking. -/
theorem Again.goto {bundle : TrackBundle} (h : Again target bundle files s) {run : InstallRun} (hrun : s.run = some run)
    (counts : InstallCounts) (remaining : List TrackBundleEntry) (hmem : ∀ e ∈ remaining, e ∈ bundle.entries) :
    Again target bundle files (s.goto { run with counts := counts } (.inspecting remaining)) where
  inPlace := h.inPlace
  same := h.same
  run r hr := by
    cases hr
    exact ⟨(h.run run hrun).1, hmem⟩

/-- A run that is over. -/
theorem Again.stop {bundle : TrackBundle} (h : Again target bundle files s) : Again target bundle files s.stop :=
  ⟨h.inPlace, h.same, nofun⟩

/-- A run of a bundle in place goes on so. -/
theorem Again.step {bundle : TrackBundle} (hA : Again target bundle files s) {event : InstallEvent}
    (hbegin : ∀ b, event ≠ .begin b) (h : s.Step target event t) : Again target bundle files t := by
  unfold InstallSystem.Step at h
  cases event with
  | begin b => exact absurd rfl (hbegin b)
  | run =>
    obtain ⟨run, hrun, h⟩ := bind_eq_some_iff.1 h
    obtain ⟨rfl, hphase⟩ := hA.run run hrun
    unfold InstallSystem.advance at h
    split at h <;> rename_i heq <;> rw [heq] at hphase
    · rename_i e remaining
      have hrest : ∀ e' ∈ remaining, e' ∈ run.bundle.entries := fun e' he' => hphase e' (mem_cons_of_mem _ he')
      split at h <;> rename_i hselect
      · cases h
        exact hA.goto hrun _ remaining hrest
      · cases h
        exact hA.stop
      · rename_i entry
        cases h
        have hfound := hA.inPlace.done e (hphase e mem_cons_self) entry hselect
        rw [InstallSystem.inspect, hfound]
        simp only [if_pos]
        exact hA.goto hrun _ remaining hrest
    · cases h
      refine ⟨hA.inPlace, hA.same, fun r hr => ?_⟩
      cases hr
      exact ⟨rfl, trivial⟩
    · cases hphase
    · cases hphase
    · cases hphase
    · cases hphase
    · cases hphase
    · cases h
      exact hA.report hrun _ _ _
    · split at h <;> cases h
      exact ⟨hA.inPlace, hA.same, nofun⟩
  | write count =>
    obtain ⟨run, hrun, h⟩ := bind_eq_some_iff.1 h
    obtain ⟨rfl, hphase⟩ := hA.run run hrun
    unfold InstallSystem.write at h
    split at h <;> rename_i heq
    · rw [heq] at hphase
      cases hphase
    · rw [heq] at hphase
      cases hphase
    · split at h <;> cases h
      exact hA.report hrun _ _ _
    · cases h
  | fail =>
    obtain ⟨run, hrun, h⟩ := map_eq_some_iff.1 h
    cases h
    exact hA.stop

/-- The run of a bundle in place begins. -/
theorem again_begin {bundle : TrackBundle} (h : InPlace target s.files bundle) (hstep : s.Step target (.begin bundle) t) :
    Again target bundle s.files t := by
  simp only [InstallSystem.Step, InstallSystem.next] at hstep
  split at hstep <;> cases hstep
  refine ⟨h, fun _ _ => rfl, fun run hrun => ?_⟩
  cases hrun
  exact ⟨rfl, fun e he => he⟩

/-! ## Runs -/

/-- A step writes one file at most: in DataRaw, in the backup directory, or the report. -/
theorem files_of_step {event : InstallEvent} (h : s.Step target event t) : t.files = s.files ∨ ∃ path bytes,
    t.files = s.files.insert path bytes ∧ (target.dataRaw <+: path ∨ target.backupAbsolute.resolve <+: path ∨
      ∃ run, s.run = some run ∧ path = run.bundle.reportPath) := by
  have hput : ∀ (run : InstallRun) (path : FilePath) (bytes : List UInt8) (phase : InstallPhase),
      (target.dataRaw <+: path ∨ target.backupAbsolute.resolve <+: path ∨ ∃ run, s.run = some run ∧ path = run.bundle.reportPath) →
        ∃ path' bytes', ((s.put path bytes).goto run phase).files = s.files.insert path' bytes' ∧
          (target.dataRaw <+: path' ∨ target.backupAbsolute.resolve <+: path' ∨
            ∃ run, s.run = some run ∧ path' = run.bundle.reportPath) :=
    fun _ path bytes _ hplace => ⟨path, bytes, rfl, hplace⟩
  unfold InstallSystem.Step at h
  cases event with
  | begin bundle =>
    simp only [InstallSystem.next] at h
    split at h <;> cases h
    exact .inl rfl
  | run =>
    obtain ⟨run, hrun, h⟩ := bind_eq_some_iff.1 h
    unfold InstallSystem.advance at h
    split at h
    · split at h <;> cases h
      · exact .inl rfl
      · exact .inl rfl
      · unfold InstallSystem.inspect
        split
        · split
          · exact .inl rfl
          · split <;> exact .inl rfl
        · exact .inl rfl
    · cases h
      exact .inl rfl
    · cases h
      unfold InstallSystem.backUp
      split
      · exact .inl rfl
      · exact .inr (hput run _ _ _ (.inr (.inl (prefix_append _ _))))
      · exact .inl rfl
    · split at h <;> cases h
      exact .inl rfl
    · cases h
      exact .inr (hput run _ _ _ (.inl (prefix_append _ _)))
    · split at h <;> cases h
      exact .inl rfl
    · split at h <;> cases h <;> exact .inl rfl
    · cases h
      exact .inr (hput run _ _ _ (.inr (.inr ⟨run, hrun, rfl⟩)))
    · split at h <;> cases h
      exact .inl rfl
  | write count =>
    obtain ⟨run, hrun, h⟩ := bind_eq_some_iff.1 h
    unfold InstallSystem.write at h
    split at h
    · split at h <;> cases h
      exact .inr (hput run _ _ _ (.inr (.inl (prefix_append _ _))))
    · split at h <;> cases h
      exact .inr (hput run _ _ _ (.inl (prefix_append _ _)))
    · split at h <;> cases h
      exact .inr (hput run _ _ _ (.inr (.inr ⟨run, hrun, rfl⟩)))
    · cases h
  | fail =>
    obtain ⟨run, hrun, h⟩ := map_eq_some_iff.1 h
    cases h
    exact .inl rfl

/-- A run of steps that take nothing else for a backup. -/
def UndisturbedRun (target : InstallTarget) (files : Files) : List InstallEvent → InstallSystem → Prop :=
  Path (fun s event t => s.Step target event t ∧ s.Undisturbed target files event) (initial files)

/-- At every moment of every undisturbed sequence of installations. -/
theorem inv_of_run {events : List InstallEvent} (h : UndisturbedRun target files events t) :
    Installs target t ∧ ∀ reports : FilePath → Prop, (∀ bundle, .begin bundle ∈ events → reports bundle.reportPath) →
      Inv target files reports t := by
  unfold UndisturbedRun at h
  induction h with
  | nil => exact ⟨⟨nofun, nofun⟩, fun reports _ => inv_initial target files reports⟩
  | snoc _ hst ih =>
    refine ⟨ih.1.step hst.1, fun reports hreports => ?_⟩
    have hbefore := ih.2 reports (fun bundle hb => hreports bundle (mem_append_left _ hb))
    refine hbefore.step (fun bundle hb => hreports bundle ?_) hst.2 hst.1
    rw [hb]
    exact mem_append_right _ mem_cons_self

end InstallSystem

namespace InstallAux

open InstallSystem

/-- A track table of two bytes and a locale of one. -/
def dataRawFiles : Files := AList.insert [['D'], "track".toList, "common".toList, "track@zz.bml".toList] [1, 2]
  (AList.insert [['D'], "track".toList, "common".toList, "trackLocale@kr.bml".toList] [3] ∅)

/-- DataRaw and a backup directory beside it. -/
def target : InstallTarget := ⟨[['D']], [['B']]⟩

/-- A bundle with another track table. -/
def bundle : TrackBundle where
  directory := [['U']]
  archives := [⟨"a.rho5", "track_catalog"⟩]
  entries := [⟨"a.rho5", "track/common/track@zz.bml", some [9]⟩]
  installReport _ := []

/-- The system behind some events. -/
def after (events : List InstallEvent) : InstallSystem := (events.foldlM (InstallSystem.next target) (initial dataRawFiles)).getD
  (initial dataRawFiles)

/-- A run that fails when it has opened the track table. -/
def opened : List InstallEvent := [.begin bundle, .run, .run, .write 2, .run, .run]

/-- A run that succeeds. -/
def completed : List InstallEvent := opened ++ [.write 1, .run, .run, .run, .run, .run]

/-- The run of the same bundle behind it, up to its begin. -/
def again : List InstallEvent := [.run, .run, .run, .run]

/-- A run that fails in the middle of the backup, and another one. -/
def interrupted : List InstallEvent := [.begin bundle, .run, .run, .write 1, .fail, .begin bundle, .run, .run, .run]

/-- Whether no backup is found in a state. -/
def clear (s : InstallSystem) : Bool :=
  match s.run.map InstallRun.phase with
  | some (.backingUp entry _) => (s.files.lookup (target.backup entry.relative)).isNone
  | _ => true

/-- What an event makes of a system in which no backup is found. -/
def clearNext (s : InstallSystem) (event : InstallEvent) : Option InstallSystem :=
  if clear s = true then s.next target event else none

theorem undisturbed_of_clearNext {s t : InstallSystem} {event : InstallEvent} (h : clearNext s event = some t) :
    s.Step target event t ∧ s.Undisturbed target dataRawFiles event := by
  unfold clearNext at h
  split at h
  · rename_i hclear
    refine ⟨h, ?_⟩
    cases event with
    | run =>
      intro run entry remaining hrun hphase found bytes hfound
      simp only [clear, hrun, map_some, hphase, hfound] at hclear
      cases hclear
    | _ => trivial
  · cases h

theorem undisturbedRun {events : List InstallEvent}
    (h : events.foldlM clearNext (initial dataRawFiles) = some (after events)) :
    UndisturbedRun target dataRawFiles events (after events) :=
  Path.mono (fun _ _ _ => undisturbed_of_clearNext) (Path.of_foldlM h)

theorem agrees : Agrees bundle := by
  intro e he e' he' i i' hi hi' _ _
  cases mem_singleton.1 he
  cases mem_singleton.1 he'
  rw [hi] at hi'
  cases hi'
  rfl

/-- A path whose steps begin no run. -/
theorem path_again : Path (fun s event t => s.Step target event t ∧ ∀ b, event ≠ .begin b)
    (after (completed ++ [.begin bundle])) again (after (completed ++ .begin bundle :: again)) :=
  .cons ⟨rfl, nofun⟩ (.cons ⟨rfl, nofun⟩ (.cons ⟨rfl, nofun⟩ (.single ⟨rfl, nofun⟩)))

end InstallAux

namespace InstallSystem

end InstallSystem

end P5136
