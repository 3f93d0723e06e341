import P5136.Assets.Catalogs

/-!
# What survives the installations

At every moment of every sequence of runs, files that are no catalog files are what they were, and the first bytes of a catalog
file are in place or in the backup directory, as long as no run takes something else for a backup.
-/

namespace P5136

open TrackBundle FiniteMap

/-- What holds of the files at a moment: those that were there and are no catalog files keep their bytes, the bytes that a catalog
file had are in place or in the backup, and all changes lie in DataRaw, in the backup directory, and in the reports. -/
structure Recoverable (target : InstallTarget) (original : Files) (reports : FilePath → Prop) (files : Files) : Prop where
  kept : ∀ path bytes, original.lookup path = some bytes → ¬reports path →
    (∀ relative, IsCatalog relative → path ≠ target.destination relative) → files.lookup path = some bytes
  stored : ∀ relative bytes, IsCatalog relative → original.lookup (target.destination relative) = some bytes →
    files.lookup (target.destination relative) = some bytes ∨ files.lookup (target.backup relative) = some bytes
  confined : ∀ path, files.lookup path ≠ original.lookup path →
    target.dataRaw <+: path ∨ target.backupAbsolute.resolve <+: path ∨ reports path

namespace InstallSystem

variable {target : InstallTarget} {original : Files} {reports : FilePath → Prop} {files : Files} {s t : InstallSystem}

/-- A step that takes nothing else for a backup: when `backup_once` finds a file, it is another file than the one to back up and
holds the bytes that this one had before the first run. -/
def Undisturbed (target : InstallTarget) (original : Files) (s : InstallSystem) : InstallEvent → Prop
  | .run => ∀ run entry remaining, s.run = some run → run.phase = .backingUp entry remaining →
      ∀ found bytes, s.files.lookup (target.backup entry.relative) = some found →
        original.lookup (target.destination entry.relative) = some bytes →
          found = bytes ∧ target.backup entry.relative ≠ target.destination entry.relative
  | _ => True

/-! ## Files that may be written -/

/-- A file that may be written: no other file than a catalog file had been there, and no first bytes of a catalog file are there
alone. -/
structure Writable (target : InstallTarget) (original : Files) (reports : FilePath → Prop) (files : Files) (path : FilePath) :
    Prop where
  place : target.dataRaw <+: path ∨ target.backupAbsolute.resolve <+: path ∨ reports path
  file : ∀ bytes, original.lookup path = some bytes → reports path ∨
    ∃ relative, IsCatalog relative ∧ path = target.destination relative
  stored : ∀ relative bytes, IsCatalog relative → original.lookup (target.destination relative) = some bytes →
    path ≠ target.destination relative ∧ files.lookup (target.destination relative) = some bytes ∨
      path ≠ target.backup relative ∧ files.lookup (target.backup relative) = some bytes

/-- Writing a file that may be written. -/
theorem Writable.put {path : FilePath} (hw : Writable target original reports files path) (bytes : List UInt8) :
    Writable target original reports (files.insert path bytes) path where
  place := hw.place
  file := hw.file
  stored relative b hcatalog hb := by
    refine (hw.stored relative b hcatalog hb).imp (fun h => ⟨h.1, ?_⟩) (fun h => ⟨h.1, ?_⟩)
    · rw [lookup_insert, if_neg h.1.symm, h.2]
    · rw [lookup_insert, if_neg h.1.symm, h.2]

/-- Writing it keeps what holds of the files. -/
theorem Writable.recoverable {path : FilePath} (hw : Writable target original reports files path)
    (hr : Recoverable target original reports files) (bytes : List UInt8) :
    Recoverable target original reports (files.insert path bytes) where
  kept p b hb hreports hcatalog := by
    have hne : p ≠ path := by
      rintro rfl
      rcases hw.file b hb with h | ⟨relative, hrelative, heq⟩
      · exact hreports h
      · exact hcatalog relative hrelative heq
    rw [lookup_insert, if_neg hne]
    exact hr.kept p b hb hreports hcatalog
  stored relative b hcatalog hb :=
    ((hw.put bytes).stored relative b hcatalog hb).imp And.right And.right
  confined p hp := by
    by_cases heq : p = path
    · subst heq
      exact hw.place
    · rw [lookup_insert, if_neg heq] at hp
      exact hr.confined p hp

/-! ## The invariant -/

/-- What holds of a run in its phase. -/
def PhaseSafe (target : InstallTarget) (original : Files) (reports : FilePath → Prop) (files : Files) (run : InstallRun) : Prop :=
  match run.phase with
  | .backingUp entry _ => IsTrackBundleCatalogPath entry.path ∧ files.lookup (target.destination entry.relative) ≠ none
  | .copying entry _ content written => IsTrackBundleCatalogPath entry.path ∧
      files.lookup (target.destination entry.relative) = some content ∧
      files.lookup (target.backup entry.relative) = some (content.take written) ∧
      target.backup entry.relative ≠ target.destination entry.relative ∧
      (∀ bytes, original.lookup (target.destination entry.relative) = some bytes → content = bytes) ∧
      Writable target original reports files (target.backup entry.relative)
  | .opening entry _ => Writable target original reports files (target.destination entry.relative)
  | .writing entry _ _ => Writable target original reports files (target.destination entry.relative)
  | .reporting _ _ => Writable target original reports files run.bundle.reportPath
  | _ => True

/-- The invariant of the installations. -/
structure Inv (target : InstallTarget) (original : Files) (reports : FilePath → Prop) (s : InstallSystem) : Prop where
  recoverable : Recoverable target original reports s.files
  present : ∀ path, original.lookup path ≠ none → s.files.lookup path ≠ none
  report : ∀ run, s.run = some run → reports run.bundle.reportPath
  phase : ∀ run, s.run = some run → PhaseSafe target original reports s.files run

/-- A file that is not there may be written. -/
theorem Inv.writable_of_absent (hI : Inv target original reports s) {path : FilePath} (habsent : s.files.lookup path = none)
    (hplace : target.dataRaw <+: path ∨ target.backupAbsolute.resolve <+: path ∨ reports path) :
    Writable target original reports s.files path where
  place := hplace
  file bytes hbytes := by
    refine absurd habsent (hI.present path ?_)
    rw [hbytes]
    exact nofun
  stored relative bytes hcatalog hbytes := by
    have hne : ∀ p, s.files.lookup p = some bytes → path ≠ p := by
      rintro p hp rfl
      rw [habsent] at hp
      cases hp
    exact (hI.recoverable.stored relative bytes hcatalog hbytes).imp (fun h => ⟨hne _ h, h⟩) (fun h => ⟨hne _ h, h⟩)

/-- The destination of a catalog file is the backup of one in the same place only. -/
theorem backup_eq_destination {relative relative' : FilePath} (h : IsCatalog relative) (h' : IsCatalog relative')
    (heq : target.destination relative = target.backup relative') : target.backupAbsolute.resolve = target.dataRaw := by
  rcases List.append_eq_append_iff.1 heq with ⟨above, hroot, hrelative⟩ | ⟨above, hroot, hrelative⟩
  · rw [hrelative] at h
    rw [hroot, eq_nil_of_isCatalog_append h' h, List.append_nil]
  · rw [hrelative] at h'
    rw [hroot, eq_nil_of_isCatalog_append h h', List.append_nil]

/-- The destination of a catalog file may be written once its first bytes are in the backup. -/
theorem Inv.writable_of_backup (hI : Inv target original reports s) {relative : FilePath} (hcatalog : IsCatalog relative)
    (hbackup : ∀ bytes, original.lookup (target.destination relative) = some bytes →
      target.backup relative ≠ target.destination relative ∧ s.files.lookup (target.backup relative) = some bytes) :
    Writable target original reports s.files (target.destination relative) where
  place := .inl (List.prefix_append _ _)
  file _ _ := .inr ⟨relative, hcatalog, rfl⟩
  stored relative' bytes hcatalog' hbytes := by
    by_cases heq : target.destination relative = target.destination relative'
    · have hrelative : relative = relative' := List.append_cancel_left heq
      subst hrelative
      obtain ⟨hapart, hkept⟩ := hbackup bytes hbytes
      exact .inr ⟨hapart.symm, hkept⟩
    · refine (hI.recoverable.stored relative' bytes hcatalog' hbytes).imp (fun h => ⟨heq, h⟩) (fun h => ⟨?_, h⟩)
      -- in the backup of another file, the backup directory would be DataRaw
      intro hsame
      refine heq ?_
      rw [hsame, InstallTarget.backup, backup_eq_destination hcatalog hcatalog' hsame]
      rfl

/-- The report of a bundle may be written. -/
theorem Inv.writable_of_report (hI : Inv target original reports s) {bundle : TrackBundle} (hreport : reports bundle.reportPath) :
    Writable target original reports s.files bundle.reportPath where
  place := .inr (.inr hreport)
  file _ _ := .inl hreport
  stored relative bytes hcatalog hbytes := by
    have hne : relative ≠ [] := by
      obtain ⟨path, -, hsafe⟩ := hcatalog
      exact ne_nil_of_safeRelativePath hsafe
    have hlast : ∀ root, bundle.reportPath ≠ root ++ relative := by
      intro root heq
      have hget := congrArg List.getLast? heq
      rw [TrackBundle.reportPath, List.getLast?_concat, List.getLast?_append_of_ne_nil _ hne] at hget
      exact getLast?_ne_of_isCatalog hcatalog hget.symm
    exact (hI.recoverable.stored relative bytes hcatalog hbytes).imp (fun h => ⟨hlast _, h⟩) (fun h => ⟨hlast _, h⟩)

/-! ## Steps -/

/-- A run that is over. -/
theorem Inv.stop (hI : Inv target original reports s) : Inv target original reports s.stop :=
  ⟨hI.recoverable, hI.present, nofun, nofun⟩

/-- A run that goes on. -/
theorem Inv.goto (hI : Inv target original reports s) {run : InstallRun} (hrun : s.run = some run) (counts : InstallCounts)
    (phase : InstallPhase) (hsafe : PhaseSafe target original reports s.files ⟨run.bundle, counts, phase⟩) :
    Inv target original reports (s.goto { run with counts := counts } phase) where
  recoverable := hI.recoverable
  present := hI.present
  report r hr := by
    cases hr
    exact hI.report run hrun
  phase r hr := by
    cases hr
    exact hsafe

/-- A run that writes a file. -/
theorem Inv.put (hI : Inv target original reports s) {run : InstallRun} (hrun : s.run = some run) {path : FilePath}
    (hw : Writable target original reports s.files path) (bytes : List UInt8) (phase : InstallPhase)
    (hsafe : PhaseSafe target original reports (s.files.insert path bytes) { run with phase := phase }) :
    Inv target original reports ((s.put path bytes).goto run phase) where
  recoverable := hw.recoverable hI.recoverable bytes
  present p hp := by
    have hlookup : (s.files.insert path bytes).lookup p ≠ none := by
      rw [lookup_insert]
      split
      · exact nofun
      · exact hI.present p hp
    exact hlookup
  report r hr := by
    cases hr
    exact hI.report run hrun
  phase r hr := by
    cases hr
    exact hsafe

/-- Looking at a destination. -/
theorem Inv.inspect (hI : Inv target original reports s) {run : InstallRun} (hrun : s.run = some run) (entry : InstallEntry)
    (remaining : List TrackBundleEntry) : Inv target original reports (s.inspect target run entry remaining) := by
  unfold InstallSystem.inspect
  split
  · rename_i existing hexisting
    split
    · exact hI.goto hrun _ (.inspecting remaining) trivial
    · split
      · rename_i hcatalog
        refine hI.goto hrun _ (.backingUp entry remaining) ⟨hcatalog, ?_⟩
        rw [hexisting]
        exact nofun
      · exact hI.stop
  · rename_i habsent
    exact hI.goto hrun _ (.opening entry remaining) (hI.writable_of_absent habsent (.inl (List.prefix_append _ _)))

/-- `backup_once`. -/
theorem Inv.backUp (hI : Inv target original reports s) {run : InstallRun} (hrun : s.run = some run) {entry : InstallEntry}
    {remaining : List TrackBundleEntry} (hphase : run.phase = .backingUp entry remaining)
    (hu : s.Undisturbed target original .run) : Inv target original reports (s.backUp target run entry remaining) := by
  have hsafe := hI.phase run hrun
  rw [PhaseSafe, hphase] at hsafe
  obtain ⟨hpath, -⟩ := hsafe
  have hcatalog : IsCatalog entry.relative := ⟨entry.path, hpath, entry.safe⟩
  unfold InstallSystem.backUp
  split
  · -- a file is taken for the backup
    rename_i found hfound
    refine hI.goto hrun _ (.opening entry remaining) (hI.writable_of_backup hcatalog (fun bytes hbytes => ?_))
    obtain ⟨rfl, hapart⟩ := hu run entry remaining hrun hphase found bytes hfound hbytes
    exact ⟨hapart, hfound⟩
  · -- without a backup the first bytes are in place
    rename_i content habsent hcontent
    have hapart : target.backup entry.relative ≠ target.destination entry.relative := by
      intro heq
      rw [heq, hcontent] at habsent
      cases habsent
    have hw := hI.writable_of_absent habsent (.inr (.inl (List.prefix_append _ _)))
    refine hI.put hrun hw [] (.copying entry remaining content 0) ⟨hpath, ?_, ?_, hapart, fun bytes hbytes => ?_, hw.put []⟩
    · rw [lookup_insert, if_neg hapart.symm, hcontent]
    · rw [lookup_insert, if_pos rfl]
      rfl
    · rcases hI.recoverable.stored _ bytes hcatalog hbytes with h | h
      · rw [hcontent] at h
        exact Option.some.inj h
      · rw [habsent] at h
        cases h
  · exact hI.stop

/-- The next step of a run. -/
theorem Inv.advance (hI : Inv target original reports s) {run : InstallRun} (hrun : s.run = some run)
    (hu : s.Undisturbed target original .run) (h : s.advance target run = some t) : Inv target original reports t := by
  have hsafe := hI.phase run hrun
  unfold PhaseSafe at hsafe
  unfold InstallSystem.advance at h
  split at h <;> rename_i hphase
  · split at h
    · cases h
      exact hI.goto hrun _ _ trivial
    · cases h
      exact hI.stop
    · cases h
      exact hI.inspect hrun _ _
  · cases h
    exact hI.goto hrun _ .checking trivial
  · cases h
    exact hI.backUp hrun hphase hu
  · rename_i entry remaining content written
    rw [hphase] at hsafe
    obtain ⟨hpath, -, hbackup, hapart, hcontent, -⟩ := hsafe
    split at h
    · rename_i hwritten
      cases h
      refine hI.goto hrun _ (.opening entry remaining)
        (hI.writable_of_backup ⟨entry.path, hpath, entry.safe⟩ (fun bytes hbytes => ⟨hapart, ?_⟩))
      rw [hbackup, hwritten, List.take_length, hcontent bytes hbytes]
    · cases h
  · rename_i entry remaining
    rw [hphase] at hsafe
    cases h
    exact hI.put hrun hsafe [] (.writing entry remaining 0) (hsafe.put [])
  · rename_i entry remaining written
    split at h <;> cases h
    exact hI.goto hrun _ (.verifying entry remaining) trivial
  · rename_i entry remaining
    split at h <;> cases h
    · exact hI.goto hrun _ (.inspecting remaining) trivial
    · exact hI.stop
  · cases h
    have hw := hI.writable_of_report (hI.report run hrun)
    exact hI.put hrun hw [] (.reporting (run.bundle.installReport run.counts) 0) (hw.put [])
  · split at h <;> cases h
    exact ⟨hI.recoverable, hI.present, nofun, nofun⟩

/-- Writing more of a file. -/
theorem Inv.write (hI : Inv target original reports s) {run : InstallRun} (hrun : s.run = some run) {count : Nat}
    (h : s.write target run count = some t) : Inv target original reports t := by
  have hsafe := hI.phase run hrun
  unfold PhaseSafe at hsafe
  unfold InstallSystem.write at h
  split at h <;> rename_i hphase
  · rename_i entry remaining content written
    rw [hphase] at hsafe
    obtain ⟨hpath, hdestination, -, hapart, hcontent, hw⟩ := hsafe
    split at h <;> cases h
    refine hI.put hrun hw _ (.copying entry remaining content (written + count)) ⟨hpath, ?_, ?_, hapart, hcontent, hw.put _⟩
    · rw [lookup_insert, if_neg hapart.symm, hdestination]
    · rw [lookup_insert, if_pos rfl]
  · rename_i entry remaining written
    rw [hphase] at hsafe
    split at h <;> cases h
    exact hI.put hrun hsafe _ (.writing entry remaining (written + count)) (hsafe.put _)
  · rename_i bytes written
    rw [hphase] at hsafe
    split at h <;> cases h
    exact hI.put hrun hsafe _ (.reporting bytes (written + count)) (hsafe.put _)
  · cases h

/-- Every undisturbed step keeps the invariant. -/
theorem Inv.step (hI : Inv target original reports s) {event : InstallEvent}
    (hreports : ∀ bundle, event = .begin bundle → reports bundle.reportPath) (hu : s.Undisturbed target original event)
    (h : s.Step target event t) : Inv target original reports t := by
  unfold InstallSystem.Step at h
  cases event with
  | begin bundle =>
    simp only [InstallSystem.next] at h
    split at h <;> cases h
    refine ⟨hI.recoverable, hI.present, fun run hrun => ?_, fun run hrun => ?_⟩
    · cases hrun
      exact hreports bundle rfl
    · cases hrun
      trivial
  | run =>
    obtain ⟨run, hrun, h⟩ := Option.bind_eq_some_iff.1 h
    exact hI.advance hrun hu h
  | write count =>
    obtain ⟨run, hrun, h⟩ := Option.bind_eq_some_iff.1 h
    exact hI.write hrun h
  | fail =>
    obtain ⟨run, hrun, h⟩ := Option.map_eq_some_iff.1 h
    cases h
    exact hI.stop

/-- Files before the first run are as they were. -/
theorem inv_initial (target : InstallTarget) (files : Files) (reports : FilePath → Prop) :
    Inv target files reports (initial files) where
  recoverable := ⟨fun _ _ h _ _ => h, fun _ _ _ h => .inl h, fun _ h => absurd rfl h⟩
  present _ h := h
  report := nofun
  phase := nofun

end InstallSystem

end P5136
