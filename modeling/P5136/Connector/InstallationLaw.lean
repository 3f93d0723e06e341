import P5136.Connector.Installation
import P5136.Connector.PinRoundTrip
import P5136.Connector.Pristine

/-!
# Records survive every run

Runs of the connector on one game directory, each cut short or not, keep what every prepared file was. A run that fails leaves
each file as it was or set to what is recorded, and a run without special tracks that ends leaves the overlay so.
-/

namespace P5136.Connector

open Interruptible ManagedFile InstallationError

namespace GameDirectory

variable {directory next later : GameDirectory}

/-- At most one record of each file. -/
def Consistent (directory : GameDirectory) : Prop := ∀ name, (directory.files name).Consistent

/-- What every file was is kept. -/
def Keeps (directory next : GameDirectory) : Prop := ∀ name, (directory.files name).Keeps (next.files name)

/-- What every file was is kept, and each file is left as it is or set to that. -/
def Prepares (directory next : GameDirectory) : Prop := ∀ name, (directory.files name).Prepares (next.files name)

theorem Prepares.keeps (h : Prepares directory next) : Keeps directory next := fun name => (h name).toKeeps

theorem Prepares.refl (h : directory.Consistent) : Prepares directory directory := fun name => ManagedFile.Prepares.refl (h name)

theorem Keeps.refl (h : directory.Consistent) : Keeps directory directory := fun name => ManagedFile.Keeps.refl (h name)

theorem Keeps.trans (h : Keeps directory next) (h' : Keeps next later) : Keeps directory later :=
  fun name => (h name).trans (h' name)

theorem Keeps.consistent (h : Keeps directory next) : next.Consistent := fun name => (h name).consistent

@[simp] theorem files_withFile_self (directory : GameDirectory) (name : GameFile) (file : ManagedFile) :
    (directory.withFile name file).files name = file := by
  simp [withFile]

theorem files_withFile_of_ne {name other : GameFile} (h : other ≠ name) (directory : GameDirectory) (file : ManagedFile) :
    (directory.withFile name file).files other = directory.files other := by
  simp [withFile, h]

/-- A change of one file is prepared when the file is. -/
theorem Prepares.withFile {name : GameFile} {file : ManagedFile} (h : Prepares directory next)
    (hfile : (next.files name).Prepares file) : Prepares directory (next.withFile name file) := by
  intro other
  by_cases hother : other = name
  · subst hother
    rw [files_withFile_self]
    exact (h other).trans hfile
  · rw [files_withFile_of_ne hother]
    exact h other

/-- What a file was is kept when one file is changed so. -/
theorem Keeps.withFile {name : GameFile} {file : ManagedFile} (h : Keeps directory next)
    (hfile : (next.files name).Keeps file) : Keeps directory (next.withFile name file) := by
  intro other
  by_cases hother : other = name
  · subst hother
    rw [files_withFile_self]
    exact (h other).trans hfile
  · rw [files_withFile_of_ne hother]
    exact h other

end GameDirectory

open GameDirectory

/-! ## The calls of a run -/

/-- Some files of a directory have a record, and it is prepared. -/
def Ready (directory : GameDirectory) (names : List GameFile) (s : GameDirectory) : Prop :=
  Prepares directory s ∧ ∀ name ∈ names, (s.files name).HasRecord

/-- The failures of a file: two records are not among them. -/
def NoConflict (e : ConnectorFileError) : Prop := e ≠ .pristineStateConflict

/-- A call while a directory is prepared. -/
def Readying {ε α : Type} (directory : GameDirectory) (fine : ε → Prop) (P : GameDirectory → Prop)
    (c : Interruptible GameDirectory ε α) (Q : α → GameDirectory → Prop) : Prop :=
  Meets (Keeps directory) (fun e s => Prepares directory s ∧ fine e) P c Q

section Calls

variable {directory : GameDirectory} {names : List GameFile} {name : GameFile}

/-- A call that prepares one file prepares the directory, and what is known of the file behind it is known. -/
theorem readying_onFile {α : Type} (names : List GameFile) (name : GameFile) (call : FileCall α) {P : ManagedFile → Prop} {Q : α → ManagedFile → Prop}
    (hcall : ∀ file, file.Consistent → P file → Preparing file (· = file) call (fun a s => file.Prepares s ∧ Q a s)) :
    Readying directory NoConflict (fun s => Ready directory names s ∧ P (s.files name)) (onFile name call)
      (fun a s => Ready directory names s ∧ Q a (s.files name)) := by
  refine meets_within ?_
  rintro s ⟨⟨hprepares, hrecords⟩, hP⟩ file rfl
  obtain ⟨hstops, hend⟩ := hcall (s.files name) (hprepares name).consistent hP _ rfl
  refine ⟨fun t ht => (hprepares.withFile (hstops t ht)).keeps, ?_⟩
  cases hout : (call (s.files name)).outcome with
  | ok a =>
    rw [hout] at hend
    refine ⟨⟨hprepares.withFile hend.1, fun other hother => ?_⟩, ?_⟩
    · by_cases heq : other = name
      · subst heq
        rw [files_withFile_self]
        exact hend.1.record (hrecords other hother)
      · rw [files_withFile_of_ne heq]
        exact hrecords other hother
    · rw [files_withFile_self]
      exact hend.2
  | error e =>
    rw [hout] at hend
    exact ⟨hprepares.withFile hend.1, hend.2⟩

/-- A file is prepared, and has a record. -/
theorem readying_prepare {required : Bool} {maximumBytes : Nat} :
    Readying directory NoConflict (Ready directory names) (onFile name (preparePersistentFile required maximumBytes))
      (fun preparation s => Ready directory (name :: names) s ∧
        (preparation.state = .backup ↔ (s.files name).pristineBackup.isSome = true)) := by
  refine (readying_onFile names name _ (P := fun _ => True) (Q := fun preparation s => s.HasRecord ∧
    (preparation.state = .backup ↔ s.pristineBackup.isSome = true)) fun file hconsistent _ => ?_).weaken ?_ ?_
  · exact (preparing_preparePersistentFile hconsistent).weaken (fun _ h => h) (fun _ _ h => ⟨h.1.1, h.1.2⟩)
  · exact fun _ h => ⟨h, trivial⟩
  · rintro preparation s ⟨hready, hrecord, hstate⟩
    refine ⟨⟨hready.1, fun other hother => ?_⟩, hstate⟩
    rcases List.mem_cons.1 hother with rfl | hother
    · exact hrecord
    · exact hready.2 other hother

/-- A recorded file is restored, and is what is recorded. -/
theorem readying_restore {preparation : PersistentFilePreparation} {maximumBytes : Nat} (hname : name ∈ names) :
    Readying directory NoConflict
      (fun s => Ready directory names s ∧ (preparation.state = .backup ↔ (s.files name).pristineBackup.isSome = true))
      (onFile name (restorePersistentFile preparation maximumBytes))
      (fun _ s => Ready directory names s ∧ (s.files name).live = (s.files name).original) := by
  refine (readying_onFile names name (restorePersistentFile preparation maximumBytes)
    (P := fun s => s.HasRecord ∧ (preparation.state = .backup ↔ s.pristineBackup.isSome = true))
    (Q := fun _ s => s.live = s.original) ?_).weaken (fun s hs => ⟨hs.1, hs.1.2 name hname, hs.2⟩) (fun _ _ h => h)
  rintro file hconsistent ⟨hrecord, hstate⟩
  refine preparing_restorePersistentFile.weaken ?_ (fun _ s h => ⟨h.1.1, h.2⟩)
  rintro s rfl
  exact ⟨ManagedFile.Prepares.refl hconsistent, hrecord, hstate⟩

/-- All files of a list have a record, and without special tracks the overlay is what is recorded. -/
def Settled (directory : GameDirectory) (unlockSpecialTracks : Bool) (names : List GameFile) (s : GameDirectory) : Prop :=
  Keeps directory s ∧ (∀ name ∈ names, (s.files name).HasRecord) ∧
    (unlockSpecialTracks = false → (s.files .specialTrackOverlay).live = (s.files .specialTrackOverlay).original)

/-- A recorded file is replaced: the overlay only for special tracks. -/
theorem readying_write {unlockSpecialTracks : Bool} {bytes : List UInt8} {P : GameDirectory → Prop} (hname : name ∈ names)
    (hoverlay : name = .specialTrackOverlay → unlockSpecialTracks = true)
    (hP : ∀ s, P s → Settled directory unlockSpecialTracks names s) :
    Readying directory NoConflict P (onFile name (atomicWrite bytes))
      (fun _ => Settled directory unlockSpecialTracks names) := by
  refine meets_within fun s hs => ?_
  obtain ⟨hkeeps, hrecords, hrestored⟩ := hP s hs
  refine meets_atomically ?_
  rintro file rfl
  have hfile := ManagedFile.Keeps.refl (hkeeps.consistent name)
  have hwritten : (s.files name).Keeps { s.files name with live := some bytes } :=
    ManagedFile.Keeps.of_record (hkeeps.consistent name) (hrecords name hname) rfl rfl
  refine ⟨hkeeps.withFile hfile, hkeeps.withFile hwritten, fun other hother => ?_, fun hoff => ?_⟩
  · by_cases heq : other = name
    · subst heq
      rw [files_withFile_self]
      exact hwritten.record (hrecords other hother)
    · rw [files_withFile_of_ne heq]
      exact hrecords other hother
  · have hne : GameFile.specialTrackOverlay ≠ name := by
      rintro rfl
      rw [hoverlay rfl] at hoff
      cases hoff
    rw [files_withFile_of_ne hne]
    exact hrestored hoff

end Calls

/-! ## A run -/

/-- A failure that is told as another. -/
theorem Readying.mapError {ε ε' α : Type} {directory : GameDirectory} {fine : ε → Prop} {fine' : ε' → Prop} {f : ε → ε'}
    {P : GameDirectory → Prop} {c : Interruptible GameDirectory ε α} {Q : α → GameDirectory → Prop}
    (h : Readying directory fine P c Q) (hfine : ∀ e, fine e → fine' (f e)) :
    Readying directory fine' P (Interruptible.mapError f c) Q := by
  refine Meets.mapError fun s hs => ?_
  obtain ⟨hstops, hend⟩ := h s hs
  refine ⟨hstops, ?_⟩
  cases hout : (c s).outcome with
  | ok a =>
    rw [hout] at hend
    exact hend
  | error e =>
    rw [hout] at hend
    exact ⟨hend.1, hfine e hend.2⟩

/-- Two records are not what the special tracks fail with. -/
def SpecialTrackPatchError.Fine : SpecialTrackPatchError → Prop
  | file source => NoConflict source
  | tracks _ => True

/-- Two records are not what an installation fails with. -/
def InstallationError.Fine : InstallationError → Prop
  | detection source => NoConflict source
  | file source => NoConflict source
  | specialTracks source => source.Fine
  | _ => True

section Run

variable {directory : GameDirectory} {library : ConnectorLibrary} {names : List GameFile}

/-- A result that is no failure of a file. -/
theorem readying_ofExcept {ε α : Type} {fine : ε → Prop} {r : Except ε α} (hfine : ∀ e, r = .error e → fine e) :
    Readying directory fine (Ready directory names) (ofExcept r) (fun _ => Ready directory names) :=
  (meets_ofExcept fun _ e hs he => ⟨hs.1, hfine e he⟩).weaken (fun _ h => h) (fun _ _ h => h.1)

/-- What is read of the directory, where no failure is a second record. -/
theorem readying_reads {ε α : Type} {fine : ε → Prop} {f : GameDirectory → Except ε α}
    (hfine : ∀ s e, f s = .error e → fine e) :
    Readying directory fine (Ready directory names) (reads f) (fun _ => Ready directory names) :=
  meets_reads (fun _ _ hs _ => hs) (fun s e hs he => ⟨hs.1, hfine s e he⟩)

/-- A changed failure is one of the source. -/
theorem fine_of_mapError {ε ε' α : Type} {fine : ε' → Prop} (f : ε → ε') {r : Except ε α} (hfine : ∀ e, r = .error e → fine (f e)) :
    ∀ e, r.mapError f = .error e → fine e := by
  intro e he
  cases hr : r with
  | ok a =>
    rw [hr] at he
    cases he
  | error source =>
    rw [hr] at he
    cases he
    exact hfine source hr

/-- Reading a file within a limit does not meet two records. -/
theorem noConflict_readBounded {content : Option (List UInt8)} {maximumBytes : Nat} {e : ConnectorFileError}
    (h : readBounded content maximumBytes = .error e) : NoConflict e := ne_conflict_of_readBounded_error h

/-- Nor does the detection. -/
theorem noConflict_detectIn {limits : CodecLimits} {candidates : List (PinDetectionSource × Option (List UInt8))}
    {e : ConnectorFileError} (h : detectIn library limits candidates = .error e) : NoConflict e := by
  induction candidates with
  | nil => cases h
  | cons candidate rest ih =>
    rcases candidate with ⟨source, _ | content⟩
    · exact ih h
    · rw [detectIn] at h
      rcases Checks.bind_eq_error.1 h with h | ⟨bytes, -, h⟩
      · exact noConflict_readBounded h
      · split at h
        · exact ih h
        · split at h
          · cases h
          · exact ih h

/-- `prepare_special_tracks` records the overlay, and restores it unless the tracks are unlocked. -/
theorem readying_prepareSpecialTracks {enabled : Bool} {maximumBytes : Nat} :
    Readying directory SpecialTrackPatchError.Fine (Ready directory names) (prepareSpecialTracks library enabled maximumBytes)
      (fun _ => Settled directory enabled (.specialTrackOverlay :: names)) := by
  unfold prepareSpecialTracks
  refine Meets.bind (readying_prepare.mapError fun _ h => h) fun preparation => ?_
  split
  · refine Meets.bind ((readying_restore List.mem_cons_self).mapError fun _ h => h) fun _ => meets_pure ?_
    rintro s ⟨⟨hprepares, hrecords⟩, hlive⟩
    exact ⟨hprepares.keeps, hrecords, fun _ => hlive⟩
  · rename_i henabled
    refine Meets.weaken (P := Ready directory (.specialTrackOverlay :: names)) ?_ (fun _ h => h.1) (fun _ _ h => h)
    refine Meets.bind (readying_reads fun s => fine_of_mapError _ fun _ _ => trivial) fun localeBytes => ?_
    refine Meets.bind (readying_ofExcept (fine_of_mapError _ fun _ _ => trivial)) fun patched => ?_
    refine Meets.bind (readying_ofExcept (fine_of_mapError _ fun _ _ => trivial)) fun encoded => ?_
    refine Meets.bind ((readying_write List.mem_cons_self (fun _ => by simpa using henabled) ?_).mapError fun _ h => h) fun _ =>
      meets_pure fun _ h => h
    rintro s ⟨hprepares, hrecords⟩
    exact ⟨hprepares.keeps, hrecords, fun hoff => absurd hoff henabled⟩

/-- The files are replaced when all are recorded. -/
theorem readying_writeInstallation {unlockSpecialTracks : Bool} {pin gameConfig launcherProfile session : List UInt8}
    {names : List GameFile} (hnames : ∀ name, name ∈ names) :
    Readying directory Fine (Settled directory unlockSpecialTracks names)
      (writeInstallation pin gameConfig launcherProfile session) (fun _ => Settled directory unlockSpecialTracks names) := by
  have hwrite : ∀ name bytes, name ≠ .specialTrackOverlay →
      Readying directory Fine (Settled directory unlockSpecialTracks names)
        (mapError .file (onFile name (atomicWrite bytes))) (fun _ => Settled directory unlockSpecialTracks names) :=
    fun name bytes hne => (readying_write (hnames name) (fun heq => absurd heq hne) (fun _ h => h)).mapError fun _ h => h
  unfold writeInstallation
  refine Meets.bind (hwrite .pin pin (by simp)) fun _ => ?_
  refine Meets.bind (hwrite .gameConfig gameConfig (by simp)) fun _ => ?_
  refine Meets.bind (hwrite .launcherProfile launcherProfile (by simp)) fun _ => ?_
  exact meets_atomically fun s hs => ⟨hs.1, hs⟩

/-- A file is prepared for an installation. -/
theorem readying_prepareFile {name : GameFile} {required : Bool} {maximumBytes : Nat} :
    Readying directory Fine (Ready directory names)
      (mapError .file (onFile name (preparePersistentFile required maximumBytes)))
      (fun _ => Ready directory (name :: names)) := by
  have hprepare : Readying directory Fine (Ready directory names)
      (mapError .file (onFile name (preparePersistentFile required maximumBytes)))
      (fun preparation s => Ready directory (name :: names) s ∧
        (preparation.state = .backup ↔ (s.files name).pristineBackup.isSome = true)) :=
    readying_prepare.mapError fun _ h => h
  exact Meets.weaken hprepare (fun _ h => h) (fun _ _ h => h.1)

/-- `prepare_installation` keeps what every file was, wherever it stops; where it fails, every file is left as it was or set to
that; and a run that ends has recorded them all. -/
theorem readying_prepareInstallation {request : InstallationRequest} :
    Readying directory Fine (Ready directory []) (prepareInstallation library request)
      (fun _ s => Settled directory request.options.unlockSpecialTracks
        [.specialTrackOverlay, .launcherProfile, .gameConfig, .pin] s) := by
  unfold prepareInstallation
  refine Meets.bind (readying_ofExcept (fine_of_mapError _ fun _ _ => trivial)) fun _ => ?_
  refine Meets.bind ((meets_require fun s hs _ => ⟨hs.1, by simp [Fine, NoConflict]⟩).weaken (fun _ h => h)
    (fun _ _ h => h.1)) fun _ => ?_
  refine Meets.bind (readying_reads fun s => fine_of_mapError _ fun _ h => noConflict_detectIn h) fun evidence => ?_
  refine Meets.bind (readying_ofExcept ?_) fun buildEvidence => ?_
  · intro e he
    obtain ⟨-, rfl⟩ := Checks.orElse_eq_error.1 he
    trivial
  refine Meets.bind readying_prepareFile fun pinPristine => ?_
  refine Meets.bind readying_prepareFile fun gameConfigPristine => ?_
  refine Meets.bind readying_prepareFile fun launcherProfilePristine => ?_
  refine Meets.bind (readying_reads fun s => fine_of_mapError _ fun _ h => noConflict_readBounded h) fun pinInput => ?_
  refine Meets.bind (readying_ofExcept (fine_of_mapError _ fun _ _ => trivial)) fun patchedPin => ?_
  refine Meets.bind ((meets_require fun s hs _ => ⟨hs.1, trivial⟩).weaken (fun _ h => h) (fun _ _ h => h.1)) fun _ => ?_
  refine Meets.bind (readying_prepareSpecialTracks.mapError fun _ h => h) fun specialTrackPatch => ?_
  refine Meets.bind (readying_writeInstallation fun name => ?_) fun _ => meets_pure fun _ h => h
  cases name <;> simp

/-- A run from a directory with at most one record of each file. -/
theorem meets_prepareInstallation (library : ConnectorLibrary) (request : InstallationRequest) (hconsistent : directory.Consistent) :
    Readying directory Fine (· = directory) (prepareInstallation library request)
      (fun _ => Settled directory request.options.unlockSpecialTracks
        [.specialTrackOverlay, .launcherProfile, .gameConfig, .pin]) := by
  refine readying_prepareInstallation.weaken ?_ (fun _ _ h => h)
  rintro s rfl
  exact ⟨Prepares.refl hconsistent, fun _ h => absurd h List.not_mem_nil⟩

/-- Runs of the connector, each with what its environment does and for its own request. -/
def preparations (run : ConnectorLibrary × InstallationRequest) :
    Interruptible GameDirectory InstallationError PreparedInstallation := prepareInstallation run.1 run.2

/-- Runs keep what every file was. -/
theorem keeps_of_reruns {next : GameDirectory} (hconsistent : directory.Consistent)
    (h : Reruns preparations directory next) : Keeps directory next := by
  refine Reruns.keeps (I := GameDirectory.Consistent) (fun _ => Keeps.refl) (fun _ _ _ => Keeps.trans)
    (fun _ _ => Keeps.consistent) (fun run s t hs hvisit => ?_) hconsistent h
  exact (meets_prepareInstallation run.1 run.2 hs).visits (fun _ _ hend => hend.1.keeps) (fun _ _ hend => hend.1) rfl hvisit

end Run

/-- Whatever runs of the connector are made on a game directory with at most one record of each file, with special tracks or
without, and wherever each is cut short: a record says what the file was at the beginning, stays as it is through all later runs,
and is the only one; no run meets two records; a run that fails leaves each file as it was or as it is recorded; and a run without
special tracks that ends leaves the overlay as it is recorded. -/
theorem pristine_records_survive {initial current : GameDirectory} (hinitial : initial.Consistent)
    (hruns : Reruns preparations initial current) :
    (∀ name, (current.files name).HasRecord → (current.files name).Recorded (initial.files name).original) ∧
    (∀ later, Reruns preparations current later → ∀ name content,
      (current.files name).Recorded content → (later.files name).Recorded content) ∧
    ∀ library request,
      (∀ e, (prepareInstallation library request current).outcome = .error e → e.Fine ∧ ∀ name,
        ((prepareInstallation library request current).final.files name).live = (current.files name).live ∨
        ((prepareInstallation library request current).final.files name).Recorded
          ((prepareInstallation library request current).final.files name).live) ∧
      (∀ prepared, (prepareInstallation library request current).outcome = .ok prepared →
        request.options.unlockSpecialTracks = false →
        ((prepareInstallation library request current).final.files .specialTrackOverlay).Recorded
          ((prepareInstallation library request current).final.files .specialTrackOverlay).live) := by
  have hkeeps := keeps_of_reruns hinitial hruns
  refine ⟨fun name hrecord => ?_, fun later hlater name content hcontent => ?_, fun library request => ⟨fun e hout => ?_, ?_⟩⟩
  · have hrecorded := recorded_original (hkeeps.consistent name) hrecord
    rwa [(hkeeps name).original] at hrecorded
  · exact (keeps_of_reruns hkeeps.consistent hlater name).recorded hcontent
  · obtain ⟨-, hend⟩ := meets_prepareInstallation library request hkeeps.consistent _ rfl
    rw [hout] at hend
    refine ⟨hend.2, fun name => ?_⟩
    rcases (hend.1 name).live with hsame | ⟨hrecord, hset⟩
    · exact Or.inl hsame
    · rw [hset]
      exact Or.inr (recorded_original (hend.1 name).consistent hrecord)
  · intro prepared hout hoff
    obtain ⟨-, hend⟩ := meets_prepareInstallation library request hkeeps.consistent _ rfl
    rw [hout] at hend
    obtain ⟨hfinal, hrecords, hrestored⟩ := hend
    rw [hrestored hoff]
    exact recorded_original (hfinal _).consistent (hrecords _ List.mem_cons_self)

namespace InstallationAux

/-- A file that was never touched. -/
def untouched (content : Option (List UInt8)) : ManagedFile := ⟨content, none, false, false, none, false⟩

/-- A pin file, neither compressed nor encrypted. -/
def pinFile : List UInt8 :=
  LittleEndian.ofU32 (6 + PinAux.samplePayload.length).toUInt32 ++ [83, 0] ++
    LittleEndian.ofU32 (Legacy.adler32 PinAux.samplePayload) ++ PinAux.samplePayload

/-- A directory in which the takeover of the launcher's backup of the overlay was cut short. -/
def halfMigrated : GameDirectory where
  files
    | .pin => untouched (some pinFile)
    | .gameConfig => untouched none
    | .launcherProfile => untouched none
    | .specialTrackOverlay => ⟨some [3], some [2], true, false, some [2], false⟩
  xunSidecarSession := none

def library : ConnectorLibrary where
  zlib := PinAux.sampleZlib
  decodeShallowPinHeader _ _ := .ok ⟨p5136LocaleId, p5136ClientLocation, p5136MinorVersion⟩
  loadBaseTrackLocale _ := .error "archives"
  patchKoreanTrackLocale _ := .error "locale"
  encodeOverlay _ := .error "overlay"

def request : InstallationRequest := ⟨PinAux.sampleEndpoint, "dao", ⟨true, .regular, false, false, 4096, .default⟩, true⟩

/-- The directory as a run leaves it that is cut short before its fifth operation. -/
def cut : GameDirectory := (prepareInstallation library request halfMigrated).stops.getD 4 halfMigrated

/-- The directory as the next run leaves it, which ends. -/
def ended : GameDirectory := (prepareInstallation library request cut).final

theorem reruns_ended : Reruns preparations halfMigrated ended := by
  have hlength : 4 < (prepareInstallation library request halfMigrated).stops.length := by decide +kernel
  have hcut : cut ∈ (prepareInstallation library request halfMigrated).stops := by
    rw [cut, List.getD_eq_getElem?_getD, List.getElem?_eq_getElem hlength]
    exact List.getElem_mem hlength
  exact .tail (.single ⟨(library, request), .inl hcut⟩) ⟨(library, request), .inr rfl⟩

end InstallationAux

open InstallationAux in
/-- A run that is cut short and one that ends: every record says what the file was at the beginning, and later runs keep it. -/
theorem pristine_records_survive_sample :
    (prepareInstallation library request cut).outcome.isOk = true ∧
    (∀ name, (ended.files name).HasRecord ∧ (ended.files name).Recorded (halfMigrated.files name).original) ∧
    ∀ later, Reruns preparations ended later → ∀ name, (later.files name).Recorded (halfMigrated.files name).original := by
  have hend : (prepareInstallation library request cut).outcome.isOk = true ∧
      ∀ name ∈ [GameFile.pin, .gameConfig, .launcherProfile, .specialTrackOverlay],
        (ended.files name).pristineBackup.isSome ∨ (ended.files name).pristineAbsent = true := by decide +kernel
  have hrecord (name : GameFile) : (ended.files name).HasRecord := hend.2 name (by cases name <;> decide)
  obtain ⟨hrecorded, hkept, -⟩ := pristine_records_survive (fun name => by cases name <;> decide) reruns_ended
  exact ⟨hend.1, fun name => ⟨hrecord name, hrecorded name (hrecord name)⟩,
    fun later hlater name => hkept later hlater name _ (hrecorded name (hrecord name))⟩

end P5136.Connector
