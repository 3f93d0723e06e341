import P5136.Lib.Interruptible

/-!
# Pristine records of managed files

Before the connector replaces a file it records what the file was: a backup, or a marker that there was none. Records that an
earlier launcher kept are taken over. Every call is a chain of atomic operations on the file and its siblings, and may be cut
short before each: a stop, or a failure of the file system, leaves what was done before.
-/

namespace P5136.Connector

open Interruptible

/-- A managed file and its siblings. -/
structure ManagedFile where
  /-- The file itself. -/
  live : Option (List UInt8)
  /-- `.launcher-v2.bak`. -/
  legacyBackup : Option (List UInt8)
  /-- `.launcher-v2.created`. -/
  legacyCreated : Bool
  /-- `.launcher-v2.tmp`. -/
  legacyTemporary : Bool
  /-- `.pristine.bak`. -/
  pristineBackup : Option (List UInt8)
  /-- `.pristine.absent`. -/
  pristineAbsent : Bool
deriving DecidableEq

/-- Why a file is not prepared. The path is the file's that is prepared. -/
inductive ConnectorFileError where
  | io (operation : String)
  | fileTooLarge (actual maximum : Nat)
  | lockTimeout
  | pristineStateConflict
  | missingRequiredFile
  | requiredFileWasLegacyCreated
deriving DecidableEq

inductive PristineState where
  | backup
  | absent
deriving DecidableEq

inductive PristineAction where
  | reused
  | createdBackup
  | recordedAbsence
  | migratedLegacyBackup
  | migratedLegacyAbsence
  | recoveredRequiredFile
deriving DecidableEq

structure PersistentFilePreparation where
  state : PristineState
  action : PristineAction
deriving DecidableEq

/-- What a call on a managed file does. -/
abbrev FileCall := Interruptible ManagedFile ConnectorFileError

def enforceFileLimit (actual maximum : Nat) : Except ConnectorFileError Unit :=
  Checks.ensure (¬actual > maximum) (.fileTooLarge actual maximum)

def readBounded (content : Option (List UInt8)) (maximumBytes : Nat) : Except ConnectorFileError (List UInt8) := do
  let bytes ← Checks.orElse content (.io "open file")
  enforceFileLimit bytes.length maximumBytes
  pure bytes

def atomicWrite (bytes : List UInt8) : FileCall PUnit := atomically fun file => { file with live := some bytes }

/-- `create_backup_once`, from one of the siblings or the file itself: a backup that is there stays. -/
def createBackupOnce (source : ManagedFile → Option (List UInt8)) (maximumBytes : Nat) : FileCall PUnit := do
  let bytes ← reads fun file => do
    let bytes ← Checks.orElse (source file) (.io "open pristine source")
    enforceFileLimit bytes.length maximumBytes
    pure bytes
  atomically fun file => { file with pristineBackup := file.pristineBackup.or (some bytes) }

def createAbsentMarkerOnce : FileCall PUnit := atomically fun file => { file with pristineAbsent := true }

/-- `atomic_copy` to the file itself. -/
def atomicCopy (source : ManagedFile → Option (List UInt8)) (maximumBytes : Nat) : FileCall PUnit := do
  let bytes ← reads fun file => do
    let bytes ← Checks.orElse (source file) (.io "open copy source")
    -- no more than one byte over the limit is copied
    enforceFileLimit (min bytes.length (maximumBytes + 1)) maximumBytes
    pure bytes
  atomicWrite bytes

/-- `remove_file_if_exists` of the legacy backup. -/
def removeLegacyBackup : FileCall PUnit := atomically fun file => { file with legacyBackup := none }

/-- `remove_file_if_exists` of the legacy created marker. -/
def removeLegacyCreated : FileCall PUnit := atomically fun file => { file with legacyCreated := false }

/-- `remove_file_if_exists` of the stale legacy temporary file. -/
def removeLegacyTemporary : FileCall PUnit := atomically fun file => { file with legacyTemporary := false }

/-- `remove_file_if_exists` of the file itself. -/
def removeLive : FileCall PUnit := atomically fun file => { file with live := none }

/-- The part of `prepare_persistent_file` for a file without a record: it takes over what the launcher recorded, or records
what is there. -/
def recordPristine (required : Bool) (maximumBytes : Nat) : FileCall PersistentFilePreparation := do
  let file ← get
  if file.legacyBackup.isSome then
    createBackupOnce (·.legacyBackup) maximumBytes
    atomicCopy (·.legacyBackup) maximumBytes
    removeLegacyBackup
    removeLegacyCreated
    pure ⟨.backup, .migratedLegacyBackup⟩
  else if file.legacyCreated then
    require (¬required) .requiredFileWasLegacyCreated
    createAbsentMarkerOnce
    removeLegacyCreated
    pure ⟨.absent, .migratedLegacyAbsence⟩
  else if file.live.isSome then
    createBackupOnce (·.live) maximumBytes
    pure ⟨.backup, .createdBackup⟩
  else
    require (¬required) .missingRequiredFile
    createAbsentMarkerOnce
    pure ⟨.absent, .recordedAbsence⟩

/-- The part of `prepare_persistent_file` behind the check for two records: a record that is there is used again. -/
def ensureRecord (required : Bool) (maximumBytes : Nat) : FileCall PersistentFilePreparation := do
  let file ← get
  if file.pristineBackup.isSome then pure ⟨.backup, .reused⟩
  else if file.pristineAbsent then pure ⟨.absent, .reused⟩
  else recordPristine required maximumBytes

def preparePersistentFile (required : Bool) (maximumBytes : Nat) : FileCall PersistentFilePreparation := do
  let file ← get
  require (¬(file.pristineBackup.isSome ∧ file.pristineAbsent)) .pristineStateConflict
  let preparation ← ensureRecord required maximumBytes
  removeLegacyTemporary
  let file ← get
  if required ∧ file.live.isNone then
    match preparation.state with
    | .backup => do
      atomicCopy (·.pristineBackup) maximumBytes
      pure { preparation with action := .recoveredRequiredFile }
    | .absent => fail .missingRequiredFile
  else pure preparation

def restorePersistentFile (preparation : PersistentFilePreparation) (maximumBytes : Nat) : FileCall PUnit :=
  match preparation.state with
  | .backup => atomicCopy (·.pristineBackup) maximumBytes
  | .absent => removeLive

/-! ## Records -/

namespace ManagedFile

variable {file next later : ManagedFile}

/-- At most one record. -/
def Consistent (file : ManagedFile) : Prop := ¬(file.pristineBackup.isSome ∧ file.pristineAbsent = true)

/-- There is a record. -/
def HasRecord (file : ManagedFile) : Prop := file.pristineBackup.isSome ∨ file.pristineAbsent = true

/-- The record, and the only one, says that this was the file, or that there was none. -/
def Recorded (file : ManagedFile) (content : Option (List UInt8)) : Prop :=
  file.pristineBackup = content ∧ file.pristineAbsent = content.isNone

instance (file : ManagedFile) : Decidable file.Consistent := inferInstanceAs (Decidable (¬(_ ∧ _)))

/-- What the file was before the connector or the launcher changed it: what is recorded, by the connector or else by the
launcher, and otherwise what is there. -/
def original (file : ManagedFile) : Option (List UInt8) :=
  if file.pristineBackup.isSome then file.pristineBackup
  else if file.pristineAbsent then none
  else if file.legacyBackup.isSome then file.legacyBackup
  else if file.legacyCreated then none
  else file.live

/-- A single record says what the file was. -/
theorem recorded_original (hconsistent : file.Consistent) (hrecord : file.HasRecord) : file.Recorded file.original := by
  rcases file with ⟨live, legacyBackup, legacyCreated, legacyTemporary, _ | backup, absent⟩
  · obtain rfl : absent = true := by simpa [HasRecord] using hrecord
    exact ⟨rfl, rfl⟩
  · obtain rfl : absent = false := by simpa [Consistent] using hconsistent
    exact ⟨rfl, rfl⟩

/-- A file that is recorded to have been something has one record, and was that. -/
theorem Recorded.original_eq {content : Option (List UInt8)} (h : file.Recorded content) :
    file.Consistent ∧ file.HasRecord ∧ file.original = content := by
  obtain ⟨hbackup, habsent⟩ := h
  cases content with
  | none => simp [Consistent, HasRecord, original, hbackup, habsent]
  | some bytes => simp [Consistent, HasRecord, original, hbackup, habsent]

/-- What the file was is kept: no second record, no other record, and none taken away. -/
structure Keeps (file next : ManagedFile) : Prop where
  consistent : next.Consistent
  original : next.original = file.original
  record : file.HasRecord → next.HasRecord

/-- While the file is prepared it is left as it is, or set to what is recorded. -/
structure Prepares (file next : ManagedFile) : Prop extends Keeps file next where
  live : next.live = file.live ∨ next.HasRecord ∧ next.live = next.original

theorem Keeps.refl (h : file.Consistent) : Keeps file file := ⟨h, rfl, id⟩

theorem Keeps.trans (h : Keeps file next) (h' : Keeps next later) : Keeps file later :=
  ⟨h'.consistent, h'.original.trans h.original, h'.record ∘ h.record⟩

/-- A record stays as it is. -/
theorem Keeps.recorded {content : Option (List UInt8)} (h : Keeps file next) (hfile : file.Recorded content) :
    next.Recorded content := by
  obtain ⟨-, hrecord, rfl⟩ := hfile.original_eq
  have hnext := recorded_original h.consistent (h.record hrecord)
  rwa [h.original] at hnext

theorem Prepares.refl (h : file.Consistent) : Prepares file file := ⟨Keeps.refl h, Or.inl rfl⟩

theorem Prepares.trans (h : Prepares file next) (h' : Prepares next later) : Prepares file later := by
  refine ⟨h.toKeeps.trans h'.toKeeps, ?_⟩
  rcases h'.live with hsame | hset
  · rcases h.live with hsame' | ⟨hrecord, hset'⟩
    · exact Or.inl (hsame.trans hsame')
    · exact Or.inr ⟨h'.record hrecord, by rw [hsame, hset', h'.original]⟩
  · exact Or.inr hset

end ManagedFile

end P5136.Connector
