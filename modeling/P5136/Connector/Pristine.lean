import P5136.Connector.FileSafety

/-!
# Preparing keeps what a file was

Wherever the preparation of a managed file stops or fails, at most one record of it is there, and it says what the file was; the
file is left as it is, or set to that. A preparation that returns leaves a record.
-/

namespace P5136.Connector

open Interruptible Checks

namespace ManagedFile

variable {file next : ManagedFile}

/-- With a record, nothing but the record says what the file was. -/
theorem Keeps.of_record (hconsistent : file.Consistent) (hrecord : file.HasRecord)
    (hbackup : next.pristineBackup = file.pristineBackup) (habsent : next.pristineAbsent = file.pristineAbsent) :
    Keeps file next := by
  refine ⟨?_, ?_, fun _ => ?_⟩
  · unfold Consistent
    rwa [hbackup, habsent]
  · unfold HasRecord at hrecord
    unfold ManagedFile.original
    rw [hbackup, habsent]
    by_cases hsome : file.pristineBackup.isSome = true
    · rw [if_pos hsome, if_pos hsome]
    · rw [if_neg hsome, if_neg hsome, if_pos (hrecord.resolve_left hsome), if_pos (hrecord.resolve_left hsome)]
  · unfold HasRecord
    rwa [hbackup, habsent]

/-- With a record, the file may be set to what is recorded. -/
theorem Prepares.of_record (hconsistent : file.Consistent) (hrecord : file.HasRecord)
    (hbackup : next.pristineBackup = file.pristineBackup) (habsent : next.pristineAbsent = file.pristineAbsent)
    (hlive : next.live = file.live ∨ next.live = file.original) : Prepares file next := by
  have hkeeps := Keeps.of_record hconsistent hrecord hbackup habsent
  refine ⟨hkeeps, ?_⟩
  rcases hlive with hlive | hlive
  · exact Or.inl hlive
  · exact Or.inr ⟨hkeeps.record hrecord, by rw [hlive, hkeeps.original]⟩

/-- A backup of what the file was. -/
theorem Prepares.backup {bytes : List UInt8} (hnone : ¬file.HasRecord)
    (horiginal : file.original = some bytes) :
    Prepares file { file with pristineBackup := file.pristineBackup.or (some bytes) } := by
  simp only [HasRecord, not_or, Bool.not_eq_true, Option.isSome_eq_false_iff, Option.isNone_iff_eq_none] at hnone
  obtain ⟨hbackup, habsent⟩ := hnone
  refine ⟨⟨?_, ?_, fun _ => Or.inl ?_⟩, Or.inl rfl⟩
  · simp [Consistent, habsent]
  · rw [horiginal]
    simp [original, hbackup]
  · simp [hbackup]

/-- A marker that there was no file. -/
theorem Prepares.marked (hnone : ¬file.HasRecord) (horiginal : file.original = none) :
    Prepares file { file with pristineAbsent := true } := by
  simp only [HasRecord, not_or, Bool.not_eq_true, Option.isSome_eq_false_iff, Option.isNone_iff_eq_none] at hnone
  obtain ⟨hbackup, habsent⟩ := hnone
  refine ⟨⟨?_, ?_, fun _ => Or.inr rfl⟩, Or.inl rfl⟩
  · simp [Consistent, hbackup]
  · rw [horiginal]
    simp [original, hbackup]

end ManagedFile

open ManagedFile

/-- A call while a file is prepared: wherever it stops or fails, what the file was is kept, and the file is left as it is or set
to that. Two records are not met. -/
def Preparing {α : Type} (file : ManagedFile) (P : ManagedFile → Prop) (c : FileCall α) (Q : α → ManagedFile → Prop) : Prop :=
  Meets (Prepares file) (fun e s => Prepares file s ∧ e ≠ .pristineStateConflict) P c Q

section Calls

variable {file : ManagedFile} {P : ManagedFile → Prop} {Q : PUnit → ManagedFile → Prop}

/-- Reading a file within a limit does not meet two records. -/
theorem ne_conflict_of_readBounded_error {content : Option (List UInt8)} {operation : String} {maximumBytes : Nat}
    {length : List UInt8 → Nat} {e : ConnectorFileError}
    (h : (do
      let bytes ← orElse content (.io operation)
      enforceFileLimit (length bytes) maximumBytes
      pure bytes) = Except.error e) : e ≠ .pristineStateConflict := by
  rcases bind_eq_error.1 h with h | ⟨bytes, -, h⟩
  · obtain ⟨-, rfl⟩ := orElse_eq_error.1 h
    simp
  · rcases bind_eq_error.1 h with h | ⟨_, -, h⟩
    · obtain ⟨-, rfl⟩ := ensure_eq_error.1 h
      simp
    · cases h

/-- What is read of a source is all of it. -/
theorem preparing_readSource {source : ManagedFile → Option (List UInt8)} {operation : String} {maximumBytes : Nat}
    {length : List UInt8 → Nat} (hP : ∀ s, P s → Prepares file s) :
    Preparing file P
      (reads fun file => do
        let bytes ← orElse (source file) (.io operation)
        enforceFileLimit (length bytes) maximumBytes
        pure bytes)
      (fun bytes s => P s ∧ source s = some bytes) := by
  refine meets_reads (fun s bytes hs h => ?_) (fun s e hs h => ⟨hP s hs, ?_⟩)
  · simp only [bind_eq_ok, orElse_eq_ok] at h
    obtain ⟨bytes', hsource, _, -, heq⟩ := h
    cases heq
    exact ⟨hs, hsource⟩
  · exact ne_conflict_of_readBounded_error h

theorem preparing_createBackupOnce {source : ManagedFile → Option (List UInt8)} {maximumBytes : Nat}
    (hP : ∀ s, P s → Prepares file s)
    (hQ : ∀ s bytes, P s → source s = some bytes → Q ⟨⟩ { s with pristineBackup := s.pristineBackup.or (some bytes) }) :
    Preparing file P (createBackupOnce source maximumBytes) Q := by
  refine (preparing_readSource hP).bind fun bytes => meets_atomically ?_
  rintro s ⟨hs, hsource⟩
  exact ⟨hP s hs, hQ s bytes hs hsource⟩

theorem preparing_atomicCopy {source : ManagedFile → Option (List UInt8)} {maximumBytes : Nat}
    (hP : ∀ s, P s → Prepares file s)
    (hQ : ∀ s bytes, P s → source s = some bytes → Q ⟨⟩ { s with live := some bytes }) :
    Preparing file P (atomicCopy source maximumBytes) Q := by
  refine (preparing_readSource hP).bind fun bytes => meets_atomically ?_
  rintro s ⟨hs, hsource⟩
  exact ⟨hP s hs, hQ s bytes hs hsource⟩

/-- The file is recorded, by this kind of record. -/
def Prepared (file : ManagedFile) (state : PristineState) (s : ManagedFile) : Prop :=
  Prepares file s ∧ s.HasRecord ∧ (state = .backup ↔ s.pristineBackup.isSome = true)

/-- A recorded file stays recorded when its record does, and it is left as it is or set to what is recorded. -/
theorem Prepared.of_record {state : PristineState} {s next : ManagedFile} (h : Prepared file state s)
    (hbackup : next.pristineBackup = s.pristineBackup) (habsent : next.pristineAbsent = s.pristineAbsent)
    (hlive : next.live = s.live ∨ next.live = s.original) : Prepared file state next := by
  obtain ⟨hprepares, hrecord, hstate⟩ := h
  have hnext := Prepares.of_record hprepares.consistent hrecord hbackup habsent hlive
  exact ⟨hprepares.trans hnext, hnext.record hrecord, by rw [hstate, hbackup]⟩

/-- A copy of what is recorded to the file. -/
theorem preparing_atomicCopy_of_record {state : PristineState} {source : ManagedFile → Option (List UInt8)}
    {maximumBytes : Nat} (hsource : ∀ s, P s → Prepared file state s ∧ source s = s.original) :
    Preparing file P (atomicCopy source maximumBytes)
      (fun _ s => Prepared file state s ∧ s.live.isSome ∧ s.live = s.original) := by
  refine preparing_atomicCopy (fun s hs => (hsource s hs).1.1) (fun s bytes hs hbytes => ?_)
  obtain ⟨hprepared, heq⟩ := hsource s hs
  have hlive : some bytes = s.original := by rw [← heq, hbytes]
  have hnext : Prepared file state { s with live := some bytes } := hprepared.of_record rfl rfl (Or.inr hlive)
  have hsame : Prepares s { s with live := some bytes } :=
    Prepares.of_record hprepared.1.consistent hprepared.2.1 rfl rfl (Or.inr hlive)
  exact ⟨hnext, rfl, by rw [hsame.original, ← hlive]⟩

/-- An operation on a recorded file that leaves the record and the file. -/
theorem preparing_aside {state : PristineState} {f : ManagedFile → ManagedFile}
    (hf : ∀ s, (f s).pristineBackup = s.pristineBackup ∧ (f s).pristineAbsent = s.pristineAbsent ∧ (f s).live = s.live) :
    Preparing file (Prepared file state) (atomically f) (fun _ => Prepared file state) := by
  refine meets_atomically fun s hs => ⟨hs.1, ?_⟩
  obtain ⟨hbackup, habsent, hlive⟩ := hf s
  exact hs.of_record hbackup habsent (Or.inl hlive)

theorem preparing_removeLegacyBackup {state : PristineState} :
    Preparing file (Prepared file state) removeLegacyBackup (fun _ => Prepared file state) :=
  preparing_aside fun _ => ⟨rfl, rfl, rfl⟩

theorem preparing_removeLegacyCreated {state : PristineState} :
    Preparing file (Prepared file state) removeLegacyCreated (fun _ => Prepared file state) :=
  preparing_aside fun _ => ⟨rfl, rfl, rfl⟩

theorem preparing_removeLegacyTemporary {state : PristineState} :
    Preparing file (Prepared file state) removeLegacyTemporary (fun _ => Prepared file state) :=
  preparing_aside fun _ => ⟨rfl, rfl, rfl⟩

/-- A backup of a file without a record. -/
theorem preparing_firstBackup {source : ManagedFile → Option (List UInt8)} {maximumBytes : Nat}
    (hconsistent : file.Consistent) (hnone : ¬file.HasRecord) (hsource : source file = file.original) :
    Preparing file (· = file) (createBackupOnce source maximumBytes)
      (fun _ s => Prepared file .backup s ∧ s.legacyBackup = file.legacyBackup ∧ s.original = file.original) := by
  refine preparing_createBackupOnce ?_ ?_
  · rintro s rfl
    exact Prepares.refl hconsistent
  · rintro s bytes rfl hbytes
    have hprepares := Prepares.backup hnone (hsource.symm.trans hbytes)
    have hsome : (s.pristineBackup.or (some bytes)).isSome = true := by cases s.pristineBackup <;> rfl
    exact ⟨⟨hprepares, Or.inl hsome, by simp⟩, rfl, hprepares.original⟩

/-- A marker for a file without a record. -/
theorem preparing_firstMarker (hconsistent : file.Consistent) (hnone : ¬file.HasRecord) (horiginal : file.original = none) :
    Preparing file (· = file) createAbsentMarkerOnce (fun _ => Prepared file .absent) := by
  refine meets_atomically ?_
  rintro s rfl
  have hprepares := Prepares.marked hnone horiginal
  have hno : s.pristineBackup.isSome = false := Bool.eq_false_iff.2 fun hsome => hnone (Or.inl hsome)
  exact ⟨Prepares.refl hconsistent, hprepares, Or.inr rfl, by simp [hno]⟩

/-- A file without a record gets one of what it was. -/
theorem preparing_recordPristine {required : Bool} {maximumBytes : Nat} (hconsistent : file.Consistent)
    (hnone : ¬file.HasRecord) :
    Preparing file (· = file) (recordPristine required maximumBytes)
      (fun preparation s => Prepared file preparation.state s) := by
  have hunrecorded := hnone
  simp only [HasRecord, not_or, Bool.not_eq_true, Option.isSome_eq_false_iff, Option.isNone_iff_eq_none] at hunrecorded
  obtain ⟨hbackup, habsent⟩ := hunrecorded
  have horiginal : file.original = if file.legacyBackup.isSome then file.legacyBackup
      else if file.legacyCreated then none else file.live := by
    simp [original, hbackup, habsent]
  unfold recordPristine
  refine meets_getThen ?_
  split
  · rename_i hlegacy
    rw [if_pos hlegacy] at horiginal
    refine (preparing_firstBackup hconsistent hnone horiginal.symm).bind fun _ => ?_
    have hcopy : ∀ s, Prepared file .backup s ∧ s.legacyBackup = file.legacyBackup ∧ s.original = file.original →
        Prepared file .backup s ∧ s.legacyBackup = s.original := by
      rintro s ⟨hprepared, hsame, heq⟩
      exact ⟨hprepared, by rw [hsame, heq, horiginal]⟩
    refine (preparing_atomicCopy_of_record hcopy).bind fun _ => ?_
    refine (preparing_removeLegacyBackup.weaken (fun _ h => h.1) (fun _ _ h => h)).bind fun _ => ?_
    refine preparing_removeLegacyCreated.bind fun _ => ?_
    exact meets_pure fun _ h => h
  · rename_i hlegacy
    rw [if_neg hlegacy] at horiginal
    split
    · rename_i hcreated
      rw [if_pos hcreated] at horiginal
      refine (meets_require ?_).bind fun _ => ?_
      · rintro s rfl -
        exact ⟨Prepares.refl hconsistent, by simp⟩
      refine ((preparing_firstMarker hconsistent hnone horiginal).weaken (fun _ h => h.1) (fun _ _ h => h)).bind fun _ => ?_
      refine preparing_removeLegacyCreated.bind fun _ => ?_
      exact meets_pure fun _ h => h
    · rename_i hcreated
      rw [if_neg hcreated] at horiginal
      split
      · refine (preparing_firstBackup hconsistent hnone horiginal.symm).bind fun _ => ?_
        exact meets_pure fun _ h => h.1
      · rename_i hlive
        have hmissing : file.original = none := by simpa [horiginal] using hlive
        refine (meets_require ?_).bind fun _ => ?_
        · rintro s rfl -
          exact ⟨Prepares.refl hconsistent, by simp⟩
        refine ((preparing_firstMarker hconsistent hnone hmissing).weaken (fun _ h => h.1) (fun _ _ h => h)).bind fun _ => ?_
        exact meets_pure fun _ h => h

/-- A file is recorded: as it was before, or by a new record. -/
theorem preparing_ensureRecord {required : Bool} {maximumBytes : Nat} (hconsistent : file.Consistent) :
    Preparing file (· = file) (ensureRecord required maximumBytes) (fun preparation s => Prepared file preparation.state s) := by
  unfold ensureRecord
  refine meets_getThen ?_
  split
  · rename_i hbackup
    refine meets_pure ?_
    rintro s rfl
    exact ⟨Prepares.refl hconsistent, Or.inl hbackup, by simp [hbackup]⟩
  · rename_i hbackup
    split
    · rename_i habsent
      refine meets_pure ?_
      rintro s rfl
      exact ⟨Prepares.refl hconsistent, Or.inr habsent, by simp [hbackup]⟩
    · rename_i habsent
      exact preparing_recordPristine hconsistent (by simp [HasRecord, hbackup, habsent])

/-- `prepare_persistent_file` keeps what the file was, wherever it stops or fails, and ends with a record of it and, for a file
that is required, with a file. -/
theorem preparing_preparePersistentFile {required : Bool} {maximumBytes : Nat} (hconsistent : file.Consistent) :
    Preparing file (· = file) (preparePersistentFile required maximumBytes)
      (fun preparation s => Prepared file preparation.state s ∧ (required = true → s.live.isSome)) := by
  unfold preparePersistentFile
  refine meets_getThen ?_
  refine (meets_require ?_).bind fun _ => ?_
  · rintro s rfl hboth
    exact absurd hconsistent hboth
  refine ((preparing_ensureRecord hconsistent).weaken (fun _ h => h.1) (fun _ _ h => h)).bind fun preparation => ?_
  refine preparing_removeLegacyTemporary.bind fun _ => Meets.of_forall fun s hs => ?_
  refine meets_getThen ?_
  split
  · split
    · rename_i hstate
      have hbackup : s.pristineBackup.isSome = true := hs.2.2.1 hstate
      have hsource : ∀ t, t = s → Prepared file preparation.state t ∧ t.pristineBackup = t.original := by
        rintro t rfl
        exact ⟨hs, by rw [original, if_pos hbackup]⟩
      refine (preparing_atomicCopy_of_record hsource).bind fun _ => meets_pure ?_
      rintro t ⟨ht, hlive, -⟩
      exact ⟨ht, fun _ => hlive⟩
    · refine meets_fail ?_
      rintro t rfl
      exact ⟨hs.1, by simp⟩
  · rename_i hlive
    refine meets_pure ?_
    rintro t rfl
    refine ⟨hs, fun hrequired => ?_⟩
    rw [← Option.not_isNone, Bool.not_eq_true']
    exact Bool.not_eq_true _ ▸ fun hnone => hlive ⟨hrequired, hnone⟩

/-- `restore_persistent_file` sets a recorded file to what is recorded. -/
theorem preparing_restorePersistentFile {preparation : PersistentFilePreparation} {maximumBytes : Nat} :
    Preparing file (Prepared file preparation.state) (restorePersistentFile preparation maximumBytes)
      (fun _ s => Prepared file preparation.state s ∧ s.live = s.original) := by
  unfold restorePersistentFile
  split
  · rename_i hstate
    have hsource : ∀ s, Prepared file preparation.state s → Prepared file preparation.state s ∧ s.pristineBackup = s.original := by
      intro s hs
      exact ⟨hs, by rw [original, if_pos (hs.2.2.1 hstate)]⟩
    exact (preparing_atomicCopy_of_record hsource).weaken (fun _ h => h) (fun _ _ h => ⟨h.1, h.2.2⟩)
  · rename_i hstate
    refine meets_atomically fun s hs => ⟨hs.1, ?_⟩
    have hbackup : ¬s.pristineBackup.isSome = true := by
      rw [← hs.2.2, hstate]
      simp
    have hnone : s.original = none := by rw [original, if_neg hbackup, if_pos (hs.2.1.resolve_left hbackup)]
    have hnext : Prepares s { s with live := none } :=
      Prepares.of_record hs.1.consistent hs.2.1 rfl rfl (Or.inr hnone.symm)
    exact ⟨hs.of_record rfl rfl (Or.inr hnone.symm), by rw [hnext.original, hnone]⟩

end Calls

end P5136.Connector
