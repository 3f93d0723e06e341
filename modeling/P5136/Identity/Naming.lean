import P5136.Identity.Migration

/-!
# Whose identity is active under a name

Whatever happens to the identities that are active, but a login, an identity stays that of its user: the calls here may change who
owns it, its permit, its generation, or end it, and never which user it stands for.
-/

namespace P5136

namespace IdentityRegistry

/-- Under the name of a user only an identity of the user is active. -/
def Named (r : IdentityRegistry) : Prop :=
  ∀ userNo key active, r.nameByUserNo.lookup userNo = some key → r.activeByName.lookup key = some active →
    active.known.userNo = userNo

/-- The names are the same, and every active identity stands for whom it stood before. -/
structure KeepsNames (r r' : IdentityRegistry) : Prop where
  names : r'.nameByUserNo = r.nameByUserNo
  known : ∀ key active', r'.activeByName.lookup key = some active' →
    ∃ active, r.activeByName.lookup key = some active ∧ active'.known = active.known

variable {r r' : IdentityRegistry}

theorem KeepsNames.refl (r : IdentityRegistry) : KeepsNames r r := ⟨rfl, fun _ active h => ⟨active, h, rfl⟩⟩

theorem KeepsNames.trans {r'' : IdentityRegistry} (h : KeepsNames r r') (h' : KeepsNames r' r'') : KeepsNames r r'' := by
  refine ⟨h'.names.trans h.names, fun key active'' hactive => ?_⟩
  obtain ⟨active', hactive', hknown'⟩ := h'.known key active'' hactive
  obtain ⟨active, hactive, hknown⟩ := h.known key active' hactive'
  exact ⟨active, hactive, hknown'.trans hknown⟩

/-- What keeps the tables keeps the names. -/
theorem KeepsNames.of_eq (hnames : r'.nameByUserNo = r.nameByUserNo) (hactive : r'.activeByName = r.activeByName) :
    KeepsNames r r' := by
  refine ⟨hnames, fun key active h => ⟨active, ?_, rfl⟩⟩
  rw [← hactive]
  exact h

theorem Named.keeps (h : r.Named) (hkeeps : KeepsNames r r') : r'.Named := by
  intro userNo key active' hkey hactive'
  obtain ⟨active, hactive, hknown⟩ := hkeeps.known key active' hactive'
  rw [hkeeps.names] at hkey
  rw [hknown]
  exact h userNo key active hkey hactive

/-! ## Edits of the tables -/

theorem keepsNames_setGate (r : IdentityRegistry) (id : GateId) (g : IdentityOperationGate) : KeepsNames r (r.setGate id g) :=
  .of_eq rfl rfl

/-- An active identity that is changed and still stands for its user. -/
theorem keepsNames_insert {key : String} {active active' : ActiveIdentity} (hactive : r.activeByName.lookup key = some active)
    (hknown : active'.known = active.known) : KeepsNames r { r with activeByName := r.activeByName.insert key active' } := by
  refine ⟨rfl, fun k a ha => ?_⟩
  dsimp only at ha
  rw [FiniteMap.lookup_insert] at ha
  split at ha
  · rename_i heq
    obtain rfl := Option.some.inj ha
    exact ⟨active, heq ▸ hactive, hknown⟩
  · exact ⟨a, ha, rfl⟩

/-- An identity that is not active any more. -/
theorem keepsNames_erase (r : IdentityRegistry) (key : String) :
    KeepsNames r { r with activeByName := r.activeByName.erase key } := by
  refine ⟨rfl, fun k a ha => ?_⟩
  dsimp only at ha
  rw [FiniteMap.lookup_erase] at ha
  split at ha
  · cases ha
  · exact ⟨a, ha, rfl⟩

theorem keepsNames_reopenTransfer (r : IdentityRegistry) (active : ActiveIdentity) :
    KeepsNames r (r.reopenTransfer active).2 := by
  unfold reopenTransfer
  split
  · exact .refl r
  · exact keepsNames_setGate r _ _

theorem activeByName_reopenTransfer (r : IdentityRegistry) (active : ActiveIdentity) :
    (r.reopenTransfer active).2.activeByName = r.activeByName := by
  unfold reopenTransfer
  split
  · rfl
  · rfl

theorem keepsNames_releaseOrDefer (r : IdentityRegistry) (key : String) (active : ActiveIdentity) :
    KeepsNames r (r.releaseOrDefer key active).2 := by
  unfold releaseOrDefer
  split
  · exact .of_eq rfl rfl
  · exact .of_eq rfl rfl

/-! ## Ends of identities -/

theorem keepsNames_disconnect (U : Unicode) (r : IdentityRegistry) (session : SessionId) (now : Instant) :
    KeepsNames r (r.disconnect U session now).2 := by
  unfold disconnect
  split
  · exact .refl r
  · rename_i binding _
    dsimp only
    have hunbound : KeepsNames r { r with sessionBindings := r.sessionBindings.erase session } := .of_eq rfl rfl
    split
    · exact hunbound
    · rename_i active hactive
      split
      · exact hunbound
      · split
        · exact hunbound.trans (keepsNames_insert hactive rfl)
        · have hleft := (hunbound.trans (keepsNames_erase _ (canonicalNicknameKey U binding.nickname))).trans
            (keepsNames_reopenTransfer _ active)
          have hover := hleft.trans (keepsNames_releaseOrDefer _ (canonicalNicknameKey U binding.nickname) active)
          split
          · rename_i heq
            rw [heq] at hover
            exact hover
          · rename_i heq
            rw [heq] at hover
            exact hover

theorem keepsNames_expirePermit (now : Instant) (acc : List String × IdentityRegistry) (key : String) :
    KeepsNames acc.2 (expirePermit now acc key).2 := by
  obtain ⟨keys, r⟩ := acc
  unfold expirePermit
  dsimp only
  split
  · exact .refl r
  · rename_i active hactive
    split
    · refine (keepsNames_reopenTransfer r active).trans ?_
      refine keepsNames_insert (?_ : _ = some active) rfl
      rw [activeByName_reopenTransfer]
      exact hactive
    · exact .refl r

theorem keepsNames_expireKey (acc : List ReleasedIdentity × IdentityRegistry) (key : String) :
    KeepsNames acc.2 (expireKey acc key).2 := by
  obtain ⟨released, r⟩ := acc
  unfold expireKey
  dsimp only
  split
  · exact .refl r
  · rename_i active _
    have hover := (keepsNames_erase r key).trans (keepsNames_releaseOrDefer _ key active)
    split
    · rename_i heq
      rw [heq] at hover
      exact hover
    · rename_i heq
      rw [heq] at hover
      exact hover

/-- A loop over a registry each of whose steps keeps the names. -/
theorem keepsNames_foldl {α β : Type} {step : α × IdentityRegistry → β → α × IdentityRegistry}
    (hstep : ∀ acc b, KeepsNames acc.2 (step acc b).2) (l : List β) (acc : α × IdentityRegistry) :
    KeepsNames acc.2 (l.foldl step acc).2 := by
  induction l generalizing acc with
  | nil => exact .refl acc.2
  | cons b rest ih => exact (hstep acc b).trans (ih (step acc b))

theorem keepsNames_expireMigrations (r : IdentityRegistry) (now : Instant) : KeepsNames r (r.expireMigrations now).2 := by
  unfold expireMigrations
  have hpermits := keepsNames_foldl (keepsNames_expirePermit now) r.activeByName.keys ([], r)
  exact hpermits.trans (keepsNames_foldl keepsNames_expireKey _ ([], _))

theorem keepsNames_collectDeferred (acc : List ReleasedIdentity × IdentityRegistry) (deferred : DeferredRelease) :
    KeepsNames acc.2 (collectDeferred acc deferred).2 := by
  obtain ⟨released, r⟩ := acc
  unfold collectDeferred
  dsimp only
  split
  · exact .of_eq rfl rfl
  · exact .of_eq rfl rfl

theorem keepsNames_collectDrainedReleases (r : IdentityRegistry) : KeepsNames r r.collectDrainedReleases.2 := by
  unfold collectDrainedReleases
  have hcleared : KeepsNames r { r with deferredReleases := [] } := .of_eq rfl rfl
  exact hcleared.trans (keepsNames_foldl keepsNames_collectDeferred _ ([], _))

theorem keepsNames_drainActive (r : IdentityRegistry) : KeepsNames r r.drainActive.2 := by
  have hcleared : ∀ deferred, KeepsNames r { r with sessionBindings := ∅, activeByName := ∅, deferredReleases := deferred } := by
    refine fun deferred => ⟨rfl, ?_⟩
    rintro key active ⟨⟩
  exact (hcleared _).trans (keepsNames_collectDrainedReleases _)

/-! ## Migrations -/

theorem keepsNames_abortPreflightedMigration (r : IdentityRegistry) (preflight : MigrationPreflight) :
    KeepsNames r (r.abortPreflightedMigration preflight).2 := by
  unfold abortPreflightedMigration
  split
  · exact .refl r
  · rename_i active hactive
    split
    · exact .refl r
    · split
      · exact .refl r
      · exact (keepsNames_setGate r _ _).trans (keepsNames_insert hactive rfl)

theorem keepsNames_allocateGeneration (r : IdentityRegistry) : KeepsNames r r.allocateGeneration.2 := by
  unfold allocateGeneration
  split
  · exact .refl r
  · split
    · exact .of_eq rfl rfl
    · exact .of_eq rfl rfl

theorem keepsNames_prepareCandidate (r : IdentityRegistry) (preflight : MigrationPreflight) (now : Instant) (reserved : Bool) :
    KeepsNames r (r.prepareCandidate preflight now reserved).2 := by
  unfold prepareCandidate
  split
  · exact .refl r
  · split
    · exact .refl r
    · have hallocated := keepsNames_allocateGeneration r
      split
      · rename_i heq
        rw [heq] at hallocated
        exact hallocated
      · rename_i heq
        rw [heq] at hallocated
        split
        · exact hallocated
        · exact hallocated.trans (.of_eq rfl rfl)

theorem keepsNames_preparePreflightedMigration (r : IdentityRegistry) (preflight : MigrationPreflight) (now : Instant)
    (reserved : Bool) : KeepsNames r (r.preparePreflightedMigration preflight now reserved).2 := by
  unfold preparePreflightedMigration
  have hprepared := keepsNames_prepareCandidate r preflight now reserved
  split
  · rename_i heq
    rw [heq] at hprepared
    exact hprepared.trans (keepsNames_abortPreflightedMigration _ preflight)
  · rename_i heq
    rw [heq] at hprepared
    exact hprepared

theorem keepsNames_lockPreparedMigration (r : IdentityRegistry) (preflight : MigrationPreflight)
    (candidate : MigrationCandidate) (now : Instant) :
    KeepsNames r (r.lockPreparedMigration preflight candidate now).2 := by
  unfold lockPreparedMigration
  split
  · exact keepsNames_abortPreflightedMigration r preflight
  · split
    · exact keepsNames_abortPreflightedMigration r preflight
    · split
      · exact .refl r
      · exact .refl r

theorem keepsNames_commitMigration (r : IdentityRegistry) (guard : IdentityMigrationCommit) (activatedUdpEpoch : Nat) :
    KeepsNames r (r.commitMigration guard activatedUdpEpoch).2 := by
  unfold commitMigration
  dsimp only
  split
  · exact .of_eq rfl rfl
  · split
    · exact .of_eq rfl rfl
    · rename_i active hactive
      have hpublished : KeepsNames r { r with
          activeByName := r.activeByName.insert guard.active { active with
            generation := guard.completion.binding.generation
            owner := some guard.destinationSession
            ownerIp := guard.completion.binding.sourceIp
            channel := some guard.channel
            permit := none
            transferInProgress := none
            operationGate := guard.nextOperationGate } } :=
        keepsNames_insert hactive rfl
      split
      · exact hpublished.trans (.of_eq rfl rfl)
      · exact hpublished.trans (.of_eq rfl rfl)

end IdentityRegistry

end P5136
