import P5136.Identity.Permits

/-!
# Where active identities come from

A step leaves an active identity with the generation that one had under its nickname, or with the generation that a completed
migration moved it to; only a claim makes an identity active that was not.
-/

namespace P5136

open IdentityRegistry IdentitySystem

namespace IdentityRegistry

/-- A change of the registry that makes nothing active: every active identity has the generation that the one of its nickname had,
or the one that a completion moved it to. -/
def Carries (moves : List MigrationCompletion) (r r' : IdentityRegistry) : Prop :=
  ∀ k a', r'.activeByName.lookup k = some a' → ∃ a, r.activeByName.lookup k = some a ∧
    (a'.generation = a.generation ∨
      ∃ m ∈ moves, m.previousBinding.generation = a.generation ∧ a'.generation = m.binding.generation)

variable {moves : List MigrationCompletion} {r r' r₁ r₂ : IdentityRegistry}

/-- The active identities are the same. -/
theorem carries_of_active (h : r'.activeByName = r.activeByName) : Carries moves r r' := by
  intro k a' ha'
  rw [h] at ha'
  exact ⟨a', ha', .inl rfl⟩

/-- An active identity has changed, but not its generation. -/
theorem carries_insert {key : String} {a b : ActiveIdentity} (ha : r.activeByName.lookup key = some a)
    (h : r'.activeByName = r.activeByName.insert key b) (hgeneration : b.generation = a.generation) : Carries moves r r' := by
  intro k a' ha'
  rw [h, FiniteMap.lookup_insert] at ha'
  split at ha'
  · rename_i heq
    subst heq
    cases ha'
    exact ⟨a, ha, .inl hgeneration⟩
  · exact ⟨a', ha', .inl rfl⟩

/-- An identity is active no more. -/
theorem carries_erase {key : String} (h : r'.activeByName = r.activeByName.erase key) : Carries moves r r' := by
  intro k a' ha'
  rw [h, FiniteMap.lookup_erase] at ha'
  split at ha'
  · cases ha'
  · exact ⟨a', ha', .inl rfl⟩

/-- Changes follow each other, the first of them without a completion. -/
theorem Carries.trans (h : Carries [] r r₁) (h' : Carries moves r₁ r₂) : Carries moves r r₂ := by
  intro k a₂ ha₂
  obtain ⟨a₁, ha₁, hmove⟩ := h' k a₂ ha₂
  obtain ⟨a, ha, hgeneration | ⟨m, hm, -⟩⟩ := h k a₁ ha₁
  · rw [hgeneration] at hmove
    exact ⟨a, ha, hmove⟩
  · cases hm

/-! ## What each call carries -/

/-- Making a nickname known. -/
theorem ensureKnownUserNo_active (U : Unicode) (r : IdentityRegistry) (requested : String) :
    (r.ensureKnownUserNo U requested).2.activeByName = r.activeByName := by
  have hallocate : (r.allocateUserNo).2.activeByName = r.activeByName := by
    unfold allocateUserNo
    split
    · rfl
    · split <;> rfl
  unfold ensureKnownUserNo
  split
  · rfl
  · simp only
    split
    · rfl
    · split <;> rename_i heq <;> rw [heq] at hallocate <;> exact hallocate

/-- A claim leaves the active identities, or makes one active under the key of the normalized nickname. -/
theorem claimAt_active (U : Unicode) (r : IdentityRegistry) (session : SessionId) (sourceIp : IpAddr) (requested : String)
    (epoch : Nat) : (r.claimAt U session sourceIp requested epoch).2.activeByName = r.activeByName ∨
      ∃ nickname b a, (r.claimAt U session sourceIp requested epoch).1 = .ok b ∧ normalizeNickname U requested = .ok nickname ∧
        (r.claimAt U session sourceIp requested epoch).2.activeByName =
          r.activeByName.insert (canonicalNicknameKey U nickname) a ∧ a.generation = b.generation := by
  unfold claimAt
  split
  · exact .inl rfl
  split
  · exact .inl rfl
  rename_i nickname hnickname
  split
  · exact .inl rfl
  simp only
  split
  · exact .inl rfl
  split
  · exact .inl rfl
  have hknown := ensureKnownUserNo_active U r nickname
  split
  · rename_i heq
    rw [heq] at hknown
    exact .inl hknown
  rename_i userNo r₁ heq
  rw [heq] at hknown
  split
  · exact .inl hknown
  split
  · exact .inl hknown
  have hallocate : (r₁.allocateGeneration).2.activeByName = r₁.activeByName := by
    unfold allocateGeneration
    split
    · rfl
    · split <;> rfl
  split
  · rename_i heq'
    rw [heq'] at hallocate
    exact .inl (hallocate.trans hknown)
  · rename_i heq'
    rw [heq'] at hallocate
    exact .inr ⟨nickname, _, _, rfl, hnickname, congrArg (AList.insert _ _) (hallocate.trans hknown), rfl⟩

/-- An admission. -/
theorem carries_admits {x : Except IdentityError IdentityOperationLease × IdentityRegistry} (hx : r.Admits x) :
    Carries moves r x.2 := by
  rcases hx with ⟨e, rfl⟩ | ⟨key, a, s, -, -, -, rfl⟩ <;> exact carries_of_active rfl

/-- A preflight. -/
theorem carries_preflight {U : Unicode} (h : r.WellFormed U) (d : SessionId) (ip : IpAddr) (u : UserNo) (ch : UInt16)
    (tok : MigrationToken) (now : Instant) : Carries moves r (r.preflightMigration d ip u ch tok now).2 := by
  rcases preflightMigration_cases h d ip u ch tok now with ⟨e, he⟩ | ⟨key, a, p, hv, -, -, he⟩
  · rw [he]
    exact carries_of_active rfl
  · rw [he]
    exact carries_insert hv.active rfl rfl

/-- An abort. -/
theorem carries_abort (r : IdentityRegistry) (t : MigrationPreflight) : Carries moves r (r.abortPreflightedMigration t).2 := by
  rcases r.abortPreflightedMigration_cases t with h | ⟨a, ha, -, h⟩
  · rw [h]
    exact carries_of_active rfl
  · rw [h]
    exact carries_insert ha rfl rfl

/-- A preparation. -/
theorem carries_prepare {U : Unicode} (h : r.WellFormed U) (t : MigrationPreflight) (now : Instant) (reserved : Bool) :
    Carries moves r (r.preparePreflightedMigration t now reserved).2 := by
  rcases preparePreflightedMigration_cases h t now reserved with ⟨e, g, he⟩ | ⟨a, p, -, he⟩
  · rw [he]
    exact (carries_of_active rfl : Carries [] r { r with nextGeneration := r.nextGeneration + g }).trans (carries_abort _ t)
  · rw [he]
    exact carries_of_active rfl

/-- A lock. -/
theorem carries_lock (r : IdentityRegistry) (t : MigrationPreflight) (c : MigrationCandidate) (now : Instant) :
    Carries moves r (r.lockPreparedMigration t c now).2 := by
  rcases lockPreparedMigration_cases r t c now with ⟨e, he⟩ | ⟨a, p, -, -, he⟩
  · rw [he]
    exact carries_abort r t
  · rw [he]
    exact carries_of_active rfl

/-- A commit of a held capability. -/
theorem carries_commit {U : Unicode} {s : IdentitySystem} (h : Custody U s) {g : IdentityMigrationCommit}
    (hg : s.commit = some g) (epoch : Nat) :
    Carries (okList (s.registry.commitMigration g epoch).1) s.registry (s.registry.commitMigration g epoch).2 := by
  obtain ⟨⟨a, hl⟩, -⟩ := h.guard g hg
  rw [commitMigration_of_locked h.registry hl epoch]
  intro k a' ha'
  simp only [published, FiniteMap.lookup_insert] at ha'
  split at ha'
  · rename_i heq
    subst heq
    cases ha'
    exact ⟨a, hl.active, .inr ⟨g.completion, List.mem_cons_self, hl.previous, rfl⟩⟩
  · exact ⟨a', ha', .inl rfl⟩

/-- A ticket consumed at once. -/
theorem carries_completePreflighted {U : Unicode} {s : IdentitySystem} (h : Custody U s) (hc : s.commit = none)
    (t : MigrationPreflight) (now : Instant) (reserved : Bool) (epoch : Nat) :
    Carries (okList (s.registry.completePreflightedMigrationAtUdpEpoch t now reserved epoch).1) s.registry
      (s.registry.completePreflightedMigrationAtUdpEpoch t now reserved epoch).2 := by
  have hprep := StepsAux.sound_prepare h hc t now reserved
  have hin : ∀ moves, Carries moves s.registry (s.registry.preparePreflightedMigration t now reserved).2 :=
    fun _ => carries_prepare h.registry t now reserved
  unfold completePreflightedMigrationAtUdpEpoch
  generalize s.registry.preparePreflightedMigration t now reserved = x at hprep hin
  obtain ⟨res, r₁⟩ := x
  cases res with
  | error er => exact hin _
  | ok c =>
    simp only [okList] at hprep hin ⊢
    have hlock := StepsAux.sound_lock hprep.custody hc t s.candidates [] c now rfl
    have hin₁ : ∀ moves, Carries moves s.registry (r₁.lockPreparedMigration t c now).2 :=
      fun _ => (hin []).trans (carries_lock r₁ t c now)
    simp only at hlock
    generalize r₁.lockPreparedMigration t c now = y at hlock hin₁
    obtain ⟨res, r₂⟩ := y
    cases res with
    | error er => exact hin₁ _
    | ok g => exact (hin₁ []).trans (carries_commit hlock.custody rfl epoch)

/-- A migration completed at once. -/
theorem carries_complete {U : Unicode} {s : IdentitySystem} (h : Custody U s) (hc : s.commit = none) (d : SessionId) (ip : IpAddr)
    (u : UserNo) (ch : UInt16) (tok : MigrationToken) (now : Instant) (reserved : Bool) :
    Carries (okList (s.registry.completeMigration d ip u ch tok now reserved).1) s.registry
      (s.registry.completeMigration d ip u ch tok now reserved).2 := by
  have hpre := StepsAux.sound_preflight h hc d ip u ch tok now
  have hin : ∀ moves, Carries moves s.registry (s.registry.preflightMigration d ip u ch tok now).2 :=
    fun _ => carries_preflight h.registry d ip u ch tok now
  unfold completeMigration
  generalize s.registry.preflightMigration d ip u ch tok now = x at hpre hin
  obtain ⟨res, r₁⟩ := x
  cases res with
  | error er => exact hin _
  | ok t => exact (hin []).trans (carries_completePreflighted hpre.custody hc t now reserved 0)

/-- Reopening a transfer leaves the active identities. -/
theorem reopenTransfer_active (r : IdentityRegistry) (a : ActiveIdentity) :
    (r.reopenTransfer a).2.activeByName = r.activeByName := by
  unfold reopenTransfer
  split <;> rfl

/-- A disconnect. -/
theorem carries_disconnect (U : Unicode) (r : IdentityRegistry) (session : SessionId) (now : Instant) :
    Carries moves r (r.disconnect U session now).2 := by
  unfold disconnect
  split
  · exact carries_of_active rfl
  rename_i binding hbinding
  simp only
  split
  · exact carries_of_active rfl
  rename_i active hactive
  split
  · exact carries_of_active rfl
  split
  · exact carries_insert hactive rfl rfl
  have herased := (releaseOrDefer_active (({ r with
    sessionBindings := r.sessionBindings.erase session
    activeByName := r.activeByName.erase (canonicalNicknameKey U binding.nickname) } : IdentityRegistry).reopenTransfer active).2
      (canonicalNicknameKey U binding.nickname) active).trans (reopenTransfer_active _ active)
  split <;> rename_i heq <;> rw [heq] at herased <;> exact carries_erase herased

/-- The first loop of an expiry. -/
theorem carries_expirePermits (now : Instant) (keys : List String) (acc : List String × IdentityRegistry) :
    Carries moves acc.2 (keys.foldl (expirePermit now) acc).2 := by
  induction keys generalizing acc with
  | nil => exact carries_of_active rfl
  | cons key keys ih =>
    suffices hfirst : Carries [] acc.2 (expirePermit now acc key).2 from hfirst.trans (ih _)
    obtain ⟨releaseKeys, r⟩ := acc
    unfold expirePermit
    simp only
    split
    · exact carries_of_active rfl
    · rename_i active hactive
      split
      · refine carries_insert hactive (congrArg (AList.insert key _) (reopenTransfer_active r active)) rfl
      · exact carries_of_active rfl

/-- The second loop of an expiry. -/
theorem carries_expireKeys (keys : List String) (acc : List ReleasedIdentity × IdentityRegistry) :
    Carries moves acc.2 (keys.foldl expireKey acc).2 := by
  induction keys generalizing acc with
  | nil => exact carries_of_active rfl
  | cons key keys ih =>
    suffices hfirst : Carries [] acc.2 (expireKey acc key).2 from hfirst.trans (ih _)
    obtain ⟨released, r⟩ := acc
    unfold expireKey
    simp only
    split
    · exact carries_of_active rfl
    · rename_i active hactive
      have herased := releaseOrDefer_active { r with activeByName := r.activeByName.erase key } key active
      split <;> rename_i heq <;> rw [heq] at herased <;> exact carries_erase herased

/-- An expiry. -/
theorem carries_expire (r : IdentityRegistry) (now : Instant) : Carries moves r (r.expireMigrations now).2 :=
  (carries_expirePermits now r.activeByName.keys ([], r) : Carries [] r _).trans (carries_expireKeys _ ([], _))

/-- A collection of drained releases. -/
theorem collectDrainedReleases_active (r : IdentityRegistry) : r.collectDrainedReleases.2.activeByName = r.activeByName := by
  have hloop : ∀ (pending : List DeferredRelease) (acc : List ReleasedIdentity × IdentityRegistry),
      (pending.foldl collectDeferred acc).2.activeByName = acc.2.activeByName := by
    intro pending
    induction pending with
    | nil => exact fun _ => rfl
    | cons deferred pending ih =>
      intro acc
      rw [List.foldl_cons, ih]
      unfold collectDeferred
      simp only
      split <;> rfl
  exact hloop r.deferredReleases ([], { r with deferredReleases := [] })

/-- A drain leaves no active identity. -/
theorem carries_drain (r : IdentityRegistry) : Carries moves r r.drainActive.2 := by
  intro k a ha
  have hempty : r.drainActive.2.activeByName = ∅ := collectDrainedReleases_active _
  rw [hempty, AList.lookup_empty] at ha
  cases ha

end IdentityRegistry

namespace IdentitySystem

/-- Every step but a claim carries the active identities. -/
theorem Step.carries {U : Unicode} {s s' : IdentitySystem} {e : IdentityEvent} (h : Custody U s) (hs : Step U s e s')
    (he : ∀ session ip nickname epoch result, e ≠ .claim session ip nickname epoch result) :
    Carries e.completed s.registry s'.registry := by
  cases hs with
  | ensureKnown nickname _ => exact carries_of_active (ensureKnownUserNo_active U _ nickname)
  | claim => exact absurd rfl (he _ _ _ _ _)
  | admission session _ => exact carries_admits (admitOperation_cases h.registry session)
  | admitUdp u epoch _ => exact carries_admits (s.registry.admitUdpOperation_cases u epoch)
  | beginMigration session channel token now _ =>
    rcases beginMigration_cases h.registry session channel token now with ⟨er, hb⟩ | ⟨key, a, t, ha, -, -, -, hb⟩
    · rw [hb]
      exact carries_of_active rfl
    · rw [hb]
      exact carries_insert ha rfl rfl
  | preflight d ip u ch tok now _ => exact carries_preflight h.registry d ip u ch tok now
  | prepare t now reserved _ _ => exact carries_prepare h.registry t now reserved
  | lock t pre post c now _ _ _ => exact carries_lock _ t c now
  | commit g epoch hg => exact carries_commit h hg epoch
  | dropCommit g hg =>
    obtain ⟨⟨a, hl⟩, -⟩ := h.guard g hg
    rw [dropCommit_of_locked h.registry hl]
    exact carries_insert hl.active rfl rfl
  | abort t _ _ => exact carries_abort _ t
  | complete d ip u ch tok now reserved hc => exact carries_complete h hc d ip u ch tok now reserved
  | completePreflighted t now reserved epoch hc _ => exact carries_completePreflighted h hc t now reserved epoch
  | disconnect session now _ => exact carries_disconnect U _ session now
  | expire now _ => exact carries_expire _ now
  | collect _ => exact carries_of_active (collectDrainedReleases_active _)
  | drain _ => exact carries_drain _
  | _ => exact carries_of_active rfl

end IdentitySystem

end P5136
