import P5136.Identity.Transfers

/-!
# What a completed migration found

Whether a migration is completed at once, from its ticket or through a held lock: the credentials it presented are those of
the permit that was current at its last validation, and the generation it replaces is the one the permit is for.
-/

namespace P5136

/-- What a session presents to move an identity to itself. -/
structure MigrationCredentials where
  destination : SessionId
  destinationIp : IpAddr
  userNo : UserNo
  channelId : UInt16
  token : MigrationToken
deriving DecidableEq

/-- The credentials that a ticket was minted for. -/
def MigrationPreflight.credentials (t : MigrationPreflight) : MigrationCredentials where
  destination := t.destinationSession
  destinationIp := t.destinationIp
  userNo := t.userNo
  channelId := t.channelId
  token := t.token

namespace IdentityRegistry

/-- A completion for these credentials: the identity and the permit that its last validation found, and what it moved. -/
structure Completed (r : IdentityRegistry) (cred : MigrationCredentials) (now : Instant) (key : String) (a : ActiveIdentity)
    (p : MigrationPermit) (m : MigrationCompletion) : Prop where
  validated : r.Validated cred.destination cred.destinationIp cred.userNo cred.channelId cred.token now key a p
  owner : m.binding.owner = cred.destination
  userNo : m.binding.userNo = cred.userNo
  channel : m.binding.channel = some p.channel
  previous : m.previousBinding.generation = a.generation

/-- A lock of a ready ticket and a candidate that fits it is for the completion of the candidate. -/
theorem completed_of_fits {r : IdentityRegistry} {t : MigrationPreflight} {now : Instant} {a : ActiveIdentity}
    {p : MigrationPermit} {c : MigrationCandidate} (hr : r.Ready t now a p) (hf : Fits c t) :
    r.Completed t.credentials now t.canonicalNickname a p c.completion where
  validated := hr.validated
  owner := hf.owner
  userNo := hf.userNo
  channel := hf.channel.trans (congrArg some hr.channel.symm)
  previous := hf.generation.trans (hr.generation.symm.trans hr.validated.generation)

/-- A commit that succeeds returns the completion it was locked for. -/
theorem commitMigration_ok {r : IdentityRegistry} {g : IdentityMigrationCommit} {epoch : Nat} {m : MigrationCompletion}
    (h : (r.commitMigration g epoch).1 = .ok m) :
    m = g.completion ∧ (r.commitMigration g epoch).2.nextGeneration = r.nextGeneration := by
  unfold commitMigration at h ⊢
  simp only at h ⊢
  generalize ((r.setGate g.nextOperationGate _).gate g.operationGate).retireExact g.transferId = x at h ⊢
  obtain ⟨retired, gate⟩ := x
  cases retired with
  | false => cases h
  | true =>
    simp only at h ⊢
    split at h
    · cases h
    · split at h
      · cases h
      · rename_i hnone
        simp only [if_neg hnone]
        cases h
        exact ⟨rfl, rfl⟩

/-- A ticket consumed at once: it was ready, and the new generation is the next one. -/
theorem completePreflighted_ok {U : Unicode} {r : IdentityRegistry} (h : r.WellFormed U) {t : MigrationPreflight}
    {now : Instant} {reserved : Bool} {epoch : Nat} {m : MigrationCompletion}
    (hm : (r.completePreflightedMigrationAtUdpEpoch t now reserved epoch).1 = .ok m) :
    (∃ a p, r.Completed t.credentials now t.canonicalNickname a p m) ∧ m.binding.generation = ⟨r.nextGeneration⟩ ∧
      r.nextGeneration < (r.completePreflightedMigrationAtUdpEpoch t now reserved epoch).2.nextGeneration := by
  unfold completePreflightedMigrationAtUdpEpoch at hm ⊢
  rcases preparePreflightedMigration_cases h t now reserved with ⟨e, g, he⟩ | ⟨a, p, hready, he⟩
  · simp only [he] at hm
    cases hm
  · simp only [he] at hm ⊢
    rcases lockPreparedMigration_cases r.made t (r.candidateFor t a p) now with ⟨e, hl⟩ | ⟨-, -, -, hfits, hl⟩
    · simp only [hl] at hm
      cases hm
    · simp only [hl] at hm ⊢
      obtain ⟨rfl, hgen⟩ := commitMigration_ok hm
      refine ⟨⟨a, p, completed_of_fits hready hfits⟩, rfl, ?_⟩
      rw [hgen]
      exact Nat.lt_succ_self _

/-- A migration completed at once: its credentials were validated, and the new generation is the next one. -/
theorem completeMigration_ok {U : Unicode} {r : IdentityRegistry} (h : r.WellFormed U) {d : SessionId} {ip : IpAddr}
    {u : UserNo} {ch : UInt16} {tok : MigrationToken} {now : Instant} {reserved : Bool} {m : MigrationCompletion}
    (hm : (r.completeMigration d ip u ch tok now reserved).1 = .ok m) :
    (∃ key a p, r.Completed ⟨d, ip, u, ch, tok⟩ now key a p m) ∧ m.binding.generation = ⟨r.nextGeneration⟩ ∧
      r.nextGeneration < (r.completeMigration d ip u ch tok now reserved).2.nextGeneration := by
  unfold completeMigration at hm ⊢
  rcases preflightMigration_cases h d ip u ch tok now with ⟨e, he⟩ | ⟨key, a, p, hval, hnt, hlt, he⟩
  · simp only [he] at hm
    cases hm
  · simp only [he] at hm ⊢
    have hp : a.permit.isSome := by
      rw [hval.permit]
      rfl
    have hwf := (frozen_edit h hval.active hp hnt hlt).wellFormed h
    obtain ⟨⟨a', p', hc⟩, hgen, hnext⟩ := completePreflighted_ok hwf hm
    refine ⟨⟨key, a, p, hval, hc.owner, hc.userNo, ?_, ?_⟩, hgen, hnext⟩
    -- the frozen identity is the validated one
    all_goals
      have hact : (r.frozen key a).activeByName.lookup key = some a' := hc.validated.active
      simp only [frozen, FiniteMap.lookup_insert, if_true] at hact
      cases hact
    · have hpp : a.permit = some p' := hc.validated.permit
      rw [hval.permit] at hpp
      cases hpp
      exact hc.channel
    · exact hc.previous

end IdentityRegistry

end P5136
