import P5136.Identity.Registry

/-!
# Channel migrations

A permit to move, the ticket that freezes the source, the candidate that is prepared under it, the lock and the commit; and
the ways back: aborting a ticket and dropping a lock.
-/

namespace P5136

namespace IdentityRegistry

/-- `begin_migration`: give the identity of an authorized session a permit, in place of the one it may have. -/
def beginMigration (U : Unicode) (r : IdentityRegistry) (sourceSession : SessionId) (channel : ChannelBinding)
    (token : MigrationToken) (now : Instant) : Except IdentityError MigrationPermit × IdentityRegistry :=
  match r.authorize U sourceSession with
  | .error e => (.error e, r)
  | .ok source =>
    match Instant.checkedAdd now migrationTtl with
    | none => (.error .migrationDeadlineOverflow, r)
    | some expiresAt =>
      let permit : MigrationPermit :=
        { userNo := source.userNo, sourceGeneration := source.generation, sourceSession := sourceSession,
          sourceIp := source.sourceIp, channel := channel, token := token, expiresAt := expiresAt }
      let key := canonicalNicknameKey U source.nickname
      match r.activeByName.lookup key with
      | none => (.error (.staleSession sourceSession), r)
      | some active =>
        (.ok permit, { r with activeByName := r.activeByName.insert key { active with permit := some permit } })

/-- `validate_migration`: the destination has no identity, and the credentials are those of the permit, which has not expired
and belongs to the active generation and its owner. -/
def validateMigration (r : IdentityRegistry) (destinationSession : SessionId) (destinationIp : IpAddr) (userNo : UserNo)
    (channelId : UInt16) (token : MigrationToken) (now : Instant) :
    Except (Fault IdentityError) ValidatedMigration :=
  match r.sessionBindings.lookup destinationSession with
  | some binding => .error (.error (.sessionAlreadyAuthenticated destinationSession binding.nickname))
  | none =>
    match r.nameByUserNo.lookup userNo with
    | none => .error (.error (.unknownUserNo userNo.get))
    | some key =>
      match r.activeByName.lookup key with
      | none =>
        match r.knownByName.lookup key with
        | none => .error (.panic "no entry found for key")
        | some known => .error (.error (.noMigrationPermit known.nickname))
      | some active =>
        match active.permit with
        | none => .error (.error (.noMigrationPermit active.known.nickname))
        | some permit =>
          if now ≥ permit.expiresAt then .error (.error .migrationExpired)
          else if permit.userNo ≠ userNo then .error (.error (.unknownUserNo userNo.get))
          else if permit.channel.channelId ≠ channelId then
            .error (.error (.channelMismatch permit.channel.channelId channelId))
          else if permit.token ≠ token then .error (.error .tokenMismatch)
          else if permit.sourceIp ≠ destinationIp then
            .error (.error (.sourceIpMismatch permit.sourceIp destinationIp))
          else if permit.sourceGeneration ≠ active.generation ∨
              active.owner.any (fun owner => owner ≠ permit.sourceSession) then
            .error (.error .staleMigrationGeneration)
          else .ok ⟨key, active, permit⟩

/-- `preflight_migration`: validate a migration, freeze its source and mint the ticket. -/
def preflightMigration (r : IdentityRegistry) (destinationSession : SessionId) (destinationIp : IpAddr) (userNo : UserNo)
    (channelId : UInt16) (token : MigrationToken) (now : Instant) :
    Except (Fault IdentityError) MigrationPreflight × IdentityRegistry :=
  match r.validateMigration destinationSession destinationIp userNo channelId token now with
  | .error e => (.error e, r)
  | .ok validated =>
    if validated.active.transferInProgress.isSome then
      (.error (.error (.transferInProgress validated.active.known.nickname)), r)
    else
      match r.allocateTransferId with
      | (.error e, r) => (.error (.error e), r)
      | (.ok transferId, r) =>
        let preflight : MigrationPreflight :=
          { transferId := transferId
            destinationSession := destinationSession
            destinationIp := destinationIp
            userNo := userNo
            channelId := channelId
            channel := validated.permit.channel
            token := token
            sourceGeneration := validated.permit.sourceGeneration
            sourceState := .fromOwner validated.active.owner
            sourceSession := validated.permit.sourceSession
            expiresAt := validated.permit.expiresAt
            nickname := validated.active.known.nickname
            canonicalNickname := validated.canonicalNickname
            drainGate := validated.active.operationGate }
        match r.activeByName.lookup preflight.canonicalNickname with
        | none => (.error (.error .staleMigrationPreflight), r)
        | some active =>
          if active.operationGate ≠ validated.active.operationGate ∨
              active.generation ≠ validated.permit.sourceGeneration then
            (.error (.error .staleMigrationPreflight), r)
          else
            match (r.gate active.operationGate).freeze transferId with
            | (false, _) => (.error (.error .staleMigrationPreflight), r)
            | (true, g) =>
              (.ok preflight, { r.setGate active.operationGate g with
                activeByName :=
                  r.activeByName.insert preflight.canonicalNickname { active with transferInProgress := some transferId } })

/-- The ticket still describes what `validate_migration` finds, and its source is still frozen by it. -/
def ticketMatches (r : IdentityRegistry) (preflight : MigrationPreflight) (validated : ValidatedMigration) : Bool :=
  validated.canonicalNickname = preflight.canonicalNickname &&
  validated.active.known.nickname = preflight.nickname &&
  preflight.sourceState.permitsCurrent validated.active.owner validated.permit.sourceSession &&
  validated.permit.channel = preflight.channel &&
  validated.permit.sourceGeneration = preflight.sourceGeneration &&
  validated.permit.sourceSession = preflight.sourceSession &&
  validated.permit.expiresAt = preflight.expiresAt &&
  validated.active.transferInProgress = some preflight.transferId &&
  validated.active.operationGate = preflight.drainGate &&
  (r.gate preflight.drainGate).isFrozenBy preflight.transferId

/-- `validate_preflighted_migration`: everything that can make the commit fail. -/
def validatePreflightedMigration (r : IdentityRegistry) (preflight : MigrationPreflight) (now : Instant) :
    Except (Fault IdentityError) Unit :=
  match r.validateMigration preflight.destinationSession preflight.destinationIp preflight.userNo preflight.channelId
    preflight.token now with
  | .error e => .error e
  | .ok validated =>
    if !r.ticketMatches preflight validated then .error (.error .staleMigrationPreflight)
    else if !(r.gate preflight.drainGate).isDrained then .error (.error .migrationOperationsActive)
    else if r.nextGeneration = 0 ∨ checkedAdd 64 r.nextGeneration 1 = none then .error (.error .generationExhausted)
    else .ok ()

/-- The permit is the one the ticket was minted for. -/
def MigrationPermit.isExactFor (permit : MigrationPermit) (preflight : MigrationPreflight) : Bool :=
  permit.userNo = preflight.userNo && permit.sourceGeneration = preflight.sourceGeneration &&
  permit.sourceSession = preflight.sourceSession && permit.channel = preflight.channel &&
  permit.token = preflight.token && permit.expiresAt = preflight.expiresAt

/-- `abort_preflighted_migration`: reopen the source that exactly this ticket froze. -/
def abortPreflightedMigration (r : IdentityRegistry) (preflight : MigrationPreflight) : Bool × IdentityRegistry :=
  match r.activeByName.lookup preflight.canonicalNickname with
  | none => (false, r)
  | some active =>
    if active.generation ≠ preflight.sourceGeneration ∨ active.known.nickname ≠ preflight.nickname ∨
        active.transferInProgress ≠ some preflight.transferId ∨ active.operationGate ≠ preflight.drainGate ∨
        !active.permit.any (MigrationPermit.isExactFor · preflight) then
      (false, r)
    else
      match (r.gate active.operationGate).reopenExact preflight.transferId with
      | (false, _) => (false, r)
      | (true, g) =>
        (true, { r.setGate active.operationGate g with
          activeByName := r.activeByName.insert preflight.canonicalNickname { active with transferInProgress := none } })

/-- The fallible part of `prepare_preflighted_migration`. `reserved` says whether the session index could reserve room. -/
def prepareCandidate (r : IdentityRegistry) (preflight : MigrationPreflight) (now : Instant) (reserved : Bool) :
    Except (Fault IdentityError) MigrationCandidate × IdentityRegistry :=
  match r.validatePreflightedMigration preflight now with
  | .error e => (.error e, r)
  | .ok () =>
    match r.validateMigration preflight.destinationSession preflight.destinationIp preflight.userNo preflight.channelId
      preflight.token now with
    | .error e => (.error e, r)
    | .ok validated =>
      match r.allocateGeneration with
      | (.error e, r) => (.error (.error e), r)
      | (.ok generation, r) =>
        if !reserved then (.error (.error .sessionIndexCapacityUnavailable), r)
        else
          let binding : IdentityBinding :=
            { nickname := validated.active.known.nickname
              userNo := validated.active.known.userNo
              generation := generation
              owner := preflight.destinationSession
              sourceIp := preflight.destinationIp
              channel := some validated.permit.channel }
          (.ok { canonicalNickname := validated.canonicalNickname
                 operationGate := validated.active.operationGate
                 nextOperationGate := r.gates.next
                 completion :=
                   { binding := binding
                     previousBinding := identityBinding validated.active validated.permit.sourceSession
                     previousIdentity := releasedIdentity validated.active
                     previousOwner := validated.active.owner } },
           { r with gates := r.gates.alloc (.shared 0) })

/-- `prepare_preflighted_migration`: make the replacement generation. A failure aborts the ticket. -/
def preparePreflightedMigration (r : IdentityRegistry) (preflight : MigrationPreflight) (now : Instant) (reserved : Bool) :
    Except (Fault IdentityError) MigrationCandidate × IdentityRegistry :=
  match r.prepareCandidate preflight now reserved with
  | (.error e, r) => (.error e, (r.abortPreflightedMigration preflight).2)
  | (.ok candidate, r) => (.ok candidate, r)

/-- `lock_prepared_migration`: validate once more and hand out the commit capability. A failure aborts the ticket. -/
def lockPreparedMigration (r : IdentityRegistry) (preflight : MigrationPreflight) (candidate : MigrationCandidate)
    (now : Instant) : Except (Fault IdentityError) IdentityMigrationCommit × IdentityRegistry :=
  match r.validatePreflightedMigration preflight now with
  | .error e => (.error e, (r.abortPreflightedMigration preflight).2)
  | .ok () =>
    if candidate.canonicalNickname ≠ preflight.canonicalNickname ∨
        candidate.completion.binding.owner ≠ preflight.destinationSession ∨
        candidate.completion.binding.userNo ≠ preflight.userNo ∨
        candidate.completion.binding.channel ≠ some preflight.channel ∨
        candidate.completion.previousBinding.generation ≠ preflight.sourceGeneration ∨
        candidate.operationGate ≠ preflight.drainGate then
      (.error (.error .staleMigrationPreflight), (r.abortPreflightedMigration preflight).2)
    else
      match r.activeByName.lookup candidate.canonicalNickname with
      | none => (.error (.panic "validated migration identity remains active while actor-owned"), r)
      | some _ =>
        (.ok { active := candidate.canonicalNickname
               transferId := preflight.transferId
               destinationSession := preflight.destinationSession
               channel := preflight.channel
               operationGate := candidate.operationGate
               nextOperationGate := candidate.nextOperationGate
               completion := candidate.completion }, r)

/-- `commit`: retire the source gate and publish the replacement generation. -/
def commitMigration (r : IdentityRegistry) (guard : IdentityMigrationCommit) (activatedUdpEpoch : Nat) :
    Except (Fault IdentityError) MigrationCompletion × IdentityRegistry :=
  let r := r.setGate guard.nextOperationGate
    { r.gate guard.nextOperationGate with activatedUdpEpoch := activatedUdpEpoch }
  let completion := guard.completion
  match (r.gate guard.operationGate).retireExact guard.transferId with
  | (false, _) => (.error (.panic "locked identity migration source must remain frozen and drained"), r)
  | (true, g) =>
    let r := r.setGate guard.operationGate g
    match r.activeByName.lookup guard.active with
    | none => (.error (.panic "the borrowed identity"), r)
    | some active =>
      let published : ActiveIdentity := { active with
        generation := completion.binding.generation
        owner := some guard.destinationSession
        ownerIp := completion.binding.sourceIp
        channel := some guard.channel
        permit := none
        transferInProgress := none
        operationGate := guard.nextOperationGate }
      let previous := r.sessionBindings.lookup guard.destinationSession
      let r := { r with
        activeByName := r.activeByName.insert guard.active published
        sessionBindings := r.sessionBindings.insert guard.destinationSession completion.binding }
      if previous.isSome then
        (.error (.panic "validated migration destination must remain unauthenticated while locked"), r)
      else (.ok completion, r)

/-- `drop` of a commit capability that was not committed: reopen the source. -/
def dropCommit (r : IdentityRegistry) (guard : IdentityMigrationCommit) : IdentityRegistry :=
  match r.activeByName.lookup guard.active with
  | none => r
  | some active =>
    if active.transferInProgress = some guard.transferId ∧ active.operationGate = guard.operationGate then
      { r.setGate guard.operationGate ((r.gate guard.operationGate).reopenExact guard.transferId).2 with
        activeByName := r.activeByName.insert guard.active { active with transferInProgress := none } }
    else r

/-- `complete_preflighted_migration_at_udp_epoch`: prepare, lock and commit at once. -/
def completePreflightedMigrationAtUdpEpoch (r : IdentityRegistry) (preflight : MigrationPreflight) (now : Instant)
    (reserved : Bool) (activatedUdpEpoch : Nat) : Except (Fault IdentityError) MigrationCompletion × IdentityRegistry :=
  match r.preparePreflightedMigration preflight now reserved with
  | (.error e, r) => (.error e, r)
  | (.ok candidate, r) =>
    match r.lockPreparedMigration preflight candidate now with
    | (.error e, r) => (.error e, r)
    | (.ok guard, r) => r.commitMigration guard activatedUdpEpoch

/-- `complete_migration`: mint the ticket and consume it at once. -/
def completeMigration (r : IdentityRegistry) (destinationSession : SessionId) (destinationIp : IpAddr) (userNo : UserNo)
    (channelId : UInt16) (token : MigrationToken) (now : Instant) (reserved : Bool) :
    Except (Fault IdentityError) MigrationCompletion × IdentityRegistry :=
  match r.preflightMigration destinationSession destinationIp userNo channelId token now with
  | (.error e, r) => (.error e, r)
  | (.ok preflight, r) => r.completePreflightedMigrationAtUdpEpoch preflight now reserved 0

/-! ## Releases -/

/-- What happens to an identity that leaves the active ones: it is released when its gate is drained, and waits otherwise. -/
def releaseOrDefer (r : IdentityRegistry) (key : String) (active : ActiveIdentity) : Bool × IdentityRegistry :=
  match (r.gate active.operationGate).retireDrained with
  | (true, g) => (true, r.setGate active.operationGate g)
  | (false, g) =>
    (false, { r.setGate active.operationGate g with
      deferredReleases := r.deferredReleases ++ [⟨key, releasedIdentity active, active.operationGate⟩] })

/-- Reopen the gate of an identity that a transfer has frozen. -/
def reopenTransfer (r : IdentityRegistry) (active : ActiveIdentity) : Bool × IdentityRegistry :=
  match active.transferInProgress with
  | none => (false, r)
  | some transferId =>
    let (reopened, g) := (r.gate active.operationGate).reopenExact transferId
    (reopened, r.setGate active.operationGate g)

/-- `disconnect`: forget the binding of a session. The identity it owned stays when its permit has not expired. -/
def disconnect (U : Unicode) (r : IdentityRegistry) (session : SessionId) (now : Instant) :
    DisconnectOutcome × IdentityRegistry :=
  match r.sessionBindings.lookup session with
  | none => (.unauthenticated, r)
  | some binding =>
    let r := { r with sessionBindings := r.sessionBindings.erase session }
    let key := canonicalNicknameKey U binding.nickname
    match r.activeByName.lookup key with
    | none => (.stale binding, r)
    | some active =>
      if active.owner ≠ some session ∨ active.generation ≠ binding.generation then (.stale binding, r)
      else match active.permit.filter (fun permit => permit.expiresAt > now) with
      | some permit =>
        (.deferred binding permit, { r with activeByName := r.activeByName.insert key { active with owner := none } })
      | none =>
        let r := { r with activeByName := r.activeByName.erase key }
        let r := (r.reopenTransfer active).2
        match r.releaseOrDefer key active with
        | (true, r) => (.released (releasedIdentity active), r)
        | (false, r) => (.draining (releasedIdentity active), r)

/-- The first loop of `expire_migrations` at one identity: drop a due permit, reopen the gate, and keep the key of an identity
without an owner. -/
def expirePermit (now : Instant) (acc : List String × IdentityRegistry) (key : String) : List String × IdentityRegistry :=
  let (releaseKeys, r) := acc
  match r.activeByName.lookup key with
  | none => (releaseKeys, r)
  | some active =>
    if active.permit.any (fun permit => now ≥ permit.expiresAt) then
      let (reopened, r) := r.reopenTransfer active
      let expired : ActiveIdentity := { active with
        permit := none
        transferInProgress := if reopened then none else active.transferInProgress }
      (if active.owner.isNone then releaseKeys ++ [key] else releaseKeys,
        { r with activeByName := r.activeByName.insert key expired })
    else (releaseKeys, r)

/-- The second loop of `expire_migrations` at one key: remove the identity and release it or let it wait. -/
def expireKey (acc : List ReleasedIdentity × IdentityRegistry) (key : String) : List ReleasedIdentity × IdentityRegistry :=
  let (released, r) := acc
  match r.activeByName.lookup key with
  | none => (released, r)
  | some active =>
    match ({ r with activeByName := r.activeByName.erase key }).releaseOrDefer key active with
    | (true, r) => (released ++ [releasedIdentity active], r)
    | (false, r) => (released, r)

def expireMigrations (r : IdentityRegistry) (now : Instant) : List ReleasedIdentity × IdentityRegistry :=
  let (releaseKeys, r) := r.activeByName.keys.foldl (expirePermit now) ([], r)
  releaseKeys.foldl expireKey ([], r)

/-- One step of `collect_drained_releases`. -/
def collectDeferred (acc : List ReleasedIdentity × IdentityRegistry) (deferred : DeferredRelease) :
    List ReleasedIdentity × IdentityRegistry :=
  let (released, r) := acc
  match (r.gate deferred.operationGate).retireDrained with
  | (true, g) => (released ++ [deferred.identity], r.setGate deferred.operationGate g)
  | (false, g) =>
    (released, { r.setGate deferred.operationGate g with deferredReleases := r.deferredReleases ++ [deferred] })

/-- `collect_drained_releases`: release the generations whose last operation has ended, in the order of their user numbers. -/
def collectDrainedReleases (r : IdentityRegistry) : List ReleasedIdentity × IdentityRegistry :=
  let (released, r) := r.deferredReleases.foldl collectDeferred ([], { r with deferredReleases := [] })
  (released.mergeSort (fun a b => a.userNo.get ≤ b.userNo.get), r)

/-- `drain_active`: let every active identity wait for its release, and collect those that need not. -/
def drainActive (r : IdentityRegistry) : List ReleasedIdentity × IdentityRegistry :=
  collectDrainedReleases { r with
    sessionBindings := ∅
    activeByName := ∅
    deferredReleases := r.deferredReleases ++
      r.activeByName.entries.map (fun e => ⟨e.1, releasedIdentity e.2, e.2.operationGate⟩) }

end IdentityRegistry

end P5136
