import P5136.Identity.Gate
import P5136.Lib.FiniteMap
import P5136.Lib.Fault

/-!
# The identity registry

Which nicknames are known, which are active and who owns them, the permits to move one to another channel server, and the
generations that wait for their last operation. The registry belongs to one actor; only the gates are shared with the leases
it has handed out. Every operation returns its result and the registry it leaves, also when it fails. Where the source
asserts or expects, the model panics.
-/

namespace P5136

/-- A nickname as it was first written, and its user number. -/
structure KnownIdentity where
  nickname : String
  userNo : UserNo
deriving DecidableEq

/-- A nickname that is logged in, or that a permit keeps while it changes servers. -/
structure ActiveIdentity where
  known : KnownIdentity
  generation : IdentityGeneration
  owner : Option SessionId
  ownerIp : IpAddr
  channel : Option ChannelBinding
  permit : Option MigrationPermit
  transferInProgress : Option MigrationTransferId
  operationGate : GateId
deriving DecidableEq

/-- A generation whose owner is gone, kept until its last operation has ended. -/
structure DeferredRelease where
  canonicalNickname : String
  identity : ReleasedIdentity
  operationGate : GateId
deriving DecidableEq

/-- One admitted operation against a generation. -/
structure IdentityOperationLease where
  gate : GateId
  binding : IdentityBinding
deriving DecidableEq

def identityBinding (active : ActiveIdentity) (owner : SessionId) : IdentityBinding where
  nickname := active.known.nickname
  userNo := active.known.userNo
  generation := active.generation
  owner := owner
  sourceIp := active.ownerIp
  channel := active.channel

/-- `active_identity_binding`: the binding of an identity that has an owner. -/
def activeIdentityBinding (active : ActiveIdentity) : Option IdentityBinding :=
  active.owner.map (identityBinding active)

def releasedIdentity (active : ActiveIdentity) : ReleasedIdentity where
  nickname := active.known.nickname
  userNo := active.known.userNo
  generation := active.generation
  sourceIp := active.ownerIp
  channel := active.channel

/-- The registry. -/
structure IdentityRegistry where
  knownByName : FiniteMap String KnownIdentity
  nameByUserNo : FiniteMap UserNo String
  activeByName : FiniteMap String ActiveIdentity
  sessionBindings : FiniteMap SessionId IdentityBinding
  deferredReleases : List DeferredRelease
  nextUserNo : Nat
  nextGeneration : Nat
  nextTransferId : Nat
  gates : GateArena

/-- The owner of an identity when a ticket was minted for it. -/
inductive MigrationSourceState where
  | connected (owner : SessionId)
  | disconnected
deriving DecidableEq

def MigrationSourceState.fromOwner : Option SessionId → MigrationSourceState
  | some owner => .connected owner
  | none => .disconnected

/-- `permits_current`: the source may only have gone from connected to disconnected. -/
def MigrationSourceState.permitsCurrent (state : MigrationSourceState) (currentOwner : Option SessionId)
    (permitSource : SessionId) : Bool :=
  match state, currentOwner with
  | .connected expected, some current => expected = permitSource && current = expected
  | .connected expected, none => expected = permitSource
  | .disconnected, none => true
  | .disconnected, some _ => false

/-- The ticket of a migration whose source is frozen. -/
structure MigrationPreflight where
  transferId : MigrationTransferId
  destinationSession : SessionId
  destinationIp : IpAddr
  userNo : UserNo
  channelId : UInt16
  channel : ChannelBinding
  token : MigrationToken
  sourceGeneration : IdentityGeneration
  sourceState : MigrationSourceState
  sourceSession : SessionId
  expiresAt : Instant
  nickname : String
  canonicalNickname : String
  drainGate : GateId
deriving DecidableEq

/-- What a migration moved. -/
structure MigrationCompletion where
  binding : IdentityBinding
  previousBinding : IdentityBinding
  previousIdentity : ReleasedIdentity
  previousOwner : Option SessionId
deriving DecidableEq

/-- A replacement generation that is made but not published. -/
structure MigrationCandidate where
  canonicalNickname : String
  operationGate : GateId
  nextOperationGate : GateId
  completion : MigrationCompletion
deriving DecidableEq

/-- The capability to commit a migration. While it is held the registry is borrowed; the identity it borrows is named by its
canonical nickname. -/
structure IdentityMigrationCommit where
  active : String
  transferId : MigrationTransferId
  destinationSession : SessionId
  channel : ChannelBinding
  operationGate : GateId
  nextOperationGate : GateId
  completion : MigrationCompletion
deriving DecidableEq

inductive DisconnectOutcome where
  | unauthenticated
  | stale (binding : IdentityBinding)
  | deferred (identity : IdentityBinding) (permit : MigrationPermit)
  | draining (identity : ReleasedIdentity)
  | released (identity : ReleasedIdentity)
deriving DecidableEq

/-- What `validate_migration` found. -/
structure ValidatedMigration where
  canonicalNickname : String
  active : ActiveIdentity
  permit : MigrationPermit

namespace IdentityRegistry

def new : IdentityRegistry where
  knownByName := ∅
  nameByUserNo := ∅
  activeByName := ∅
  sessionBindings := ∅
  deferredReleases := []
  nextUserNo := 1
  nextGeneration := 1
  nextTransferId := 1
  gates := .empty

/-- The gate of a name. -/
def gate (r : IdentityRegistry) (id : GateId) : IdentityOperationGate := r.gates.gate id

/-- Change a gate. -/
def setGate (r : IdentityRegistry) (id : GateId) (g : IdentityOperationGate) : IdentityRegistry :=
  { r with gates := r.gates.set id g }

/-! ## Numbers -/

def allocateUserNo (r : IdentityRegistry) : Except IdentityError UserNo × IdentityRegistry :=
  match checkedAdd 32 r.nextUserNo 1 with
  | none => (.error .userNoExhausted, r)
  | some next =>
    match UserNo.new r.nextUserNo with
    | none => (.error .userNoExhausted, { r with nextUserNo := next })
    | some userNo => (.ok userNo, { r with nextUserNo := next })

def allocateGeneration (r : IdentityRegistry) : Except IdentityError IdentityGeneration × IdentityRegistry :=
  match checkedAdd 64 r.nextGeneration 1 with
  | none => (.error .generationExhausted, r)
  | some next =>
    if r.nextGeneration = 0 then (.error .generationExhausted, { r with nextGeneration := next })
    else (.ok ⟨r.nextGeneration⟩, { r with nextGeneration := next })

def allocateTransferId (r : IdentityRegistry) : Except IdentityError MigrationTransferId × IdentityRegistry :=
  match checkedAdd 64 r.nextTransferId 1 with
  | none => (.error .migrationTransferIdExhausted, r)
  | some next =>
    if r.nextTransferId = 0 then (.error .migrationTransferIdExhausted, { r with nextTransferId := next })
    else (.ok ⟨r.nextTransferId⟩, { r with nextTransferId := next })

/-- `ensure_known_user_no`: the user number of a nickname, a new one when it is not known. -/
def ensureKnownUserNo (U : Unicode) (r : IdentityRegistry) (requestedNickname : String) :
    Except IdentityError UserNo × IdentityRegistry :=
  match normalizeNickname U requestedNickname with
  | .error e => (.error (.invalidNickname e), r)
  | .ok nickname =>
    let key := canonicalNicknameKey U nickname
    match r.knownByName.lookup key with
    | some known => (.ok known.userNo, r)
    | none =>
      match r.allocateUserNo with
      | (.error e, r) => (.error e, r)
      | (.ok userNo, r) =>
        (.ok userNo, { r with
          knownByName := r.knownByName.insert key ⟨nickname, userNo⟩
          nameByUserNo := r.nameByUserNo.insert userNo key })

/-! ## Logging in -/

/-- `claim_at`: a session without an identity takes a nickname that is neither active nor waiting to be released. -/
def claimAt (U : Unicode) (r : IdentityRegistry) (session : SessionId) (sourceIp : IpAddr) (requestedNickname : String)
    (activatedUdpEpoch : Nat) : Except (Fault IdentityError) IdentityBinding × IdentityRegistry :=
  if trim requestedNickname = "" then (.error (.error .emptyNickname), r)
  else match normalizeNickname U requestedNickname with
  | .error e => (.error (.error (.invalidNickname e)), r)
  | .ok nickname =>
    match r.sessionBindings.lookup session with
    | some binding => (.error (.error (.sessionAlreadyAuthenticated session binding.nickname)), r)
    | none =>
      let key := canonicalNicknameKey U nickname
      match r.activeByName.lookup key with
      | some active => (.error (.error (.duplicateIdentity active.known.nickname)), r)
      | none =>
        match r.deferredReleases.find? (fun deferred => deferred.canonicalNickname = key) with
        | some deferred => (.error (.error (.duplicateIdentity deferred.identity.nickname)), r)
        | none =>
          match r.ensureKnownUserNo U nickname with
          | (.error e, r) => (.error (.error e), r)
          | (.ok userNo, r) =>
            match r.knownByName.lookup key with
            | none => (.error (.panic "ensuring a known user number installs its nickname mapping"), r)
            | some known =>
              if known.userNo ≠ userNo then (.error (.panic "assertion failed: known.user_no == user_no"), r)
              else match r.allocateGeneration with
              | (.error e, r) => (.error (.error e), r)
              | (.ok generation, r) =>
                let binding : IdentityBinding :=
                  { nickname := known.nickname, userNo := known.userNo, generation := generation, owner := session,
                    sourceIp := sourceIp, channel := none }
                let active : ActiveIdentity :=
                  { known := known, generation := generation, owner := some session, ownerIp := sourceIp, channel := none,
                    permit := none, transferInProgress := none, operationGate := r.gates.next }
                (.ok binding, { r with
                  gates := r.gates.alloc (.shared activatedUdpEpoch)
                  activeByName := r.activeByName.insert key active
                  sessionBindings := r.sessionBindings.insert session binding })

/-! ## Operations -/

/-- `authorize`: the binding of a session that is the current owner of its generation, which no transfer has frozen. -/
def authorize (U : Unicode) (r : IdentityRegistry) (session : SessionId) : Except IdentityError IdentityBinding :=
  match r.sessionBindings.lookup session with
  | none => .error (.unauthenticatedSession session)
  | some binding =>
    match r.activeByName.lookup (canonicalNicknameKey U binding.nickname) with
    | none => .error (.staleSession session)
    | some active =>
      if active.owner ≠ some session ∨ active.generation ≠ binding.generation then .error (.staleSession session)
      else if active.transferInProgress.isSome then .error (.transferInProgress active.known.nickname)
      else .ok binding

/-- Admit an operation at a gate, and mint its lease. -/
def admitAt (r : IdentityRegistry) (id : GateId) (binding : IdentityBinding) :
    Except IdentityError IdentityOperationLease × IdentityRegistry :=
  match (r.gate id).tryAdmit with
  | (.error e, g) => (.error e, r.setGate id g)
  | (.ok (), g) => (.ok ⟨id, binding⟩, r.setGate id g)

def admitOperation (U : Unicode) (r : IdentityRegistry) (session : SessionId) :
    Except IdentityError IdentityOperationLease × IdentityRegistry :=
  match r.authorize U session with
  | .error e => (.error e, r)
  | .ok binding =>
    match r.activeByName.lookup (canonicalNicknameKey U binding.nickname) with
    | none => (.error (.staleSession session), r)
    | some active => r.admitAt active.operationGate binding

/-- `admit_udp_operation`: as `admit_operation`, by user number, for an arrival after the generation was activated. -/
def admitUdpOperation (r : IdentityRegistry) (userNo : UserNo) (arrivalEpoch : Nat) :
    Except IdentityError IdentityOperationLease × IdentityRegistry :=
  match r.nameByUserNo.lookup userNo with
  | none => (.error (.unknownUserNo userNo.get), r)
  | some key =>
    match r.activeByName.lookup key with
    | none => (.error (.identityOwnerUnavailable userNo.get), r)
    | some active =>
      match activeIdentityBinding active with
      | none => (.error (.identityOwnerUnavailable userNo.get), r)
      | some binding =>
        if active.transferInProgress.isSome then (.error (.transferInProgress active.known.nickname), r)
        else if arrivalEpoch ≤ (r.gate active.operationGate).activatedUdpEpoch then
          (.error .udpIngressPredatesGeneration, r)
        else r.admitAt active.operationGate binding

end IdentityRegistry

end P5136
