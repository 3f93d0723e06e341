import P5136.Nickname

/-!
# Identity bindings

The values that name an identity: the user number a nickname keeps for the life of the process, the generation that one
ownership of it gets, the binding of a generation to its session, and the stamp left when a generation is released.
-/

namespace P5136

/-- A session of the server. -/
structure SessionId where
  get : Nat
deriving DecidableEq

/-- A user number: a 32-bit number that is not zero. -/
structure UserNo where
  get : Nat
  ne_zero : get ≠ 0
  lt : get < 2 ^ 32

/-- User numbers with the same value are the same. -/
theorem UserNo.ext_get {u v : UserNo} (h : u.get = v.get) : u = v := by
  cases u
  cases v
  simp only at h
  subst h
  rfl

instance : DecidableEq UserNo := fun u v =>
  if h : u.get = v.get then isTrue (UserNo.ext_get h) else isFalse (mt (congrArg UserNo.get) h)

/-- `UserNo::new`: a user number, unless the 32-bit value is zero. -/
def UserNo.new (value : Nat) : Option UserNo :=
  if h : value ≠ 0 ∧ value < 2 ^ 32 then some ⟨value, h.1, h.2⟩ else none

/-- `UserNo::new` keeps the value. -/
theorem UserNo.get_of_new {value : Nat} {u : UserNo} (h : UserNo.new value = some u) : u.get = value := by
  unfold UserNo.new at h
  split at h
  · cases h
    rfl
  · nomatch h

/-- The generation of an identity. -/
structure IdentityGeneration where
  get : Nat
deriving DecidableEq

/-- The opaque value copied from `PrChannelSwitch` into `PqChannelMovein`: a 16-bit number that is not zero. -/
structure MigrationToken where
  get : UInt16
  ne_zero : get ≠ 0
deriving DecidableEq

/-- A channel and the game type it runs. -/
structure ChannelBinding where
  channelId : UInt16
  gameType : UInt8
deriving DecidableEq

/-- One generation of an identity, bound to the session that owns it. -/
structure IdentityBinding where
  nickname : String
  userNo : UserNo
  generation : IdentityGeneration
  owner : SessionId
  sourceIp : IpAddr
  channel : Option ChannelBinding
deriving DecidableEq

/-- The stamp of a released generation: its binding without the session. -/
structure ReleasedIdentity where
  nickname : String
  userNo : UserNo
  generation : IdentityGeneration
  sourceIp : IpAddr
  channel : Option ChannelBinding
deriving DecidableEq

/-- A permit to move an identity to another channel server. -/
structure MigrationPermit where
  userNo : UserNo
  sourceGeneration : IdentityGeneration
  sourceSession : SessionId
  sourceIp : IpAddr
  channel : ChannelBinding
  token : MigrationToken
  expiresAt : Instant
deriving DecidableEq

/-- A permit is accepted for fifteen seconds. -/
def migrationTtl : Duration := seconds 15

/-- `legacy_p2p_endpoint`: the address and the port of an IPv4 peer, also of one mapped into IPv6. -/
def legacyP2pEndpoint (sourceIp : IpAddr) (reportedPort : UInt16) : BitVec 32 × UInt16 :=
  match sourceIp with
  | .v4 bits => (bits, reportedPort)
  | .v6 bits => if bits.toNat / 2 ^ 32 = 0xFFFF then (BitVec.ofNat 32 bits.toNat, reportedPort) else (0, 0)

/-- The errors of the identity registry. -/
inductive IdentityError where
  | emptyNickname
  | invalidNickname (error : NicknameError)
  | sessionAlreadyAuthenticated (session : SessionId) (nickname : String)
  | duplicateIdentity (nickname : String)
  | unauthenticatedSession (session : SessionId)
  | staleSession (session : SessionId)
  | unknownUserNo (userNo : Nat)
  | noMigrationPermit (nickname : String)
  | migrationExpired
  | channelMismatch (expected received : UInt16)
  | tokenMismatch
  | sourceIpMismatch (expected received : IpAddr)
  | staleMigrationGeneration
  | staleMigrationPreflight
  | transferInProgress (nickname : String)
  | operationAdmissionClosed
  | operationGenerationRetired
  | operationCountExhausted
  | migrationOperationsActive
  | udpIngressPredatesGeneration
  | identityOwnerUnavailable (userNo : Nat)
  | userNoExhausted
  | generationExhausted
  | sessionIndexCapacityUnavailable
  | migrationTransferIdExhausted
  | migrationDeadlineOverflow
deriving DecidableEq

end P5136
