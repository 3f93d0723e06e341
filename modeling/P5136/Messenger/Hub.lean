import P5136.Lib.Act
import P5136.Lib.Checks
import P5136.Lib.FiniteMap
import P5136.Nickname

/-!
# The messenger hub

The sessions of the messenger service, the endpoint each has entered with, and the chat rooms of two. An identity is known by
the key of its nickname; what a call may do depends on the whole stamp of the identity, with its generation and address.
-/

namespace P5136

open Act Checks

/-- A session of the messenger service. -/
abbrev MessengerSessionId := NonZero 64

/-- The generation of an identity, as the messenger service knows it. -/
abbrev MessengerGeneration := NonZero 64

/-- A chat room. -/
abbrev MessengerRoomId := NonZero 32

/-- `MessengerIdentity`: an identity with the key of its nickname. -/
structure MessengerIdentity where
  userNo : NonZero 32
  nickname : String
  generation : MessengerGeneration
  sourceIp : IpAddr
  key : String
deriving DecidableEq

structure MessengerHubLimits where
  maxSessions : Nat
  maxRooms : Nat
  maxRoomsPerIdentity : Nat
  maxMessageUtf16Units : Nat
deriving DecidableEq

def MessengerHubLimits.default : MessengerHubLimits where
  maxSessions := 256
  maxRooms := 4096
  maxRoomsPerIdentity := 64
  maxMessageUtf16Units := 4096

structure EnterClaim where
  userNo : Nat
  chatType : Nat
  nickname : String
deriving DecidableEq

structure InviteClaim where
  inviterUserNo : Nat
  inviteeUserNo : Nat
  inviterNickname : String
  inviteeNickname : String
deriving DecidableEq

structure ChatClaim where
  roomId : Nat
  nickname : String
  message : String
deriving DecidableEq

structure LeaveClaim where
  userNo : Nat
  roomId : Nat
deriving DecidableEq

structure GuildChatClaim where
  nickname : String
  message : String
deriving DecidableEq

/-- `MessengerEvent`: what a session is told. -/
inductive MessengerEvent where
  | inviteChat (inviterUserNo inviteeUserNo : Nat) (inviterNickname inviteeNickname : String) (roomId : MessengerRoomId)
      (result : Int)
  | chat (roomId : MessengerRoomId) (senderUserNo : Nat) (nickname message : String) (result : Int)
  | leaveChat (userNo : Nat) (roomId : MessengerRoomId)
  | guildChat (nickname message : String)
deriving DecidableEq

structure MessengerDelivery where
  session : MessengerSessionId
  event : MessengerEvent
deriving DecidableEq

structure EnterOutcome where
  replacedSession : Option MessengerSessionId
deriving DecidableEq

structure GenerationAdvance where
  endpointUpdated : Bool
  roomMembersUpdated : Nat
deriving DecidableEq

structure IdentityRelease where
  disconnectedSession : Option MessengerSessionId
  roomMembershipsRemoved : Nat
  emptyRoomsRemoved : Nat
deriving DecidableEq

/-- Why the hub refuses a call. -/
inductive MessengerHubError where
  | invalidUserNo
  | invalidGeneration
  | emptyNickname
  | zeroLimit (name : String)
  | sessionAlreadyEntered (session : MessengerSessionId)
  | sessionLimitReached (maximum : Nat)
  | unauthenticatedSession (session : MessengerSessionId)
  | staleSession (session : MessengerSessionId)
  | sourceIpMismatch (expected received : IpAddr)
  | senderUserNoMismatch
  | senderNicknameMismatch
  | targetIdentityMismatch
  | selfInvite
  | roomLimitReached (maximum : Nat)
  | identityRoomLimitReached (nickname : String) (maximum : Nat)
  | roomIdExhausted
  | invalidRoomId (roomId : Nat)
  | roomNotFound (roomId : MessengerRoomId)
  | notRoomMember (roomId : MessengerRoomId) (nickname : String)
  | messageTooLong (length maximum : Nat)
  | migrationIdentityMismatch
deriving DecidableEq

def identityStampMatches (left right : MessengerIdentity) : Bool :=
  left.key = right.key && left.userNo = right.userNo && left.generation = right.generation && left.sourceIp = right.sourceIp

structure MessengerEndpoint where
  identity : MessengerIdentity
  chatType : Nat
deriving DecidableEq

structure MessengerRoom where
  members : List MessengerIdentity
deriving DecidableEq

/-- A set of rooms. -/
abbrev MessengerRoomIds := FiniteMap MessengerRoomId Unit

structure MessengerHub where
  limits : MessengerHubLimits
  endpointsBySession : FiniteMap MessengerSessionId MessengerEndpoint
  sessionByIdentity : FiniteMap String MessengerSessionId
  rooms : FiniteMap MessengerRoomId MessengerRoom
  roomsByIdentity : FiniteMap String MessengerRoomIds
  nextRoomId : Option MessengerRoomId

namespace MessengerHub

/-- The hub with no session. -/
def empty (limits : MessengerHubLimits) : MessengerHub where
  limits := limits
  endpointsBySession := ∅
  sessionByIdentity := ∅
  rooms := ∅
  roomsByIdentity := ∅
  nextRoomId := NonZero.new 1

/-- `MessengerHub::new`: every limit is checked. -/
def new (limits : MessengerHubLimits) : Except MessengerHubError MessengerHub := do
  all (fun limit : String × Nat => ensure (limit.2 ≠ 0) (.zeroLimit limit.1))
    [("max_sessions", limits.maxSessions), ("max_rooms", limits.maxRooms),
      ("max_rooms_per_identity", limits.maxRoomsPerIdentity), ("max_message_utf16_units", limits.maxMessageUtf16Units)]
  pure (empty limits)

/-! ## Checks -/

/-- `authorize_session`: the identity of a session that is live under the stamp of the active identity. -/
def authorizeSession (hub : MessengerHub) (session : MessengerSessionId) (active : MessengerIdentity) :
    Except MessengerHubError MessengerIdentity := do
  let endpoint ← orElse (hub.endpointsBySession.lookup session) (.unauthenticatedSession session)
  ensure (identityStampMatches endpoint.identity active = true ∧ hub.sessionByIdentity.lookup active.key = some session)
    (.staleSession session)
  pure endpoint.identity

def validateSenderNickname (U : Unicode) (sender : MessengerIdentity) (claimedNickname : String) :
    Except MessengerHubError Unit :=
  ensure (canonicalNicknameKey U claimedNickname = sender.key) .senderNicknameMismatch

def validateSender (U : Unicode) (sender : MessengerIdentity) (claimedUserNo : Nat) (claimedNickname : String) :
    Except MessengerHubError Unit := do
  ensure (claimedUserNo = sender.userNo.get) .senderUserNoMismatch
  validateSenderNickname U sender claimedNickname

def validateMessage (hub : MessengerHub) (message : String) : Except MessengerHubError Unit :=
  ensure (¬utf16Length message > hub.limits.maxMessageUtf16Units)
    (.messageTooLong (utf16Length message) hub.limits.maxMessageUtf16Units)

/-- The number of rooms the index has for a key. -/
def roomCountOf (hub : MessengerHub) (key : String) : Nat := ((hub.roomsByIdentity.lookup key).map FiniteMap.size).getD 0

def ensureIdentityRoomCapacity (hub : MessengerHub) (identity : MessengerIdentity) : Except MessengerHubError Unit :=
  ensure (¬hub.roomCountOf identity.key ≥ hub.limits.maxRoomsPerIdentity)
    (.identityRoomLimitReached identity.nickname hub.limits.maxRoomsPerIdentity)

/-! ## Deliveries -/

/-- `deliver_to_members`: to the sessions of the members whose endpoint still carries the stamp of the membership. -/
def deliverToMembers (hub : MessengerHub) (members : List MessengerIdentity) (event : MessengerEvent) :
    List MessengerDelivery :=
  members.filterMap fun member =>
    match hub.sessionByIdentity.lookup member.key with
    | none => none
    | some session =>
      match hub.endpointsBySession.lookup session with
      | none => none
      | some endpoint => if identityStampMatches endpoint.identity member then some ⟨session, event⟩ else none

/-! ## Sessions -/

/-- Put the endpoint of a session in the place of the session its identity had. -/
def installEndpoint (hub : MessengerHub) (session : MessengerSessionId) (active : MessengerIdentity) (chatType : Nat)
    (replacedSession : Option MessengerSessionId) : MessengerHub :=
  let endpoints := match replacedSession with
    | some previous => hub.endpointsBySession.erase previous
    | none => hub.endpointsBySession
  { hub with
    endpointsBySession := endpoints.insert session ⟨active, chatType⟩
    sessionByIdentity := hub.sessionByIdentity.insert active.key session }

def enter (U : Unicode) (session : MessengerSessionId) (peerIp : IpAddr) (active : MessengerIdentity) (claim : EnterClaim) :
    Act MessengerHub MessengerHubError EnterOutcome := do
  let hub ← get
  require (¬(hub.endpointsBySession.lookup session).isSome) (.sessionAlreadyEntered session)
  require (claim.userNo = active.userNo.get) .senderUserNoMismatch
  require (canonicalNicknameKey U claim.nickname = active.key) .senderNicknameMismatch
  require (peerIp = active.sourceIp) (.sourceIpMismatch active.sourceIp peerIp)
  let replacedSession := hub.sessionByIdentity.lookup active.key
  require (¬(replacedSession.isNone ∧ hub.endpointsBySession.size ≥ hub.limits.maxSessions))
    (.sessionLimitReached hub.limits.maxSessions)
  modify (fun hub => hub.installEndpoint session active claim.chatType replacedSession)
  pure ⟨replacedSession⟩

/-- Forget the endpoint of a session, and the session of its identity when it is that session. -/
def dropEndpoint (hub : MessengerHub) (session : MessengerSessionId) (key : String) : MessengerHub :=
  { hub with
    endpointsBySession := hub.endpointsBySession.erase session
    sessionByIdentity :=
      if hub.sessionByIdentity.lookup key = some session then hub.sessionByIdentity.erase key else hub.sessionByIdentity }

/-! ## Rooms -/

def allocateRoomId : Act MessengerHub MessengerHubError MessengerRoomId := do
  let hub ← get
  let value ← ofExcept (orElse hub.nextRoomId .roomIdExhausted)
  modify (fun hub => { hub with nextRoomId := value.next })
  pure value

/-- Add a room to the rooms of a key. -/
def indexRoom (hub : MessengerHub) (key : String) (roomId : MessengerRoomId) : MessengerHub :=
  { hub with
    roomsByIdentity := hub.roomsByIdentity.insert key (((hub.roomsByIdentity.lookup key).getD ∅).insert roomId ()) }

/-- Put a room in the table and in the index of its members. -/
def insertRoom (hub : MessengerHub) (roomId : MessengerRoomId) (members : List MessengerIdentity) : MessengerHub :=
  members.foldl (fun hub member => hub.indexRoom member.key roomId)
    { hub with rooms := hub.rooms.insert roomId ⟨members⟩ }

def invite (U : Unicode) (session : MessengerSessionId) (activeSender activeTarget : MessengerIdentity)
    (claim : InviteClaim) : Act MessengerHub MessengerHubError (List MessengerDelivery) := do
  let hub ← get
  let sender ← ofExcept (hub.authorizeSession session activeSender)
  ofExcept (validateSender U sender claim.inviterUserNo claim.inviterNickname)
  require (claim.inviteeUserNo = activeTarget.userNo.get ∧ canonicalNicknameKey U claim.inviteeNickname = activeTarget.key)
    .targetIdentityMismatch
  require (¬sender.key = activeTarget.key) .selfInvite
  require (¬hub.rooms.size ≥ hub.limits.maxRooms) (.roomLimitReached hub.limits.maxRooms)
  ofExcept (hub.ensureIdentityRoomCapacity sender)
  ofExcept (hub.ensureIdentityRoomCapacity activeTarget)
  let roomId ← allocateRoomId
  let members := [sender, activeTarget]
  modify (fun hub => hub.insertRoom roomId members)
  let event := MessengerEvent.inviteChat sender.userNo.get activeTarget.userNo.get sender.nickname activeTarget.nickname roomId 0
  let hub ← get
  pure (hub.deliverToMembers members event)

def chat (U : Unicode) (session : MessengerSessionId) (activeSender : MessengerIdentity) (claim : ChatClaim) :
    Act MessengerHub MessengerHubError (List MessengerDelivery) := do
  let hub ← get
  let sender ← ofExcept (hub.authorizeSession session activeSender)
  ofExcept (validateSenderNickname U sender claim.nickname)
  ofExcept (hub.validateMessage claim.message)
  let roomId ← ofExcept (orElse (NonZero.new claim.roomId) (.invalidRoomId claim.roomId))
  let room ← ofExcept (orElse (hub.rooms.lookup roomId) (.roomNotFound roomId))
  require (room.members.any (fun member => identityStampMatches member sender) = true)
    (.notRoomMember roomId sender.nickname)
  pure (hub.deliverToMembers room.members (.chat roomId sender.userNo.get sender.nickname claim.message 0))

def removeInverseRoom (hub : MessengerHub) (key : String) (roomId : MessengerRoomId) : MessengerHub :=
  match hub.roomsByIdentity.lookup key with
  | none => hub
  | some rooms =>
    let rooms : MessengerRoomIds := rooms.erase roomId
    if FiniteMap.size rooms = 0 then { hub with roomsByIdentity := hub.roomsByIdentity.erase key }
    else { hub with roomsByIdentity := hub.roomsByIdentity.insert key rooms }

/-- What is done when a key has left a room to the remaining members: an empty room is removed. -/
def leaveRoom (hub : MessengerHub) (key : String) (roomId : MessengerRoomId) (remaining : List MessengerIdentity) :
    MessengerHub :=
  let hub := { hub with rooms := hub.rooms.insert roomId ⟨remaining⟩ }
  let hub := hub.removeInverseRoom key roomId
  if remaining.isEmpty then { hub with rooms := hub.rooms.erase roomId } else hub

def leave (session : MessengerSessionId) (activeSender : MessengerIdentity) (claim : LeaveClaim) :
    Act MessengerHub MessengerHubError (List MessengerDelivery) := do
  let hub ← get
  let sender ← ofExcept (hub.authorizeSession session activeSender)
  require (claim.userNo = sender.userNo.get) .senderUserNoMismatch
  let roomId ← ofExcept (orElse (NonZero.new claim.roomId) (.invalidRoomId claim.roomId))
  let room ← ofExcept (orElse (hub.rooms.lookup roomId) (.roomNotFound roomId))
  let index ← ofExcept (orElse (room.members.findIdx? (fun member => identityStampMatches member sender))
    (.notRoomMember roomId sender.nickname))
  let remaining := room.members.eraseIdx index
  modify (fun hub => hub.leaveRoom sender.key roomId remaining)
  let hub ← get
  pure (hub.deliverToMembers remaining (.leaveChat sender.userNo.get roomId))

/-- `guild_chat`: to every session, in order. -/
def guildChat (U : Unicode) (session : MessengerSessionId) (activeSender : MessengerIdentity) (claim : GuildChatClaim) :
    Act MessengerHub MessengerHubError (List MessengerDelivery) := do
  let hub ← get
  let sender ← ofExcept (hub.authorizeSession session activeSender)
  ofExcept (validateSenderNickname U sender claim.nickname)
  ofExcept (hub.validateMessage claim.message)
  let sessions := hub.endpointsBySession.keys.mergeSort (fun a b => a.get ≤ b.get)
  pure (sessions.map (fun session => ⟨session, .guildChat sender.nickname claim.message⟩))

/-! ## Generations -/

/-- Move the endpoint of an identity to its next generation, when the endpoint carries the previous stamp. -/
def advanceEndpoint (hub : MessengerHub) (previous next : MessengerIdentity) : MessengerHub × Bool :=
  match hub.sessionByIdentity.lookup previous.key with
  | none => (hub, false)
  | some session =>
    match hub.endpointsBySession.lookup session with
    | none => (hub, false)
    | some endpoint =>
      if identityStampMatches endpoint.identity previous then
        ({ hub with endpointsBySession := hub.endpointsBySession.insert session { endpoint with identity := next } }, true)
      else (hub, false)

/-- Move the membership of an identity in a room to its next generation, when it carries the previous stamp. -/
def advanceMember (previous next : MessengerIdentity) (progress : MessengerHub × Nat) (roomId : MessengerRoomId) :
    MessengerHub × Nat :=
  match progress.1.rooms.lookup roomId with
  | none => progress
  | some room =>
    match room.members.findIdx? (fun member => identityStampMatches member previous) with
    | none => progress
    | some index =>
      ({ progress.1 with rooms := progress.1.rooms.insert roomId ⟨room.members.set index next⟩ }, progress.2 + 1)

/-- The rooms the index has for a key. -/
def roomIdsOf (hub : MessengerHub) (key : String) : List MessengerRoomId :=
  ((hub.roomsByIdentity.lookup key).map AList.keys).getD []

/-- Move the endpoint and the memberships of an identity to its next generation. -/
def advanceIdentity (hub : MessengerHub) (previous next : MessengerIdentity) : MessengerHub × GenerationAdvance :=
  let endpoint := hub.advanceEndpoint previous next
  let rooms := (endpoint.1.roomIdsOf previous.key).foldl (advanceMember previous next) (endpoint.1, 0)
  (rooms.1, ⟨endpoint.2, rooms.2⟩)

def advanceGeneration (previous next : MessengerIdentity) : Act MessengerHub MessengerHubError GenerationAdvance := do
  require (previous.key = next.key ∧ previous.userNo = next.userNo ∧ previous.sourceIp = next.sourceIp ∧
    ¬next.generation.get ≤ previous.generation.get) .migrationIdentityMismatch
  let hub ← get
  modify (fun hub => (hub.advanceIdentity previous next).1)
  pure (hub.advanceIdentity previous next).2

/-- What has been removed so far: the hub, the memberships and the rooms. -/
structure RoomRemoval where
  hub : MessengerHub
  membershipsRemoved : Nat
  emptyRoomsRemoved : Nat

/-- Remove the members of a room that carry the stamp of an identity. -/
def removeFromRoom (identity : MessengerIdentity) (progress : RoomRemoval) (roomId : MessengerRoomId) : RoomRemoval :=
  match progress.hub.rooms.lookup roomId with
  | none => progress
  | some room =>
    let remaining := room.members.filter (fun member => ¬identityStampMatches member identity)
    let removed := room.members.length - remaining.length
    if removed = 0 then progress
    else
      ⟨progress.hub.leaveRoom identity.key roomId remaining, progress.membershipsRemoved + removed,
        if remaining.isEmpty then progress.emptyRoomsRemoved + 1 else progress.emptyRoomsRemoved⟩

def removeIdentityFromRooms (hub : MessengerHub) (identity : MessengerIdentity) : RoomRemoval :=
  (hub.roomIdsOf identity.key).foldl (removeFromRoom identity) ⟨hub, 0, 0⟩

/-- The session of an identity, when its endpoint carries the whole stamp. -/
def liveSession (hub : MessengerHub) (identity : MessengerIdentity) : Option MessengerSessionId :=
  (hub.sessionByIdentity.lookup identity.key).filter fun session =>
    (hub.endpointsBySession.lookup session).any fun endpoint => identityStampMatches endpoint.identity identity

def releaseIdentity (identity : MessengerIdentity) : Act MessengerHub MessengerHubError IdentityRelease := fun hub =>
  let disconnectedSession := hub.liveSession identity
  let hub := match disconnectedSession with
    | some session => hub.dropEndpoint session identity.key
    | none => hub
  let removal := hub.removeIdentityFromRooms identity
  (.ok ⟨disconnectedSession, removal.membershipsRemoved, removal.emptyRoomsRemoved⟩, removal.hub)

/-- `disconnect_session`: nothing, when the session has not entered. -/
def disconnectSession (session : MessengerSessionId) : Act MessengerHub MessengerHubError (Option IdentityRelease) := fun hub =>
  match hub.endpointsBySession.lookup session with
  | none => (.ok none, hub)
  | some endpoint =>
    let removal := (hub.dropEndpoint session endpoint.identity.key).removeIdentityFromRooms endpoint.identity
    (.ok (some ⟨some session, removal.membershipsRemoved, removal.emptyRoomsRemoved⟩), removal.hub)

end MessengerHub

end P5136
