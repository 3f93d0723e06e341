import Mathlib.Data.Finset.Sort
import P5136.World.Exits

/-!
# Rooms

The room protocol of a channel: the list of its rooms, creating and joining one, leaving it, and the first state that a client
asks for. Then the changes of how a member of a room looks.
-/

namespace P5136

open Act

structure ChCreateRoomRequest where
  roomName : String
  password : String
  gameType : Nat
  roomDataHeader : Nat
  roomData : Vector UInt8 32

structure ChJoinRoomRequest where
  roomId : UInt16
  password : String

/-- `ChGetRoomListRequest`: the page is not negative. -/
structure ChGetRoomListRequest where
  roomListType : Nat
  page : Nat

inductive RoomCommandPayload where
  | list (request : ChGetRoomListRequest)
  | create (request : ChCreateRoomRequest) (participant : RoomParticipant)
  | join (request : ChJoinRoomRequest) (participant : RoomParticipant)
  | leave
  | firstState

def expectedRoomGameType (channelGameType : Nat) : Option Nat :=
  if channelGameType ∈ [67, 23, 14] then some 1
  else if channelGameType ∈ [65, 8] then some 2
  else if channelGameType ∈ [68, 24, 13] then some 3
  else if channelGameType ∈ [66, 7] then some 4
  else none

/-- The game type of the rooms of a channel. -/
def ChannelBinding.roomGameType (channel : ChannelBinding) : Option Nat := expectedRoomGameType channel.gameType.toNat

def channelDefaultSpeedType (channelGameType : Nat) : Nat :=
  if channelGameType ∈ [23, 24] then 4 else 7

/-- An ASCII letter or digit. -/
def isAsciiAlphanumeric (b : UInt8) : Bool :=
  (48 ≤ b && b ≤ 57) || (65 ≤ b && b ≤ 90) || (97 ≤ b && b ≤ 122)

/-- `csharp_room_title_speed_type` from a byte on, with whether the byte before it is alphanumeric. -/
def titleSpeedType (afterAlphanumeric : Bool) : List UInt8 → Option Nat
  | s :: d :: rest =>
    if (s = 83 ∨ s = 115) ∧ 48 ≤ d ∧ d ≤ 56 ∧ afterAlphanumeric = false ∧ (rest.head?.any isAsciiAlphanumeric) = false then
      [3, 0, 1, 2, 4, 5, 6, 7, 8][(d - 48).toNat]?
    else titleSpeedType (isAsciiAlphanumeric s) (d :: rest)
  | _ => none

def csharpRoomTitleSpeedType (roomName : String) : Option Nat := titleSpeedType false roomName.toUTF8.toList

namespace World

/-- `room_protocol` replies in one batch to the session. -/
def reply (U : Unicode) (hub : HubReleases) (now : Instant) (session : SessionId) (packets : OutboundBatch) : WorldAct Unit :=
  deliver U hub now [(session, packets)]

/-! ## The list -/

/-- The rooms of a channel and a game type, in the order of their ids. -/
def channelRooms (w : World) (channel : ChannelBinding) (gameType : Nat) : List ProtocolRoomState :=
  (w.protocolRooms.values.filter (fun room =>
    room.settings.channel = channel ∧ room.settings.gameType = gameType)).mergeSort (fun a b => a.id.get ≤ b.id.get)

def protocolRoomList (U : Unicode) (hub : HubReleases) (now : Instant) (session : SessionId) (identity : IdentityBinding)
    (request : ChGetRoomListRequest) : WorldAct Unit := do
  let w ← get
  let rooms := match identity.channel with
    | some channel =>
      if channel.roomGameType = some request.roomListType then
        ((w.channelRooms channel request.roomListType).drop (request.page * 10)).take 10
      else []
    | none => []
  let entries ← ofExcept (Checks.traverse (fun room : ProtocolRoomState => room.listEntry) rooms)
  let packet ← ofExcept ((serializeChGetRoomListReply request.page entries).mapError (fun e => .error (.roomProtocol e)))
  reply U hub now session [packet]

/-! ## Entering a room -/

def prepareParticipant (w : World) (identity : IdentityBinding) (participant : RoomParticipant) : RoomParticipant :=
  let endpoint := legacyP2pEndpoint identity.sourceIp ((w.observedP2pPort identity).getD participant.player.p2pPort)
  { participant with player := { participant.player with
      userNo := identity.userNo.get
      nickname := identity.nickname
      p2pAddress := endpoint.1
      p2pPort := endpoint.2 } }

/-- A room id that is taken neither by a protocol room nor by another. -/
def roomIdFree (w : World) (id : Nat) : Bool := ⟨id⟩ ∉ w.rooms && (w.protocolRooms.lookup ⟨id⟩).isNone

/-- The first part of `allocate_protocol_room_id`: take ids from the free ones, smallest first, until one is not taken. The
list holds the free ids in order; the result is the id found and the free ids that are left. -/
def takeFreeRoomId (w : World) : List Nat → Option Nat × List Nat
  | [] => (none, [])
  | id :: rest => if w.roomIdFree id then (some id, rest) else takeFreeRoomId w rest

/-- The second part: look for an id from a candidate on, around the 16 bits. -/
def scanRoomId (w : World) : Nat → Nat → Option Nat
  | 0, _ => none
  | fuel + 1, candidate =>
    if w.roomIdFree candidate then some candidate
    else scanRoomId w fuel (max ((candidate + 1) % 2 ^ 16) 1)

/-- Where `allocate_protocol_room_id` begins to look. -/
def firstRoomIdCandidate (w : World) : Nat := if w.nextRoomId < 2 ^ 16 ∧ w.nextRoomId ≠ 0 then w.nextRoomId else 1

def allocateProtocolRoomId : WorldAct (Option RoomId) := do
  let w ← get
  let found := takeFreeRoomId w (w.freeProtocolRoomIds.sort (· ≤ ·))
  modify (fun w => { w with freeProtocolRoomIds := found.2.toFinset })
  match found.1 with
  | some id => pure (some ⟨id⟩)
  | none =>
    match scanRoomId w 65535 w.firstRoomIdCandidate with
    | some id => do
      modify (fun w => { w with nextRoomId := if id = 65535 then 1 else id + 1 })
      pure (some ⟨id⟩)
    | none => pure none

/-- The settings of a room that is created. -/
def createdSettings (channel : ChannelBinding) (request : ChCreateRoomRequest) : RoomSettings where
  channel := channel
  roomName := request.roomName
  password := request.password
  gameType := request.gameType
  speedType := (csharpRoomTitleSpeedType request.roomName).getD (channelDefaultSpeedType channel.gameType.toNat)
  track := 0
  roomDataHeader := request.roomDataHeader
  roomData := request.roomData

/-- The world with a room in its place that a user is a member of. -/
def withMember (w : World) (userNo : UserNo) (roomId : RoomId) (room : ProtocolRoomState) : World :=
  { w.withRoom roomId room with protocolRoomByUser := w.protocolRoomByUser.insert userNo roomId }

/-- An id goes back to the free ones. -/
def freeRoomId (roomId : RoomId) : WorldAct Unit := do
  require (roomId.get < 2 ^ 16) (.panic "protocol room ID fits in u16")
  modify (fun w => { w with freeProtocolRoomIds := insert roomId.get w.freeProtocolRoomIds })

/-- The creation of a room under an id, once it is accepted. -/
def createRoomAt (identity : IdentityBinding) (channel : ChannelBinding) (request : ChCreateRoomRequest)
    (participant : RoomParticipant) (roomId : RoomId) : WorldAct CreateRoomOutcome := do
  let w ← get
  match (ProtocolRoomState.new roomId (createdSettings channel request)).addParticipant identity.userNo
    (w.prepareParticipant identity participant) with
  | none => do
    freeRoomId roomId
    pure .rejected
  | some room =>
    match serializeGrSlotData room.slotData with
    | .error e => do
      freeRoomId roomId
      fail (.error (.roomProtocol e))
    | .ok _ => do
      modify (fun w => w.withMember identity.userNo roomId room)
      pure .created

/-- A player may create a room of its channel's game type when it is in no room. -/
def mayCreate (w : World) (identity : IdentityBinding) (gameType : Nat) : Bool :=
  identity.channel.bind ChannelBinding.roomGameType = some gameType &&
    (w.protocolRoomByUser.lookup identity.userNo).isNone

def protocolCreateRoom (U : Unicode) (hub : HubReleases) (now : Instant) (session : SessionId) (identity : IdentityBinding)
    (request : ChCreateRoomRequest) (participant : RoomParticipant) : WorldAct Unit := do
  let w ← get
  let outcome ← (if w.mayCreate identity request.gameType then do
      let roomId ← allocateProtocolRoomId
      match roomId with
      | none => pure .rejected
      | some roomId => do
        let channel ← orFail identity.channel (.panic "accepted room creation has a selected channel")
        createRoomAt identity channel request participant roomId
    else pure .rejected)
  reply U hub now session [.createRoomReply outcome request.gameType]

/-- A room is in its lobby and belongs to the channel of a player. -/
def mayJoin (room : ProtocolRoomState) (identity : IdentityBinding) : Bool :=
  room.phase = .lobby && identity.channel.any (fun channel =>
    room.settings.channel = channel && channel.roomGameType = some room.settings.gameType)

/-- What `protocol_join_room` answers, and the room with the participant when it is let in. -/
def joinOutcome (w : World) (identity : IdentityBinding) (request : ChJoinRoomRequest) (participant : RoomParticipant) :
    Except (Fault WorldError) (JoinRoomStatus × Nat × Option ProtocolRoomState) :=
  match w.protocolRooms.lookup ⟨request.roomId.toNat⟩ with
  | none => .ok (.unavailable, 0, none)
  | some room =>
    if !mayJoin room identity then .ok (.unavailable, room.settings.gameType, none)
    else if room.settings.password ≠ "" ∧ room.settings.password ≠ request.password then
      .ok (.wrongPassword, room.settings.gameType, none)
    else if (w.protocolRoomByUser.lookup identity.userNo).isSome then .ok (.full, room.settings.gameType, none)
    else
      match room.addParticipant identity.userNo (w.prepareParticipant identity participant) with
      | none => .ok (.full, room.settings.gameType, none)
      | some next =>
        match serializeGrSlotData next.slotData with
        | .error e => .error (.error (.roomProtocol e))
        | .ok _ => .ok (.success, next.settings.gameType, some next)

def protocolJoinRoom (U : Unicode) (hub : HubReleases) (now : Instant) (session : SessionId) (identity : IdentityBinding)
    (request : ChJoinRoomRequest) (participant : RoomParticipant) : WorldAct Unit := do
  let outcome ← reads (fun w => w.joinOutcome identity request participant)
  match outcome.2.2 with
  | some next => modify (fun w => w.withMember identity.userNo ⟨request.roomId.toNat⟩ next)
  | none => pure ()
  reply U hub now session [.joinRoomReply outcome.1 outcome.2.1]

/-! ## In a room -/

def protocolLeaveRoom (U : Unicode) (hub : HubReleases) (now : Instant) (session : SessionId) (identity : IdentityBinding) :
    WorldAct Unit := do
  let w ← get
  if (w.protocolRoomByUser.lookup identity.userNo).isSome then do
    let deliveries ← removeProtocolUser identity.userNo
    deliver U hub now ((session, [.leaveRoomReply true]) :: deliveries)
  else reply U hub now session [.leaveRoomReply false]

def protocolFirstState (U : Unicode) (hub : HubReleases) (now : Instant) (session : SessionId) (identity : IdentityBinding) :
    WorldAct Unit := do
  let w ← get
  match w.protocolRoomByUser.lookup identity.userNo with
  | none => pure ()
  | some roomId => do
    let room ← memberRoom roomId
    let initial ← ofExcept ((serializeInitialRoomState room.sessionData room.slotData).mapError
      (fun e => .error (.roomProtocol e)))
    reply U hub now session [initial.1, initial.2]

def roomProtocol (U : Unicode) (hub : HubReleases) (now : Instant) (session : SessionId) (payload : RoomCommandPayload) :
    WorldAct Unit := do
  let identity ← authorizedIdentity U session
  match payload with
  | .list request => protocolRoomList U hub now session identity request
  | .create request participant => protocolCreateRoom U hub now session identity request participant
  | .join request participant => protocolJoinRoom U hub now session identity request participant
  | .leave => protocolLeaveRoom U hub now session identity
  | .firstState => protocolFirstState U hub now session identity

/-! ## How a member looks -/

/-- The room of a user with an edit of the user's own member, when the user is in a room. -/
def withLook (w : World) (userNo : UserNo) (edit : ProtocolRoomState → Option ProtocolRoomState) : World :=
  match w.protocolRoomByUser.lookup userNo with
  | none => w
  | some roomId =>
    match (w.protocolRooms.lookup roomId).bind edit with
    | none => w
    | some next => w.withRoom roomId next

/-- `commit_room_equipment` after `plan_room_equipment`: the others in the room are told of a new equipment. -/
def publishEquipment (U : Unicode) (hub : HubReleases) (now : Instant) (userNo : UserNo) (snapshot : Vector UInt8 65)
    (packet : List UInt8) : WorldAct Unit := do
  let w ← get
  match (w.protocolRoomByUser.lookup userNo).bind w.protocolRooms.lookup with
  | none => pure ()
  | some room =>
    if (room.equipmentPlayerId userNo).isNone then pure ()
    else do
      modify (fun w => w.withLook userNo (·.setEquipmentSnapshot userNo snapshot))
      let recipients := room.userNos.filter (fun recipient => recipient ≠ userNo)
      deliver U hub now (w.deliveriesForUsers recipients [.foreign packet])

/-- `refresh_room_kart_physics`: the floaters of a member in a lobby. -/
def refreshRoomKartPhysics (U : Unicode) (session : SessionId) (floaterCodes : Vector Int 3) : WorldAct Unit := do
  let identity ← authorizedIdentity U session
  modify (fun w => w.withLook identity.userNo (fun room =>
    if room.phase = .lobby then room.setFloaterCodes identity.userNo floaterCodes else none))

/-- The part of `publish_durable_main_emblems` in the rooms. -/
def publishMainEmblems (expected : IdentityBinding) (emblem1 emblem2 emblem3 : Nat) : WorldAct Unit :=
  modify (fun w =>
    if w.identities.activeIdentityByUserNo expected.userNo = some expected then
      w.withLook expected.userNo (·.setMainEmblems expected.userNo emblem1 emblem2 emblem3)
    else w)

def recordObservedP2pPort (identity : IdentityBinding) (port : UInt16) : WorldAct Unit :=
  modify (fun w =>
    if w.identities.activeIdentityByUserNo identity.userNo = some identity ∧ w.observedP2pPort identity ≠ some port then
      let endpoint := legacyP2pEndpoint identity.sourceIp port
      { w with observedP2pPorts := w.observedP2pPorts.insert identity.userNo (identity, port) }.withLook identity.userNo
        (·.setP2pEndpoint identity.userNo endpoint.1 endpoint.2)
    else w)

end World

end P5136
