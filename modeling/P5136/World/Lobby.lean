import P5136.Race.Start
import P5136.World.Outbound

/-!
# Lobby commands

The commands of a player in a lobby. Each validates, makes the room it would leave, serializes what it tells the members,
reserves their queues, and only then puts the room in its place and publishes.
-/

namespace P5136

open Act Checks

/-- `StartRoomPlan`. Of the AI specifications only the number is kept. -/
structure StartRoomPlan where
  randomTrackCandidates : List Nat
  randomTracks : Option RandomTracks
  aiSpecs : Nat
  maximumPayloadLength : Nat

/-- `LobbyCommandPayload`. `draw` is the random number that a start draws. -/
inductive LobbyCommandPayload where
  | setSlotState (state : PlayerSlotState)
  | changeTeam (team : RoomTeam)
  | changeMaster (nickname : String)
  | startRoom (plan : StartRoomPlan) (draw : Nat)
  | changeTrack (request : ChangeTrackRequest)
  | basicAi (request : BasicAiRequest) (first second : RoomAi)
  | closeSlot (request : CloseSlotRequest)
  | riderTalk (message : String)
  | macroChat (request : MacroChatRequest) (resolvedMessage : String)
  | changeRoomInfo (request : ChangeRoomInfoRequest)
  | kick (targetPlayerId : Int)

inductive LobbyCommandOutcome where
  | slotStateChanged (roomId : RoomId) (playerId : Int) (state : PlayerSlotState)
  | teamChanged (roomId : RoomId) (playerId : Int) (team : RoomTeam) (slotId : Nat)
  | masterChanged (roomId : RoomId) (previousPlayerId nextPlayerId : Int)
  | started (roomId : RoomId) (raceEpoch concreteTrack racerCount observerCount : Nat)
  | trackChanged (roomId : RoomId) (track : Nat)
  | basicAiChanged (roomId : RoomId) (changed : Bool) (aiCount : Nat)
  | closedSlotsChanged (roomId : RoomId) (accepted : Bool) (closedCount : Nat)
  | messageRelayed (roomId : RoomId) (recipients : Nat)
  | roomInfoChanged (roomId : RoomId)
  | playerKicked (roomId : RoomId) (playerId : Int) (nickname : String)
deriving DecidableEq

namespace ProtocolRoomState

/-- The slot of a member id. -/
def slotOf (room : ProtocolRoomState) (id : MemberId) : Option SlotIndex :=
  firstIndex (fun slot => room.slotPositions slot = some id)

/-- Set the team and the state of a racer. -/
def setTeam (room : ProtocolRoomState) (id : MemberId) (team : Nat) (playerType : Int) : ProtocolRoomState :=
  { room with membersById := fun i => (room.membersById i).map (fun member =>
      if i = id then { member with player := { member.player with team := team, playerType := playerType } } else member) }

/-- The move of `change_team`: the room and the slot of the racer in it, when the team has room for it. -/
def moveToTeam (room : ProtocolRoomState) (id : MemberId) (current : SlotIndex) (team : RoomTeam) :
    Option (ProtocolRoomState × SlotIndex) :=
  if (room.membersById id).any (fun member => member.player.team = team.wire) then some (room, current)
  else
    (room.freeSlot team.wire).map (fun target =>
      ({ room.setTeam id team.wire PlayerSlotState.notReady.wire with
          slotPositions := Function.update (Function.update room.slotPositions current none) target (some id) }, target))

end ProtocolRoomState

namespace World

/-- What a lobby command does. -/
abbrev LobbyAct (α : Type) := Act World (Fault LobbyError) α

/-! ## What the commands share -/

/-- A value that must be there. -/
def orFail {ε α : Type} (o : Option α) (e : Fault ε) : Act World (Fault ε) α := ofExcept (orElse o e)

def protocolRoomId (identity : IdentityBinding) : LobbyAct RoomId :=
  reads (fun w => orElse (w.protocolRoomByUser.lookup identity.userNo) (.error .notInRoom))

/-- The room of a membership. -/
def memberRoom {ε : Type} (roomId : RoomId) : Act World (Fault ε) ProtocolRoomState :=
  reads (fun w => orElse (w.protocolRooms.lookup roomId)
    (.panic "protocol membership always references an existing room"))

def requireLobby (room : ProtocolRoomState) : LobbyAct Unit :=
  require (room.phase = .lobby) (.error (.notLobby room.phase))

def requireLobbyMaster (room : ProtocolRoomState) (userNo : UserNo) : LobbyAct Int := do
  requireLobby room
  let playerId ← orFail (room.equipmentPlayerId userNo) (.error .humanRacerRequired)
  require (room.roomMaster = playerId) (.error .notRoomMaster)
  pure playerId

/-- A packet of the lobby protocol. -/
def lobbyPacket (packet : Except LobbyProtocolError Packet) : LobbyAct Packet :=
  ofExcept (packet.mapError (fun e => .error (.protocol e)))

/-- The slot data of a room. -/
def slotDataPacket (room : ProtocolRoomState) : LobbyAct Packet :=
  ofExcept ((serializeGrSlotData room.slotData).mapError (fun e => .error (.roomProtocol e)))

/-- The members of a room with their sessions. -/
def roomSessions (room : ProtocolRoomState) : LobbyAct (List (UserNo × SessionId)) :=
  reads (fun w => (w.activeRoomSessions room).mapError (fun userNo => .error (.inactiveRosterMember userNo.get)))

def sameBatchForRoom (room : ProtocolRoomState) (batch : OutboundBatch) : LobbyAct (List OutboundDelivery) := do
  let sessions ← roomSessions room
  pure (sessions.map (fun member => (member.2, batch)))

def requesterThenRoomSnapshot (room : ProtocolRoomState) (requester : UserNo) (requesterPacket roomSnapshot : Packet) :
    LobbyAct (List OutboundDelivery) := do
  let sessions ← roomSessions room
  pure (sessions.map (fun member =>
    (member.2, if member.1 = requester then [requesterPacket, roomSnapshot] else [roomSnapshot])))

def reserveOutbound (deliveries : List OutboundDelivery) : LobbyAct Unit := reserve .outboundUnavailable deliveries

/-- The world with a room put in its place. -/
def withRoom (w : World) (roomId : RoomId) (room : ProtocolRoomState) : World :=
  { w with protocolRooms := w.protocolRooms.insert roomId room }

/-- The rooms after a room was put in its place. -/
@[simp] theorem lookup_withRoom (w : World) (roomId i : RoomId) (room : ProtocolRoomState) :
    AList.lookup i (w.withRoom roomId room).protocolRooms = if i = roomId then some room else w.protocolRooms.lookup i :=
  FiniteMap.lookup_insert _ _ _ _

/-- The room that was put in its place is there. -/
theorem lookup_withRoom_self (w : World) (roomId : RoomId) (room : ProtocolRoomState) :
    AList.lookup roomId (w.withRoom roomId room).protocolRooms = some room := by
  rw [lookup_withRoom, if_pos rfl]

/-- Put a room in its place. -/
def putRoom {ε : Type} (roomId : RoomId) (room : ProtocolRoomState) : Act World (Fault ε) Unit :=
  modify (fun w => w.withRoom roomId room)

/-- Put a room in its place when it changed. -/
def putRoomIf {ε : Type} (changed : Bool) (roomId : RoomId) (room : ProtocolRoomState) : Act World (Fault ε) Unit :=
  modify (fun w => if changed then w.withRoom roomId room else w)

/-! ## The commands -/

def setSlotState (identity : IdentityBinding) (state : PlayerSlotState) : LobbyAct LobbyCommandOutcome := do
  let roomId ← protocolRoomId identity
  let room ← memberRoom roomId
  requireLobby room
  require ((room.observerId identity.userNo).isNone) (.error .humanRacerRequired)
  require (state ≠ .observer) (.error .observerStateServerOwned)
  require (state ≠ .preparing) (.error .preparingStateServerOwned)
  let memberId ← orFail (room.memberId identity.userNo) (.error .humanRacerRequired)
  let next := room.setPlayerType memberId state.wire
  let statePacket ← lobbyPacket (serializeSlotState next.slotStates)
  let replyPacket ← lobbyPacket (serializeSetSlotStateReply identity.userNo.get true memberId.val state)
  let slotPacket ← slotDataPacket next
  let deliveries ← sameBatchForRoom next [statePacket, replyPacket, slotPacket]
  reserveOutbound deliveries
  putRoom roomId next
  publishReserved deliveries
  pure (.slotStateChanged roomId memberId.val state)

def changeTeam (identity : IdentityBinding) (team : RoomTeam) : LobbyAct LobbyCommandOutcome := do
  let roomId ← protocolRoomId identity
  let room ← memberRoom roomId
  requireLobby room
  require (room.settings.teamMode) (.error .teamModeRequired)
  let memberId ← orFail (room.memberId identity.userNo) (.error .humanRacerRequired)
  let currentSlot ← orFail (room.slotOf memberId) (.panic "every human racer occupies exactly one physical slot")
  let moved ← orFail (room.moveToTeam memberId currentSlot team) (.error (.teamFull team))
  let teamPacket ← lobbyPacket (serializeChangeTeamReply memberId.val team moved.1.wireSlotPositions)
  let slotPacket ← slotDataPacket moved.1
  let deliveries ← requesterThenRoomSnapshot moved.1 identity.userNo teamPacket slotPacket
  reserveOutbound deliveries
  putRoom roomId moved.1
  publishReserved deliveries
  pure (.teamChanged roomId memberId.val team moved.2.val)

def changeMaster (U : Unicode) (identity : IdentityBinding) (targetNickname : String) : LobbyAct LobbyCommandOutcome := do
  let roomId ← protocolRoomId identity
  let room ← memberRoom roomId
  requireLobby room
  let requesterId ← orFail (room.memberId identity.userNo) (.error .humanRacerRequired)
  require (room.roomMaster = requesterId.val) (.error .notRoomMaster)
  let targetKey := canonicalNicknameKey U targetNickname
  let targetId ← orFail
    (firstIndex (fun id => (room.membersById id).any (fun member =>
      canonicalNicknameKey U member.player.nickname = targetKey)))
    (.error (.invalidMasterTarget targetNickname))
  let next := { (room.setPlayerType requesterId PlayerSlotState.notReady.wire).setPlayerType targetId
    PlayerSlotState.notReady.wire with roomMaster := targetId.val }
  let slotPacket ← slotDataPacket next
  let deliveries ← sameBatchForRoom next [slotPacket]
  reserveOutbound deliveries
  putRoom roomId next
  publishReserved deliveries
  pure (.masterChanged roomId room.roomMaster targetId.val)

def changeTrack (identity : IdentityBinding) (request : ChangeTrackRequest) : LobbyAct LobbyCommandOutcome := do
  let roomId ← protocolRoomId identity
  let room ← memberRoom roomId
  let _ ← requireLobbyMaster room identity.userNo
  let next := { room with settings := { room.settings with
    track := request.track, roomDataHeader := request.roomDataHeader, roomData := request.roomData } }
  let slotPacket ← slotDataPacket next
  let deliveries ← sameBatchForRoom next [slotPacket]
  reserveOutbound deliveries
  putRoom roomId next
  publishReserved deliveries
  pure (.trackChanged roomId request.track)

/-- What `change_basic_ai` does to a room: an AI that is there is removed, otherwise AIs are added when there are places. The
packet tells of the change. -/
def basicAiChange (room : ProtocolRoomState) (request : BasicAiRequest) (first second : RoomAi) :
    LobbyAct (Option (Packet × ProtocolRoomState)) := do
  let removed ← ofExcept (room.removeAi request.playerId)
  match removed with
  | some (playerId, next) =>
    let packet ← lobbyPacket (serializeBasicAiRemoved playerId next.wireSlotPositions)
    pure (some (packet, next))
  | none =>
    match room.addBasicAis first second with
    | none => pure none
    | some (added, next) =>
      let packet ← lobbyPacket (serializeBasicAiAdded added next.wireSlotPositions)
      pure (some (packet, next))

def changeBasicAi (identity : IdentityBinding) (request : BasicAiRequest) (first second : RoomAi) :
    LobbyAct LobbyCommandOutcome := do
  let roomId ← protocolRoomId identity
  let room ← memberRoom roomId
  let _ ← requireLobbyMaster room identity.userNo
  let change ← basicAiChange room request first second
  let next := (change.map (·.2)).getD room
  let batch := (change.map (·.1)).toList ++ [.basicAiReply change.isSome]
  let deliveries ← sameBatchForRoom next batch
  reserveOutbound deliveries
  putRoomIf change.isSome roomId next
  publishReserved deliveries
  pure (.basicAiChanged roomId change.isSome next.aiCount)

def changeClosedSlots (identity : IdentityBinding) (request : CloseSlotRequest) : LobbyAct LobbyCommandOutcome := do
  let roomId ← protocolRoomId identity
  let room ← memberRoom roomId
  let _ ← requireLobbyMaster room identity.userNo
  let change := room.setCloseSlots request
  let next := change.getD room
  let secondMemberId := if room.settings.teamMode then request.secondMemberId else request.firstMemberId
  let reply ← lobbyPacket (serializeCloseSlotReply identity.userNo.get change.isSome request.firstMemberId
    secondMemberId request.operation next.closedSlotIds)
  let deliveries ← sameBatchForRoom next [reply]
  reserveOutbound deliveries
  putRoomIf change.isSome roomId next
  publishReserved deliveries
  pure (.closedSlotsChanged roomId change.isSome next.closedSlotIds.length)

def changeRoomInfo (identity : IdentityBinding) (request : ChangeRoomInfoRequest) : LobbyAct LobbyCommandOutcome := do
  let roomId ← protocolRoomId identity
  let room ← memberRoom roomId
  let _ ← requireLobbyMaster room identity.userNo
  let next := { room with settings := { room.settings with roomName := request.roomName, password := request.password } }
  let reply ← lobbyPacket (serializeChangeRoomInfoReply request)
  let deliveries ← sameBatchForRoom next [reply]
  reserveOutbound deliveries
  putRoom roomId next
  publishReserved deliveries
  pure (.roomInfoChanged roomId)

/-- The target of a kick. -/
def kickTarget (room : ProtocolRoomState) (targetPlayerId : Int) : Option ProtocolRoomMember :=
  if h : 0 ≤ targetPlayerId ∧ targetPlayerId < 8 then room.membersById ⟨targetPlayerId.toNat, memberId_lt h⟩ else none

/-- The world after a user was taken out of a room in its lobby. -/
def withoutKicked (w : World) (roomId : RoomId) (userNo : UserNo) (next : ProtocolRoomState) : World :=
  let w := { w with protocolRoomByUser := w.protocolRoomByUser.erase userNo }
  if next.isEmpty then
    { w with
      protocolRooms := w.protocolRooms.erase roomId
      freeProtocolRoomIds := insert roomId.get w.freeProtocolRoomIds }
  else w.withRoom roomId next

def kickPlayer (identity : IdentityBinding) (targetPlayerId : Int) : LobbyAct LobbyCommandOutcome := do
  let roomId ← protocolRoomId identity
  let room ← memberRoom roomId
  let _ ← requireLobbyMaster room identity.userNo
  let target ← orFail (kickTarget room targetPlayerId) (.error (.invalidKickTarget targetPlayerId))
  let targetIdentity ← reads (fun w => orElse (w.identities.activeIdentityByUserNo target.userNo)
    (.error (.inactiveRosterMember target.userNo.get)))
  let next := (room.removeUser target.userNo).getD room
  let broadcast ← lobbyPacket (serializeKickBroadcast target.player.nickname)
  let slotPacket ← slotDataPacket next
  let sessions ← roomSessions next
  let toMembers := sessions.map (fun member => (member.2,
    if member.1 = identity.userNo then [broadcast, .kickReply, slotPacket] else [broadcast, slotPacket]))
  let toTarget := (targetIdentity.owner,
    if target.userNo = identity.userNo then [.leaveRoomReply true, .kickReply] else [.leaveRoomReply true])
  let deliveries := toMembers ++ [toTarget]
  reserveOutbound deliveries
  require (next.isEmpty → roomId.get < 2 ^ 16) (.panic "protocol room ID fits in u16")
  modify (fun w => w.withoutKicked roomId target.userNo next)
  publishReserved deliveries
  pure (.playerKicked roomId targetPlayerId target.player.nickname)

def relayRiderTalk (identity : IdentityBinding) (message : String) : LobbyAct LobbyCommandOutcome := do
  let roomId ← protocolRoomId identity
  let room ← memberRoom roomId
  let playerId ← orFail (room.equipmentPlayerId identity.userNo) (.error .humanRacerRequired)
  let packet ← lobbyPacket (serializeRiderEcho playerId message)
  let sessions ← roomSessions room
  let deliveries := (sessions.filter (fun member => member.1 ≠ identity.userNo)).map (fun member => (member.2, [packet]))
  reserveOutbound deliveries
  publishReserved deliveries
  pure (.messageRelayed roomId deliveries.length)

def relayMacroChat (identity : IdentityBinding) (request : MacroChatRequest) (resolvedMessage : String) :
    LobbyAct LobbyCommandOutcome := do
  let roomId ← protocolRoomId identity
  let room ← memberRoom roomId
  let sender ← orFail (room.memberByUserNo identity.userNo) (.error .humanRacerRequired)
  let packet ← lobbyPacket (serializeMacroChatRelay identity.userNo.get request.chatType request.messageId resolvedMessage)
  let sessions ← roomSessions room
  let heard := fun (member : UserNo × SessionId) => request.chatType = 0 ∨ sender.player.team = 0 ∨
    (room.memberByUserNo member.1).any (fun other => other.player.team = sender.player.team)
  let deliveries := (sessions.filter (fun member => member.1 ≠ identity.userNo ∧ heard member)).map
    (fun member => (member.2, [packet]))
  reserveOutbound deliveries
  publishReserved deliveries
  pure (.messageRelayed roomId deliveries.length)

/-! ## Starting a race -/

def selectStartTrack (room : ProtocolRoomState) (plan : StartRoomPlan) (draw : Nat) :
    Except LobbyError (Nat × ProtocolRoomState) :=
  let catalog := match plan.randomTracks with
    | some randomTracks => randomTracks room.settings.gameType room.settings.track (room.aiCount ≠ 0)
    | none => []
  room.selectConcreteTrack (if catalog = [] then plan.randomTrackCandidates else catalog) draw

/-- The check of `validate_start_racers` at a racer. -/
def validateStartRacer (w : World) (requesterPlayerId : Int) (entry : MemberId × ProtocolRoomMember) :
    Except LobbyError Unit := do
  ensure ((entry.1.val : Int) = requesterPlayerId ∨ entry.2.player.playerType = PlayerSlotState.ready.wire)
    (.racerNotReady entry.2.userNo.get)
  match w.rewardLanes.lookup entry.2.userNo with
  | none => .ok ()
  | some fence => .error (.rewardLaneOccupied entry.2.userNo.get fence.roomId.get fence.raceEpoch.get)

def validateStartRacers (w : World) (room : ProtocolRoomState) (requesterPlayerId : Int) : Except LobbyError Nat := do
  ensure (room.members.length ≠ 0) .noRacers
  all (validateStartRacer w requesterPlayerId) room.members
  .ok room.members.length

/-- What the start of a race tells a participant. -/
def startDelivery (room : ProtocolRoomState) (requester : UserNo) (plan : StartRoomPlan) (concreteTrack : Nat)
    (participant : FrozenRaceParticipant) : Except (Fault LobbyError) OutboundDelivery := do
  let _ ← orElse (room.memberByUserNo participant.identity.userNo)
    (.panic "a frozen participant originated from this room")
  let command ← (serializeGrCommandStartBounded
    { sessionData := room.sessionData
      slotData := { room.slotData with track := concreteTrack }
      aiSpecs := room.aiCount
      concreteTrack := concreteTrack } plan.maximumPayloadLength).mapError (fun e => .error (.raceStart e))
  .ok (participant.identity.owner,
    if participant.identity.userNo = requester then [.startRoomReply .success, command] else [command])

/-- The room when its race starts to load. -/
def startedRoom (room : ProtocolRoomState) (frozen : FrozenRaceRoster) : ProtocolRoomState :=
  { room with
    phase := .loading
    raceFence := some frozen.fence
    frozenRace := some frozen
    raceProgress := .fresh
    loadingHandshake := .dormant }

/-- The lanes with those of the human racers of a race. -/
def ownedLanes (lanes : FiniteMap UserNo RaceFence) (frozen : FrozenRaceRoster) : FiniteMap UserNo RaceFence :=
  frozen.racers.foldl (fun lanes participant => lanes.insert participant.identity.userNo frozen.fence) lanes

/-- The world when a race starts to load: its human racers own their lanes, and the epoch is spent. -/
def withStarted (w : World) (roomId : RoomId) (room : ProtocolRoomState) (frozen : FrozenRaceRoster) : World :=
  { (w.withRoom roomId (startedRoom room frozen)).logged (.started frozen) with
    rewardLanes := ownedLanes w.rewardLanes frozen
    nextRaceEpoch := frozen.fence.raceEpoch.following }

def startRoom (identity : IdentityBinding) (plan : StartRoomPlan) (draw : Nat) : LobbyAct LobbyCommandOutcome := do
  let w ← get
  require (w.quiescing = false) (.error .worldQuiescing)
  let roomId ← protocolRoomId identity
  let room ← memberRoom roomId
  let requesterPlayerId ← requireLobbyMaster room identity.userNo
  require (plan.aiSpecs = 0) (.error .aiParticipantsUnsupported)
  let racerCount ← ofExcept ((validateStartRacers w room requesterPlayerId).mapError Fault.error)
  let raceEpoch ← orFail w.nextRaceEpoch (.error .raceEpochExhausted)
  let selected ← ofExcept ((selectStartTrack room plan draw).mapError Fault.error)
  let frozen ← ofExcept ((room.freezeRaceRoster w.identities.activeIdentityByUserNo ⟨roomId, raceEpoch⟩
    selected.1).mapError Fault.error)
  let deliveries ← ofExcept (Checks.traverse (startDelivery room identity.userNo plan selected.1) frozen.participants)
  reserveOutbound deliveries
  modify (fun w => w.withStarted roomId selected.2 frozen)
  publishReserved deliveries
  pure (.started roomId raceEpoch.get selected.1 racerCount (frozen.participants.filter (·.observer)).length)

def publishStartRejection (session : SessionId) : LobbyAct Unit := do
  let deliveries := [(session, [.startRoomReply .notAllReady])]
  reserveOutbound deliveries
  publishReserved deliveries

/-- `lobby_command` with a start: any failure but a missing queue is told to the requester. -/
def startCommand (session : SessionId) (identity : IdentityBinding) (plan : StartRoomPlan) (draw : Nat) :
    LobbyAct LobbyCommandOutcome :=
  recover (startRoom identity plan draw) (fun e =>
    match e with
    | .error (.outboundUnavailable s) => fail (.error (.outboundUnavailable s))
    | .error error => do
      publishStartRejection session
      fail (.error error)
    | .panic message => fail (.panic message))

/-! ## Dispatch -/

/-- The plan of a start: the live random tracks of the world replace those of the plan. -/
def livePlan (w : World) (plan : StartRoomPlan) : StartRoomPlan :=
  if w.randomTracks.isSome then { plan with randomTracks := w.randomTracks } else plan

/-- The command of a payload. -/
def lobbyDispatch (U : Unicode) (session : SessionId) (identity : IdentityBinding) :
    LobbyCommandPayload → LobbyAct LobbyCommandOutcome
  | .setSlotState state => setSlotState identity state
  | .changeTeam team => changeTeam identity team
  | .changeMaster nickname => changeMaster U identity nickname
  | .startRoom plan draw => do
    let w ← get
    startCommand session identity (w.livePlan plan) draw
  | .changeTrack request => changeTrack identity request
  | .basicAi request first second => changeBasicAi identity request first second
  | .closeSlot request => changeClosedSlots identity request
  | .riderTalk message => relayRiderTalk identity message
  | .macroChat request resolvedMessage => relayMacroChat identity request resolvedMessage
  | .changeRoomInfo request => changeRoomInfo identity request
  | .kick targetPlayerId => kickPlayer identity targetPlayerId

/-- An error of a part of the world. -/
def liftFault {ε : Type} (f : ε → WorldError) : Fault ε → Fault WorldError
  | .error e => .error (f e)
  | .panic message => .panic message

/-- The identity that a session acts for. -/
def authorizedIdentity (U : Unicode) (session : SessionId) : Act World (Fault WorldError) IdentityBinding :=
  reads (fun w => (w.authorizeSessionOperation U session).mapError (fun e => .error (.identity e)))

def lobbyCommand (U : Unicode) (session : SessionId) (payload : LobbyCommandPayload) :
    Act World (Fault WorldError) LobbyCommandOutcome := do
  let identity ← authorizedIdentity U session
  mapError (liftFault .lobby) (lobbyDispatch U session identity payload)

end World

end P5136
