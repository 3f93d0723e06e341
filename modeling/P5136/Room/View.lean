import P5136.Room.Seats

/-!
# What a room shows

The packets' views of a room: slot states, positions, session data, slot data and its entry in the list of rooms. Then the edits
that change only how a member looks: equipment, emblems, endpoint and floaters.
-/

namespace P5136

/-! ## Frozen equipment -/

/-- The little-endian 16-bit value at an offset of an equipment snapshot. -/
def snapshotU16 (snapshot : Vector UInt8 65) (offset : Nat) : Nat :=
  (snapshot.toArray.getD offset 0).toNat + 256 * (snapshot.toArray.getD (offset + 1) 0).toNat

/-- Change the first participant with a user number. -/
def FrozenRaceRoster.mapParticipant (userNo : UserNo) (f : FrozenRaceParticipant → FrozenRaceParticipant) :
    List FrozenRaceParticipant → List FrozenRaceParticipant
  | [] => []
  | participant :: rest =>
    if participant.identity.userNo = userNo then f participant :: rest
    else participant :: mapParticipant userNo f rest

/-- The kart and the character of an equipment snapshot, in a result. -/
def FrozenHumanResultSnapshot.reequip (snapshot : Vector UInt8 65) (result : FrozenHumanResultSnapshot) :
    FrozenHumanResultSnapshot :=
  { result with characterId := snapshotU16 snapshot 0, kartId := snapshotU16 snapshot 4 }

/-- The frozen kart and character of a user follow an equipment snapshot. -/
def FrozenRaceRoster.reequip (roster : FrozenRaceRoster) (userNo : UserNo) (snapshot : Vector UInt8 65) :
    FrozenRaceRoster :=
  let refit := fun (participant : FrozenRaceParticipant) =>
    { participant with result := participant.result.map (FrozenHumanResultSnapshot.reequip snapshot) }
  { roster with participants := mapParticipant userNo refit roster.participants }

namespace ProtocolRoomState

variable (room : ProtocolRoomState)

/-! ## Views -/

def slotStates (id : MemberId) : Int :=
  match room.membersById id with
  | some member => member.player.playerType
  | none =>
    if (room.aisById id).isSome then 7
    else if (room.closedSlotsById id).isSome then 1
    else 0

def wireSlotPositions (slot : SlotIndex) : Int :=
  match room.slotPositions slot with
  | some id => id.val
  | none => -1

def sessionData : RoomSessionData where
  roomName := room.settings.roomName
  password := room.settings.password
  gameType := room.settings.gameType
  speedType := room.settings.speedType

/-- A member id as `slot_data` shows it. -/
def wireMember (id : MemberId) : WireRoomMember :=
  match room.membersById id with
  | some member => .player member.player
  | none =>
    match room.aisById id with
    | some ai => .ai ai
    | none => if (room.closedSlotsById id).isSome then .closed 1 else .empty

/-- An observer as `slot_data` shows it. -/
def wireObserver (id : ObserverId) : Option RoomObserver :=
  (room.observers id).map (fun member =>
    { playerType := 4
      userNo := member.userNo.get
      p2pAddress := member.player.p2pAddress
      p2pPort := member.player.p2pPort
      nickname := member.player.nickname })

def slotData : RoomSlotData where
  track := room.settings.track
  roomDataHeader := room.settings.roomDataHeader
  roomData := room.settings.roomData
  roomMaster := room.roomMaster
  closedSlotIds := room.closedSlotIds
  membersById := room.wireMember
  observers := room.wireObserver
  slotPositions := room.wireSlotPositions

/-- `list_entry`. The id is kept as the 16 bits of the signed value on the wire. -/
def listEntry {ε : Type} : Except (Fault ε) RoomListEntry :=
  if 2 ^ 16 ≤ room.id.get then .error (.panic "protocol room IDs are always bounded to u16")
  else .ok
    { roomId := room.id.get
      roomName := room.settings.roomName
      track := room.settings.track
      locked := room.settings.password ≠ ""
      gameType := room.settings.gameType
      speedType := room.settings.speedType
      started := room.phase ≠ .lobby
      availableSlots := roomSlotCount
      playerCount := room.members.length }

/-! ## Presentation -/

/-- Change the member with a user number, a racer before an observer, when there is one. -/
def mapMember (userNo : UserNo) (f : ProtocolRoomMember → ProtocolRoomMember) : Option ProtocolRoomState :=
  match room.memberId userNo with
  | some id => some { room with membersById := Function.update room.membersById id ((room.membersById id).map f) }
  | none => (room.observerId userNo).map (fun id =>
      { room with observers := Function.update room.observers id ((room.observers id).map f) })

def setMainEmblems (userNo : UserNo) (emblem1 emblem2 emblem3 : Nat) : Option ProtocolRoomState :=
  room.mapMember userNo (fun member =>
    { member with player := { member.player with emblem1 := emblem1, emblem2 := emblem2, emblem3 := emblem3 } })

def setP2pEndpoint (userNo : UserNo) (address : BitVec 32) (port : UInt16) : Option ProtocolRoomState :=
  room.mapMember userNo (fun member =>
    { member with player := { member.player with p2pAddress := address, p2pPort := port } })

/-- The floaters that `refresh_room_kart_physics` sets. -/
def setFloaterCodes (userNo : UserNo) (floaterCodes : Vector Int 3) : Option ProtocolRoomState :=
  room.mapMember userNo (fun member => { member with floaterCodes := floaterCodes })

/-- `set_equipment_snapshot`: also the karts and characters of a frozen race follow the equipment. -/
def setEquipmentSnapshot (userNo : UserNo) (snapshot : Vector UInt8 65) : Option ProtocolRoomState :=
  (room.mapMember userNo (fun member =>
    { member with player := { member.player with riderItemSnapshot := snapshot } })).map (fun next =>
      { next with frozenRace := next.frozenRace.map (fun roster => roster.reequip userNo snapshot) })

end ProtocolRoomState

end P5136
