import P5136.Room.Wire

/-!
# Lobby and race packets

The requests of the lobby and race protocols, and the packets that the room actor sends. A serializer checks what it encodes
and returns the packet with its values.
-/

namespace P5136

open Checks

/-! ## Requests -/

/-- `PlayerSlotState`: its wire values are 2 to 5. -/
inductive PlayerSlotState where
  | notReady
  | ready
  | observer
  | preparing
deriving DecidableEq

/-- The wire value of a slot state. -/
def PlayerSlotState.wire : PlayerSlotState → Int
  | .notReady => 2
  | .ready => 3
  | .observer => 4
  | .preparing => 5

/-- `RoomTeam` and `RaceTeam`: red is 1 on the wire and blue is 2. -/
inductive RoomTeam where
  | red
  | blue
deriving DecidableEq

/-- The wire value of a team. -/
def RoomTeam.wire : RoomTeam → Nat
  | .red => 1
  | .blue => 2

structure ChangeTrackRequest where
  track : Nat
  roomDataHeader : Nat
  roomData : Vector UInt8 32
deriving DecidableEq

/-- `BasicAiRequest`, without its ignored option byte. -/
structure BasicAiRequest where
  playerId : Nat
deriving DecidableEq

inductive CloseSlotOperation where
  | opens
  | closes
deriving DecidableEq

def CloseSlotOperation.isClose : CloseSlotOperation → Bool
  | .opens => false
  | .closes => true

/-- `CloseSlotRequest`: the ids are unsigned 32-bit values of the client's choice. -/
structure CloseSlotRequest where
  firstMemberId : Nat
  operation : CloseSlotOperation
  firstSlotId : Nat
  secondMemberId : Nat
  secondSlotId : Nat
deriving DecidableEq

/-- `MacroChatRequest`, without the client's own text. -/
structure MacroChatRequest where
  chatType : Int
  messageId : Nat
deriving DecidableEq

structure ChangeRoomInfoRequest where
  roomName : String
  password : String
  limitTime : Int
  rKeyAllowed : Nat
deriving DecidableEq

inductive StartRoomStatus where
  | success
  | notAllReady
deriving DecidableEq

inductive CreateRoomOutcome where
  | rejected
  | created
deriving DecidableEq

inductive JoinRoomStatus where
  | success
  | unavailable
  | full
  | wrongPassword
deriving DecidableEq

/-- `GameControlRequest`: the state, and the value that a finish carries. -/
structure GameControlRequest where
  state : Int
  value0 : Nat
deriving DecidableEq

structure AiGoalInRequest where
  playerId : Int
  raceTime : Nat
deriving DecidableEq

inductive ServerGameControl where
  | raceStart
  | beginSettlement
  | finalStage
deriving DecidableEq

/-! ## Race results -/

structure HumanRaceResult where
  playerId : Int
  finishTime : Nat
  kartId : Nat
  rank : Int
  currentRp : Nat
  earnedRp : Nat
  earnedLucci : Nat
  currentLucci : Nat
  team : Option RoomTeam
  teamPoints : Int
  characterId : Nat
  clubMarkLogo : Int
deriving DecidableEq

structure AiRaceResult where
  playerId : Int
  finishTime : Nat
  kartId : Int
  rank : Int
  team : Option RoomTeam
  teamPoints : Int
deriving DecidableEq

structure GameResult where
  winningTeam : Option RoomTeam
  humans : List HumanRaceResult
  ais : List AiRaceResult
deriving DecidableEq

/-- `GrCommandStart`: what the start of a race tells a participant. -/
structure GrCommandStart where
  sessionData : RoomSessionData
  slotData : RoomSlotData
  aiSpecs : Nat
  concreteTrack : Nat
deriving DecidableEq

/-! ## Packets -/

/-- A packet to a session. `foreign` is one of the packets that other parts of the server send. -/
inductive Packet where
  | sessionData (session : RoomSessionData)
  | slotData (slots : RoomSlotData)
  | slotState (states : MemberId → Int)
  | setSlotStateReply (userNo : Nat) (accepted : Bool) (playerId : Int) (state : PlayerSlotState)
  | changeTeamReply (playerId : Int) (team : RoomTeam) (slotPositions : SlotIndex → Int)
  | basicAiAdded (ais : List (Int × RoomAi)) (slotPositions : SlotIndex → Int)
  | basicAiRemoved (playerId : Int) (slotPositions : SlotIndex → Int)
  | basicAiReply (changed : Bool)
  | closeSlotReply (userNo : Nat) (accepted : Bool) (firstMemberId secondMemberId : Nat) (closed : Bool)
      (closedSlotIds : List Nat)
  | riderEcho (playerId : Int) (message : String)
  | macroChatRelay (userNo : Nat) (chatType : Int) (messageId : Nat) (message : String)
  | changeRoomInfoReply (request : ChangeRoomInfoRequest)
  | kickBroadcast (nickname : String)
  | kickReply
  | startRoomReply (status : StartRoomStatus)
  | getRoomListReply (page : Int) (rooms : List RoomListEntry)
  | createRoomReply (outcome : CreateRoomOutcome) (gameType : Nat)
  | joinRoomReply (status : JoinRoomStatus) (gameType : Nat)
  | leaveRoomReply (left : Bool)
  | commandStart (command : GrCommandStart)
  | gameControl (control : ServerGameControl) (value0 : Nat)
  | aiMasterNotice
  | raceTime (playerId : Int) (raceTime : Nat)
  | teamBoosterGauge (team : RoomTeam) (gauge : UInt32)
  | nextStage (gameType : Nat)
  | gameResult (result : GameResult)
  | gameSlot (raw : List UInt8)
  | directItemAward (playerId : Nat) (itemId : Int) (tick : Nat)
  | foreign (payload : List UInt8)
deriving DecidableEq

/-! ## Errors -/

/-- The errors of the lobby protocol that serialization raises. -/
inductive LobbyProtocolError where
  | stringLimitExceeded (length maximum : Nat)
  | invalidPlayerId (playerId : Int)
  | invalidSnapshotSlotState (id : Nat) (state : Int)
  | invalidSlotPosition (index : Nat) (position : Int)
  | invalidRoomSlotId (slot : Nat)
  | duplicateRoomSlotId (slot : Nat)
  | basicAiCountLimit (actual maximum : Nat)
  | chatTooLong (actual maximum : Nat)
  | nicknameTooLong (actual maximum : Nat)
deriving DecidableEq

/-- The errors of the race-start codec. -/
inductive RaceStartProtocolError where
  | room (error : RoomProtocolError)
  | tooManyAi (actual maximum : Nat)
  | aiCountMismatch (slotCount specCount : Nat)
  | payloadTooLarge (actual maximum : Nat)
deriving DecidableEq

/-- The errors of the race protocol that serialization raises. -/
inductive RaceProtocolError where
  | invalidPlayerId (playerId : Int)
  | invalidBoosterGauge
deriving DecidableEq

/-- The errors of the race-result codec. -/
inductive RaceResultProtocolError where
  | tooManyParticipants (actual maximum : Nat)
  | invalidPlayerId (playerId : Int)
  | invalidRank (rank : Int)
  | rankOutsideParticipantCount (rank : Int) (participantCount : Nat)
  | duplicateRank (rank : Int)
  | duplicatePlayerId (playerId : Int)
  | inconsistentTeamMode
  | invalidTeamPoints (playerId points : Int)
  | winningTeamNotPresent
  | soloResultHasTeamPoints (playerId points : Int)
deriving DecidableEq

/-! ## Room packets -/

def serializeGrSessionData (session : RoomSessionData) : Except RoomProtocolError Packet :=
  (validateSessionData session).map (fun _ => .sessionData session)

def serializeGrSlotData (slots : RoomSlotData) : Except RoomProtocolError Packet :=
  (validateSlotData slots).map (fun _ => .slotData slots)

/-- `serialize_initial_room_state`: session data first, slot data second. -/
def serializeInitialRoomState (session : RoomSessionData) (slots : RoomSlotData) :
    Except RoomProtocolError (Packet × Packet) := do
  let sessionData ← serializeGrSessionData session
  let slotData ← serializeGrSlotData slots
  .ok (sessionData, slotData)

def serializeChGetRoomListReply (page : Int) (rooms : List RoomListEntry) : Except RoomProtocolError Packet := do
  ensure (0 ≤ page ∧ page ≤ maxRoomListPage) (.invalidPage page maxRoomListPage)
  enforceLimit "room-list entry" rooms.length maxRoomListEntries
  all validateListEntry rooms
  .ok (.getRoomListReply page rooms)

/-! ## Lobby packets -/

def validatePlayerId (playerId : Int) : Except LobbyProtocolError Unit :=
  ensure (0 ≤ playerId ∧ playerId ≤ 15) (.invalidPlayerId playerId)

def validateRacerPlayerId (playerId : Int) : Except LobbyProtocolError Unit :=
  ensure (0 ≤ playerId ∧ playerId < 8) (.invalidPlayerId playerId)

def validateSlotPositions (positions : SlotIndex → Int) : Except LobbyProtocolError Unit :=
  all (fun index => ensure (-1 ≤ positions index ∧ positions index ≤ 7)
    (LobbyProtocolError.invalidSlotPosition index (positions index))) (List.finRange 8)

/-- `validate_closed_slot_ids`, with the slots seen so far. -/
def validateClosedSlotIds (seen : List Nat) : List Nat → Except LobbyProtocolError Unit
  | [] => .ok ()
  | slot :: rest =>
    if roomSlotCount ≤ slot then .error (.invalidRoomSlotId slot)
    else if slot ∈ seen then .error (.duplicateRoomSlotId slot)
    else validateClosedSlotIds (slot :: seen) rest

def validateChat (message : String) : Except LobbyProtocolError Unit :=
  ensure (utf16Length message ≤ 256) (.chatTooLong (utf16Length message) 256)

def serializeSlotState (states : MemberId → Int) : Except LobbyProtocolError Packet := do
  all (fun id => ensure (states id ∈ [0, 1, 2, 3, 4, 5, 7])
    (LobbyProtocolError.invalidSnapshotSlotState id (states id))) (List.finRange 8)
  .ok (.slotState states)

def serializeSetSlotStateReply (userNo : Nat) (accepted : Bool) (playerId : Int) (state : PlayerSlotState) :
    Except LobbyProtocolError Packet := do
  validatePlayerId playerId
  .ok (.setSlotStateReply userNo accepted playerId state)

def serializeChangeTeamReply (playerId : Int) (team : RoomTeam) (positions : SlotIndex → Int) :
    Except LobbyProtocolError Packet := do
  validatePlayerId playerId
  validateSlotPositions positions
  .ok (.changeTeamReply playerId team positions)

def serializeBasicAiAdded (ais : List (Int × RoomAi)) (positions : SlotIndex → Int) : Except LobbyProtocolError Packet := do
  ensure (¬(ais = [] ∨ 2 < ais.length)) (.basicAiCountLimit ais.length 2)
  validateSlotPositions positions
  all (fun entry => validateRacerPlayerId entry.1) ais
  .ok (.basicAiAdded ais positions)

def serializeBasicAiRemoved (playerId : Int) (positions : SlotIndex → Int) : Except LobbyProtocolError Packet := do
  validateRacerPlayerId playerId
  validateSlotPositions positions
  .ok (.basicAiRemoved playerId positions)

def serializeCloseSlotReply (userNo : Nat) (accepted : Bool) (firstMemberId secondMemberId : Nat)
    (operation : CloseSlotOperation) (closedSlotIds : List Nat) : Except LobbyProtocolError Packet := do
  validateClosedSlotIds [] closedSlotIds
  .ok (.closeSlotReply userNo accepted firstMemberId secondMemberId (operation.isClose && accepted) closedSlotIds)

def serializeRiderEcho (playerId : Int) (message : String) : Except LobbyProtocolError Packet := do
  validatePlayerId playerId
  validateChat message
  .ok (.riderEcho playerId message)

def serializeMacroChatRelay (userNo : Nat) (chatType : Int) (messageId : Nat) (message : String) :
    Except LobbyProtocolError Packet := do
  validateChat message
  .ok (.macroChatRelay userNo chatType messageId message)

def serializeChangeRoomInfoReply (request : ChangeRoomInfoRequest) : Except LobbyProtocolError Packet := do
  ensure (utf16Length request.roomName ≤ maxRoomNameUtf16Units)
    (.stringLimitExceeded (utf16Length request.roomName) maxRoomNameUtf16Units)
  ensure (utf16Length request.password ≤ maxRoomPasswordUtf16Units)
    (.stringLimitExceeded (utf16Length request.password) maxRoomPasswordUtf16Units)
  .ok (.changeRoomInfoReply request)

def serializeKickBroadcast (nickname : String) : Except LobbyProtocolError Packet := do
  ensure (utf16Length nickname ≤ maxRiderNicknameUtf16Units)
    (.nicknameTooLong (utf16Length nickname) maxRiderNicknameUtf16Units)
  .ok (.kickBroadcast nickname)

/-! ## Race packets -/

/-- `serialize_race_start_slot_data`: the master is shown as ready. -/
def raceStartSlotData (slots : RoomSlotData) : RoomSlotData :=
  if h : 0 ≤ slots.roomMaster ∧ slots.roomMaster < 8 then
    let master : MemberId := ⟨slots.roomMaster.toNat, memberId_lt h⟩
    match slots.membersById master with
    | .player player =>
      if player.playerType = 2 then
        { slots with membersById := Function.update slots.membersById master (.player { player with playerType := 3 }) }
      else slots
    | _ => slots
  else slots

/-- The fixed bytes of a `GrCommandStartPacket`. -/
def commandStartFixedLength : Nat := 4 + 4 + 235 + 4 + 4 + 4 + 4 + 4 + 23

def serializeGrCommandStartBounded (command : GrCommandStart) (maximumPayloadLength : Nat) :
    Except RaceStartProtocolError Packet := do
  ensure (command.aiSpecs ≤ roomSlotCount) (.tooManyAi command.aiSpecs roomSlotCount)
  let slotAiCount := ((List.finRange 8).filter (fun id => match command.slotData.membersById id with
    | .ai _ => true
    | _ => false)).length
  ensure (slotAiCount = command.aiSpecs) (.aiCountMismatch slotAiCount command.aiSpecs)
  let _ ← (validateSessionData command.sessionData).mapError .room
  let slots := raceStartSlotData command.slotData
  let _ ← (validateSlotData slots).mapError .room
  let length := commandStartFixedLength + command.sessionData.wireLength + slots.wireLength + command.aiSpecs * 24
  ensure (length ≤ maximumPayloadLength) (.payloadTooLarge length maximumPayloadLength)
  .ok (.commandStart command)

def serializeRaceTime (playerId : Int) (raceTime : Nat) : Except RaceProtocolError Packet := do
  ensure (0 ≤ playerId ∧ playerId ≤ 15) (.invalidPlayerId playerId)
  .ok (.raceTime playerId raceTime)

/-- `serialize_team_booster_gauge`, for a gauge given by its bits. -/
def serializeTeamBoosterGauge (team : RoomTeam) (gauge : UInt32) : Except RaceProtocolError Packet := do
  let value := Float32.ofBits gauge
  ensure (value.isFinite ∧ (Float32.ofBits 0 ≤ value) ∧ (value ≤ Float32.ofNat 1)) .invalidBoosterGauge
  .ok (.teamBoosterGauge team gauge)

/-- The loop of `validate_result` over the racers `(playerId, rank, team, teamPoints)`, with the ranks and ids seen so far
and whether the winning team has been. -/
def validateResultEntries (participantCount : Nat) (winningTeam : Option RoomTeam) (ranks playerIds : List Int)
    (winningTeamPresent : Bool) : List (Int × Int × Option RoomTeam × Int) → Except RaceResultProtocolError Bool
  | [] => .ok winningTeamPresent
  | (playerId, rank, team, points) :: rest =>
    if ¬(0 ≤ playerId ∧ playerId ≤ 7) then .error (.invalidPlayerId playerId)
    else if ¬(0 ≤ rank ∧ rank ≤ 7) then .error (.invalidRank rank)
    else if participantCount ≤ rank.toNat then .error (.rankOutsideParticipantCount rank participantCount)
    else if rank ∈ ranks then .error (.duplicateRank rank)
    else if playerId ∈ playerIds then .error (.duplicatePlayerId playerId)
    else if team.isSome ≠ winningTeam.isSome then .error .inconsistentTeamMode
    else if winningTeam.isNone ∧ points ≠ 0 then .error (.soloResultHasTeamPoints playerId points)
    else if winningTeam.isSome ∧ ¬(0 ≤ points ∧ points ≤ 10) then .error (.invalidTeamPoints playerId points)
    else validateResultEntries participantCount winningTeam (rank :: ranks) (playerId :: playerIds)
      (winningTeamPresent || team = winningTeam) rest

def serializeGameResult (result : GameResult) : Except RaceResultProtocolError Packet := do
  let participantCount := result.humans.length + result.ais.length
  ensure (participantCount ≤ 8) (.tooManyParticipants participantCount 8)
  let present ← validateResultEntries participantCount result.winningTeam [] [] false
    (result.humans.map (fun entry => (entry.playerId, entry.rank, entry.team, entry.teamPoints)) ++
      result.ais.map (fun entry => (entry.playerId, entry.rank, entry.team, entry.teamPoints)))
  ensure (¬(result.winningTeam.isSome ∧ present = false)) .winningTeamNotPresent
  .ok (.gameResult result)

end P5136
