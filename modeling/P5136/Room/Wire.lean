import Mathlib.Data.Fintype.Pi
import P5136.Lib.Checks
import P5136.Nickname

/-!
# What a room shows on the wire

The values that the room protocol carries: players, AIs, observers, slots. A packet is kept as the values it encodes, not as
its bytes: of a serializer the model has the checks, in their order, and what the packet holds.
-/

namespace P5136

/-- `ROOM_SLOT_COUNT`: the racers of a room, and the member ids they get. -/
abbrev MemberId := Fin 8

/-- There is a member id, so that its numerals are numbers of it. -/
instance memberIdNeZero : NeZero 8 := ⟨by decide⟩

/-- A number from 0 to 7 is a member id. -/
theorem memberId_lt {n : Int} (h : 0 ≤ n ∧ n < 8) : n.toNat < 8 := by
  omega

/-- A physical slot of a room. There are as many as member ids. -/
abbrev SlotIndex := Fin 8

/-- `ROOM_OBSERVER_COUNT`: the places for observers. -/
abbrev ObserverId := Fin 8

/-- The number of slots of a room. -/
def roomSlotCount : Nat := 8

/-- A player as the room protocol carries it. -/
structure RoomPlayer where
  playerType : Int
  userNo : Nat
  p2pAddress : BitVec 32
  p2pPort : UInt16
  nickname : String
  emblem1 : Nat
  emblem2 : Nat
  emblem3 : Nat
  riderItemSnapshot : Vector UInt8 65
  card : String
  rp : Nat
  team : Nat
  ranking : Int
  riderSchoolLevel : Nat
  clubName : String
  clubMarkLogo : Int
deriving DecidableEq

/-- An AI racer. -/
structure RoomAi where
  character : Int
  rider : Int
  kart : Int
  balloon : Int
  headBand : Int
  goggle : Int
  team : Nat
deriving DecidableEq

/-- `RoomMember`: what stands at a member id on the wire. -/
inductive WireRoomMember where
  | player (player : RoomPlayer)
  | ai (ai : RoomAi)
  | closed (playerType : Int)
  | empty
deriving DecidableEq

/-- An observer as the room protocol carries it. -/
structure RoomObserver where
  playerType : Int
  userNo : Nat
  p2pAddress : BitVec 32
  p2pPort : UInt16
  nickname : String
deriving DecidableEq

structure RoomSessionData where
  roomName : String
  password : String
  gameType : Nat
  speedType : Nat
deriving DecidableEq

/-- `RoomSlotData`: the whole room. -/
structure RoomSlotData where
  track : Nat
  roomDataHeader : Nat
  roomData : Vector UInt8 32
  roomMaster : Int
  closedSlotIds : List Nat
  membersById : MemberId → WireRoomMember
  observers : ObserverId → Option RoomObserver
  slotPositions : SlotIndex → Int
deriving DecidableEq

/-- An entry of the list of rooms. -/
structure RoomListEntry where
  roomId : Nat
  roomName : String
  track : Nat
  locked : Bool
  gameType : Nat
  speedType : Nat
  started : Bool
  availableSlots : Nat
  playerCount : Nat
deriving DecidableEq

/-- The errors of the room protocol that serialization raises. -/
inductive RoomProtocolError where
  | invalidPage (page maximum : Int)
  | limitExceeded (field : String) (actual maximum : Nat)
  | invalidClosedSlot (slot : Nat)
  | duplicateClosedSlot (slot : Nat)
  | invalidSlotPosition (index : Nat) (position : Int)
deriving DecidableEq

/-- `MAX_ROOM_NAME_UTF16_UNITS`. -/
def maxRoomNameUtf16Units : Nat := 128

/-- `MAX_ROOM_PASSWORD_UTF16_UNITS`. -/
def maxRoomPasswordUtf16Units : Nat := 64

/-- `MAX_RIDER_NICKNAME_UTF16_UNITS`. -/
def maxRiderNicknameUtf16Units : Nat := 32

/-- `MAX_RIDER_CARD_UTF16_UNITS`. -/
def maxRiderCardUtf16Units : Nat := 128

/-- `MAX_CLUB_NAME_UTF16_UNITS`. -/
def maxClubNameUtf16Units : Nat := 64

/-- `MAX_ROOM_LIST_PAGE`. -/
def maxRoomListPage : Int := 100000

/-- `MAX_ROOM_LIST_ENTRIES`. -/
def maxRoomListEntries : Nat := 10

def enforceLimit (field : String) (actual maximum : Nat) : Except RoomProtocolError Unit :=
  Checks.ensure (actual ≤ maximum) (.limitExceeded field actual maximum)

def validateUtf16 (field value : String) (maximum : Nat) : Except RoomProtocolError Unit :=
  enforceLimit field (utf16Length value) maximum

def validateRoomPlayer (player : RoomPlayer) : Except RoomProtocolError Unit := do
  validateUtf16 "rider nickname" player.nickname maxRiderNicknameUtf16Units
  validateUtf16 "rider card" player.card maxRiderCardUtf16Units
  if player.clubMarkLogo ≠ 0 then validateUtf16 "club name" player.clubName maxClubNameUtf16Units else .ok ()

/-- The loop of `validate_slot_data` over the closed slots, with those seen so far. -/
def validateClosedSlots (seen : List Nat) : List Nat → Except RoomProtocolError Unit
  | [] => .ok ()
  | slot :: rest =>
    if roomSlotCount ≤ slot then .error (.invalidClosedSlot slot)
    else if slot ∈ seen then .error (.duplicateClosedSlot slot)
    else validateClosedSlots (slot :: seen) rest

/-- The check of `validate_slot_data` at a member id. -/
def validateWireMember : WireRoomMember → Except RoomProtocolError Unit
  | .player player => validateRoomPlayer player
  | _ => .ok ()

/-- The check of `validate_slot_data` at an observer. -/
def validateWireObserver : Option RoomObserver → Except RoomProtocolError Unit
  | some observer => validateUtf16 "observer nickname" observer.nickname maxRiderNicknameUtf16Units
  | none => .ok ()

def validateSlotData (slots : RoomSlotData) : Except RoomProtocolError Unit := do
  enforceLimit "closed room slot" slots.closedSlotIds.length roomSlotCount
  validateClosedSlots [] slots.closedSlotIds
  Checks.all (fun id => validateWireMember (slots.membersById id)) (List.finRange 8)
  Checks.all (fun id => validateWireObserver (slots.observers id)) (List.finRange 8)
  Checks.all (fun index => Checks.ensure (-1 ≤ slots.slotPositions index ∧ slots.slotPositions index ≤ 7)
    (RoomProtocolError.invalidSlotPosition index (slots.slotPositions index))) (List.finRange 8)

/-- The checks of `serialize_gr_session_data`. -/
def validateSessionData (session : RoomSessionData) : Except RoomProtocolError Unit := do
  validateUtf16 "room name" session.roomName maxRoomNameUtf16Units
  validateUtf16 "room password" session.password maxRoomPasswordUtf16Units

/-- The checks of `serialize_ch_get_room_list_reply` at an entry. -/
def validateListEntry (entry : RoomListEntry) : Except RoomProtocolError Unit := do
  validateUtf16 "room name" entry.roomName maxRoomNameUtf16Units
  enforceLimit "available room slot" entry.availableSlots roomSlotCount
  enforceLimit "room player" entry.playerCount roomSlotCount

/-! ## Lengths -/

/-- The bytes of a UTF-16 string on the wire: its length and its units. -/
def wireStringLength (s : String) : Nat := 4 + 2 * utf16Length s

/-- The bytes of a `GrSessionDataPacket`. -/
def RoomSessionData.wireLength (session : RoomSessionData) : Nat :=
  4 + wireStringLength session.roomName + wireStringLength session.password + 1 + 1 + 4 + 1 + 4 + 6

/-- The bytes of a player. -/
def RoomPlayer.wireLength (player : RoomPlayer) : Nat :=
  4 + 4 + 6 + 6 + wireStringLength player.nickname + 2 + 2 + 2 + 65 + wireStringLength player.card + 4 + 1 + 4 + 30 +
    4 + 4 + 4 + 4 + 4 + 4 + 1 +
    (if player.clubMarkLogo = 0 then wireStringLength "" + 4 else wireStringLength player.clubName + 4) + 17

/-- The bytes at a member id. -/
def WireRoomMember.wireLength : WireRoomMember → Nat
  | .player p => p.wireLength
  | .ai _ => 17
  | .closed _ => 4
  | .empty => 4

/-- The bytes at an observer. -/
def wireObserverLength : Option RoomObserver → Nat
  | some observer => 4 + 4 + 6 + 6 + wireStringLength observer.nickname
  | none => 4

/-- The bytes of a `GrSlotDataPacket`. -/
def RoomSlotData.wireLength (slots : RoomSlotData) : Nat :=
  4 + 4 + 4 + 32 + 4 + 11 + 4 + slots.closedSlotIds.length + 16 +
    ((List.finRange 8).map (fun id => (slots.membersById id).wireLength)).sum +
    ((List.finRange 8).map (fun id => wireObserverLength (slots.observers id))).sum + 32

end P5136
