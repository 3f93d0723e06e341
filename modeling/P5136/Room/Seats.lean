import P5136.Lib.Fault
import P5136.Room.State

/-!
# Seats

Who gets which member id and which slot, who ranks where on the grid and who is the master: the operations that seat a room.
The source edits the arrays in place; here each operation returns the room it leaves.
-/

namespace P5136

open Function

/-- The first of the eight indices that a test accepts. -/
def firstIndex (p : Fin 8 → Bool) : Option (Fin 8) := (List.finRange 8).find? p

/-- The first index is one the test accepts. -/
theorem firstIndex_eq_some {p : Fin 8 → Bool} {i : Fin 8} (h : firstIndex p = some i) : p i = true :=
  List.find?_some h

/-- No index is found when the test accepts none. -/
theorem firstIndex_eq_none {p : Fin 8 → Bool} : firstIndex p = none ↔ ∀ i, p i = false := by
  simp [firstIndex, List.find?_eq_none]

/-- An index is found when the test accepts one. -/
theorem firstIndex_isSome {p : Fin 8 → Bool} {i : Fin 8} (h : p i = true) : ∃ j, firstIndex p = some j := by
  cases hf : firstIndex p with
  | some j => exact ⟨j, rfl⟩
  | none =>
    have := firstIndex_eq_none.1 hf i
    rw [h] at this
    cases this

/-- The slots of a team: blue has the first four, red the last four, and without teams every slot will do. -/
def teamSlot (team : Nat) (slot : SlotIndex) : Bool :=
  if team = 2 then slot.val < 4 else if team = 1 then 4 ≤ slot.val else true

namespace ProtocolRoomState

variable (room : ProtocolRoomState)

/-! ## Lookups -/

/-- The human racers, in the order of their ids. -/
def members : List (MemberId × ProtocolRoomMember) :=
  (List.finRange 8).filterMap (fun id => (room.membersById id).map (fun member => (id, member)))

/-- The observers, in the order of their ids. -/
def watchers : List (ObserverId × ProtocolRoomMember) :=
  (List.finRange 8).filterMap (fun id => (room.observers id).map (fun member => (id, member)))

/-- The AIs, in the order of their ids. -/
def ais : List (MemberId × RoomAi) :=
  (List.finRange 8).filterMap (fun id => (room.aisById id).map (fun ai => (id, ai)))

/-- `is_empty`: no human is in the room. -/
def isEmpty : Bool := room.members.isEmpty && room.watchers.isEmpty

/-- `user_nos`: the racers first, then the observers. -/
def userNos : List UserNo := (room.members.map (·.2.userNo)) ++ (room.watchers.map (·.2.userNo))

def memberId (userNo : UserNo) : Option MemberId :=
  firstIndex (fun id => (room.membersById id).any (fun member => member.userNo = userNo))

def observerId (userNo : UserNo) : Option ObserverId :=
  firstIndex (fun id => (room.observers id).any (fun member => member.userNo = userNo))

def memberByUserNo (userNo : UserNo) : Option ProtocolRoomMember :=
  match room.memberId userNo with
  | some id => room.membersById id
  | none => (room.observerId userNo).bind room.observers

/-- The player id of an observer. -/
def observerPlayerId (id : ObserverId) : Int := 8 + id.val

/-- `equipment_player_id`: the racers have the ids 0 to 7, the observers 8 to 15. -/
def equipmentPlayerId (userNo : UserNo) : Option Int :=
  match room.memberId userNo with
  | some id => some id.val
  | none => (room.observerId userNo).map observerPlayerId

def memberByPlayerId (playerId : Int) : Option ProtocolRoomMember :=
  if h : 0 ≤ playerId ∧ playerId < 8 then room.membersById ⟨playerId.toNat, memberId_lt h⟩
  else if h : 8 ≤ playerId ∧ playerId < 16 then room.observers ⟨(playerId - 8).toNat, by omega⟩
  else none

/-- Nothing is at a member id: no human, no AI and no closed marker. -/
def vacant (id : MemberId) : Bool :=
  (room.membersById id).isNone && (room.aisById id).isNone && (room.closedSlotsById id).isNone

def vacantMemberId : Option MemberId := firstIndex room.vacant

/-- The first free slot of a team. -/
def freeSlot (team : Nat) : Option SlotIndex :=
  firstIndex (fun slot => teamSlot team slot && (room.slotPositions slot).isNone)

def aiCount : Nat := room.ais.length

def closedSlotIds : List Nat := (List.finRange 8).filterMap (fun id => (room.closedSlotsById id).map (·.val))

/-! ## Admission -/

/-- The racers of a team, humans and AIs. -/
def teamCount (team : Nat) : Nat :=
  (room.members.filter (fun entry => entry.2.player.team = team)).length +
    (room.ais.filter (fun entry => entry.2.team = team)).length

/-- `admission_slot_and_team`: the smaller team has precedence, and blue wins a tie. -/
def admissionSlotAndTeam : Option (SlotIndex × Nat) :=
  if !room.settings.teamMode then (room.freeSlot 0).map (fun slot => (slot, 0))
  else
    let preferredTeam := if room.teamCount 2 ≤ room.teamCount 1 then 2 else 1
    let otherTeam := if preferredTeam = 2 then 1 else 2
    match room.freeSlot preferredTeam with
    | some slot => some (slot, preferredTeam)
    | none => (room.freeSlot otherTeam).map (fun slot => (slot, otherTeam))

/-- `add_participant` for an observer. -/
def addObserver (userNo : UserNo) (participant : RoomParticipant) : Option ProtocolRoomState :=
  (firstIndex (fun id => (room.observers id).isNone)).map (fun id =>
    { room with
      observers := update room.observers id (some
        { userNo := userNo
          player := { participant.player with playerType := 4, team := 0 }
          floaterCodes := participant.floaterCodes })
      roomMaster := if participant.observerMaster then observerPlayerId id else room.roomMaster })

/-- `add_participant` for a racer. -/
def addRacer (userNo : UserNo) (participant : RoomParticipant) : Option ProtocolRoomState :=
  match room.vacantMemberId, room.admissionSlotAndTeam with
  | some id, some (slot, team) =>
    let next := { room with
      membersById := update room.membersById id (some
        { userNo := userNo
          player := { participant.player with playerType := 2, team := team, ranking := room.members.length }
          floaterCodes := participant.floaterCodes })
      slotPositions := update room.slotPositions slot (some id) }
    some (if (next.memberByPlayerId next.roomMaster).isNone then { next with roomMaster := id.val } else next)
  | _, _ => none

/-- `add_participant`: the room with the participant, when there is a place. -/
def addParticipant (userNo : UserNo) (participant : RoomParticipant) : Option ProtocolRoomState :=
  if participant.observer then room.addObserver userNo participant else room.addRacer userNo participant

/-! ## Grid rankings -/

/-- Rank the racers of a list by their place in it, and leave the others. -/
def rankBy (order : List MemberId) : ProtocolRoomState :=
  { room with membersById := fun id => (room.membersById id).map (fun member =>
      if id ∈ order then { member with player := { member.player with ranking := order.idxOf id } } else member) }

/-- Member ids in the order of a rank, and of their own where the ranks agree. -/
def inOrder (ranked : List (Int × MemberId)) : List MemberId :=
  (ranked.mergeSort (fun a b => a.1 < b.1 || (a.1 = b.1 && a.2 ≤ b.2))).map (·.2)

/-- The end of `remove_user`: close the gap in the rankings. -/
def closeRankings : ProtocolRoomState :=
  room.rankBy (inOrder (room.members.map (fun entry => (entry.2.player.ranking, entry.1))))

/-- `apply_next_grid_ranking`: the racers that are still there start the next race in the order they finished. -/
def applyNextGridRanking (ranking : SettlementRanking) : ProtocolRoomState :=
  room.rankBy (inOrder (room.members.filterMap (fun entry =>
    (ranking.byPlayerId.lookup (entry.1.val : Int)).map (fun result => (result.rank, entry.1)))))

/-! ## The master -/

/-- Change the state of a racer. -/
def setPlayerType (id : MemberId) (playerType : Int) : ProtocolRoomState :=
  { room with membersById := fun i => (room.membersById i).map (fun member =>
      if i = id then { member with player := { member.player with playerType := playerType } } else member) }

/-- `assign_next_room_master`: the first racer, else the first observer, else nobody. -/
def assignNextRoomMaster : ProtocolRoomState :=
  match firstIndex (fun id => (room.membersById id).isSome) with
  | some id => { room.setPlayerType id PlayerSlotState.notReady.wire with roomMaster := id.val }
  | none =>
    match firstIndex (fun id => (room.observers id).isSome) with
    | some id =>
      { room with
        observers := update room.observers id ((room.observers id).map (fun observer =>
          { observer with player := { observer.player with playerType := PlayerSlotState.observer.wire } }))
        roomMaster := observerPlayerId id }
    | none => { room with roomMaster := -1 }

/-- The master of the next lobby: the best of the racers that are still there, of the winning team in a team race. -/
def nextLobbyMaster (ranking : SettlementRanking) : Option Int :=
  let candidates := room.members.filterMap (fun entry =>
    match ranking.byPlayerId.lookup (entry.1.val : Int) with
    | none => none
    | some ranked =>
      if ranking.winningTeam.any (fun winningTeam => ranked.team ≠ some winningTeam) then none
      else some (ranked.rank, ranked.finishTime, (entry.1.val : Int)))
  (candidates.mergeSort (fun a b => a.1 < b.1 || (a.1 = b.1 && (a.2.1 < b.2.1 || (a.2.1 = b.2.1 && a.2.2 ≤ b.2.2))))).head?.map
    (·.2.2)

/-- `apply_next_lobby_master`: an observer that is the master stays the master. -/
def applyNextLobbyMaster (ranking : SettlementRanking) : ProtocolRoomState :=
  if 8 ≤ room.roomMaster ∧ (room.memberByPlayerId room.roomMaster).isSome then room
  else match room.nextLobbyMaster ranking with
  | some master => { room with roomMaster := master }
  | none => room

/-! ## Leaving -/

/-- `remove_user`: the room without a user, when it was there. -/
def removeUser (userNo : UserNo) : Option ProtocolRoomState :=
  match room.observerId userNo with
  | some id =>
    let next := { room with observers := update room.observers id none }
    some (if room.roomMaster = observerPlayerId id then next.assignNextRoomMaster else next)
  | none =>
    match room.memberId userNo with
    | none => none
    | some id =>
      let next := { room with
        membersById := update room.membersById id none
        slotPositions := match firstIndex (fun slot => room.slotPositions slot = some id) with
          | some slot => update room.slotPositions slot none
          | none => room.slotPositions }
      some (if room.roomMaster = id.val then next.assignNextRoomMaster else next).closeRankings

/-! ## AIs and closed slots -/

/-- `remove_ai`: the id of the AI and the room without it. The source expects an AI to have a slot. -/
def removeAi {ε : Type} (playerId : Nat) : Except (Fault ε) (Option (Int × ProtocolRoomState)) :=
  if h : playerId < 8 then
    let id : MemberId := ⟨playerId, h⟩
    match room.aisById id with
    | none => .ok none
    | some _ =>
      match firstIndex (fun slot => room.slotPositions slot = some id) with
      | none => .error (.panic "every actor-owned AI occupies one physical room slot")
      | some slot =>
        .ok (some (id.val, { room with
          aisById := update room.aisById id none
          slotPositions := update room.slotPositions slot none }))
  else .ok none

/-- One AI of `add_basic_ais`. -/
def addBasicAi (team : Nat) (ai : RoomAi) : Option ((Int × RoomAi) × ProtocolRoomState) :=
  match room.vacantMemberId with
  | none => none
  | some id =>
    match room.freeSlot team with
    | none => none
    | some slot =>
      let added := { ai with team := team }
      some ((id.val, added), { room with
        aisById := update room.aisById id (some added)
        slotPositions := update room.slotPositions slot (some id) })

/-- `add_basic_ais`: one AI of each team, or one without teams; all of them or none. -/
def addBasicAis (first second : RoomAi) : Option (List (Int × RoomAi) × ProtocolRoomState) :=
  if room.settings.teamMode then
    match room.addBasicAi 2 first with
    | none => none
    | some (blue, next) =>
      match next.addBasicAi 1 second with
      | none => none
      | some (red, last) => some ([blue, red], last)
  else (room.addBasicAi 0 first).map (fun added => ([added.1], added.2))

/-- A pair of a member id and a slot that a client names. -/
def wirePair (memberId slotId : Nat) : Option (MemberId × SlotIndex) :=
  if h : memberId < 8 ∧ slotId < 8 then some (⟨memberId, h.1⟩, ⟨slotId, h.2⟩) else none

/-- The pairs of a `CloseSlotRequest`: two in a team room, one otherwise. None when an id is out of range or named twice. -/
def closePairs (request : CloseSlotRequest) : Option (List (MemberId × SlotIndex)) :=
  match wirePair request.firstMemberId request.firstSlotId with
  | none => none
  | some first =>
    if room.settings.teamMode then
      match wirePair request.secondMemberId request.secondSlotId with
      | none => none
      | some second => if first.1 = second.1 ∨ first.2 = second.2 then none else some [first, second]
    else some [first]

/-- The check of `set_close_slots` at a pair. -/
def mayClose (operation : CloseSlotOperation) (pair : MemberId × SlotIndex) : Bool :=
  if operation.isClose then room.vacant pair.1 && (room.slotPositions pair.2).isNone
  else room.closedSlotsById pair.1 = some pair.2 && room.slotPositions pair.2 = some pair.1

/-- Close or open a pair. -/
def setClosed (operation : CloseSlotOperation) (pair : MemberId × SlotIndex) : ProtocolRoomState :=
  if operation.isClose then
    { room with
      closedSlotsById := update room.closedSlotsById pair.1 (some pair.2)
      slotPositions := update room.slotPositions pair.2 (some pair.1) }
  else
    { room with
      closedSlotsById := update room.closedSlotsById pair.1 none
      slotPositions := update room.slotPositions pair.2 none }

/-- `set_close_slots`: the room with the slots closed or opened, when all of them may be. -/
def setCloseSlots (request : CloseSlotRequest) : Option ProtocolRoomState :=
  match room.closePairs request with
  | none => none
  | some pairs =>
    if pairs.all (room.mayClose request.operation) then
      some (pairs.foldl (fun room pair => room.setClosed request.operation pair) room)
    else none

end ProtocolRoomState

end P5136
