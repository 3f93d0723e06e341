import P5136.Identity.Registry
import P5136.Lib.Act
import P5136.Lib.Queue
import P5136.Room.View

/-!
# The world

The state of the actor that owns the sessions, the identities and the rooms, and how it reads it. What only MyRoom and the
profile writes use is left out. Outbound batches are kept for ever in the queue of their session, and a history is kept of what
races did, so that a run can be asked what was queued and in which order.
-/

namespace P5136

/-- `OutboundBatch`: packets that are written together, in order. -/
abbrev OutboundBatch := List Packet

abbrev OutboundDelivery := SessionId × OutboundBatch

/-- `SessionState`. `sealed` says that the gate of the session's outbound operations is closed. -/
structure SessionState where
  peerIp : IpAddr
  outbound : Option (BoundedQueue OutboundBatch)
  sealed : Bool

/-- `ResolvedRandomTracks::candidates`: the tracks of a game type and a selector, with or without AIs. -/
abbrev RandomTracks := Nat → Nat → Bool → List Nat

/-- What the races of a run did, in the history of the world. The source keeps no history: no command reads it. -/
inductive RaceEvent where
  /-- A session was registered; its queue is new. -/
  | registered (session : SessionId)
  /-- A race was frozen. -/
  | started (roster : FrozenRaceRoster)
  /-- A finish was recorded at an instant, in a race that settles at a deadline. -/
  | finished (fence : RaceFence) (fanout : PendingRaceFanout) (now deadline : Instant)
  /-- A race that nobody runs any more began to settle. -/
  | abandoned (fence : RaceFence) (fanout : PendingRaceFanout)
  /-- The pending fan-outs were queued to the participants that are still there. -/
  | flushed (fence : RaceFence) (fanouts : List PendingRaceFanout) (recipients : List (FrozenRaceParticipant × SessionId))
  /-- The rewards were planned. -/
  | planned (fence : RaceFence) (rewards : List RewardPersistenceEntry)
  /-- The results were queued and the race is over. -/
  | finalized (fence : RaceFence) (packets : List Packet) (recipients : List (FrozenRaceParticipant × SessionId))

/-- `World`. `rooms` are the ids of the rooms without a protocol, which share the ids with the others;
`equipmentWrites` are the sessions whose rider equipment is being written; `operations` are the bindings of the identity
operations admitted so far. -/
structure World where
  randomTracks : Option RandomTracks
  sessions : FiniteMap SessionId SessionState
  identities : IdentityRegistry
  rooms : Finset RoomId
  protocolRooms : FiniteMap RoomId ProtocolRoomState
  protocolRoomByUser : FiniteMap UserNo RoomId
  observedP2pPorts : FiniteMap UserNo (IdentityBinding × UInt16)
  freeProtocolRoomIds : Finset Nat
  nextSessionId : Nat
  nextRoomId : Nat
  nextRaceEpoch : Option GlobalRaceEpoch
  rewardLanes : FiniteMap UserNo RaceFence
  nextRewardAttemptId : Option RewardAttemptId
  equipmentWrites : Finset SessionId
  quiescing : Bool
  outboundProducersSealed : Bool
  admittedIdentity : Option IdentityBinding
  operations : List IdentityBinding
  history : List RaceEvent

def IdentityRegistry.activeIdentityByUserNo (r : IdentityRegistry) (userNo : UserNo) : Option IdentityBinding :=
  match r.nameByUserNo.lookup userNo with
  | none => none
  | some key => (r.activeByName.lookup key).bind activeIdentityBinding

namespace World

/-- `default`: the first world. -/
def initial : World where
  randomTracks := none
  sessions := ∅
  identities := .new
  rooms := ∅
  protocolRooms := ∅
  protocolRoomByUser := ∅
  observedP2pPorts := ∅
  freeProtocolRoomIds := ∅
  nextSessionId := 1
  nextRoomId := 1
  nextRaceEpoch := GlobalRaceEpoch.new 1
  rewardLanes := ∅
  nextRewardAttemptId := some ⟨1, Nat.one_ne_zero, NonZero.one_lt_64⟩
  equipmentWrites := ∅
  quiescing := false
  outboundProducersSealed := false
  admittedIdentity := none
  operations := []
  history := []

variable (w : World)

/-- Add an event to the history. -/
def logged (event : RaceEvent) : World := { w with history := w.history ++ [event] }

/-! ## Lookups -/

/-- The queue of a session. -/
def queue (session : SessionId) : Option (BoundedQueue OutboundBatch) :=
  (w.sessions.lookup session).bind (·.outbound)

/-- `authorize_session_operation`: an admitted operation keeps the binding it was admitted with. -/
def authorizeSessionOperation (U : Unicode) (session : SessionId) : Except IdentityError IdentityBinding :=
  match w.admittedIdentity with
  | some binding => if binding.owner = session then .ok binding else w.identities.authorize U session
  | none => w.identities.authorize U session

/-- `exact_identity_in_protocol_room`: the identity when it is still active and its user in the room. -/
def exactIdentityInProtocolRoom (roomId : RoomId) (identity : IdentityBinding) : Option IdentityBinding :=
  if w.protocolRoomByUser.lookup identity.userNo = some roomId then
    (w.identities.activeIdentityByUserNo identity.userNo).filter (fun active => active = identity)
  else none

/-- `active_frozen_recipient_sessions`: the participants of a race that are still exactly there, with their sessions. -/
def activeFrozenRecipientSessions (room : ProtocolRoomState) (roster : FrozenRaceRoster) :
    List (FrozenRaceParticipant × SessionId) :=
  roster.participants.filterMap (fun participant =>
    (w.exactIdentityInProtocolRoom room.id participant.identity).map (fun identity => (participant, identity.owner)))

/-- `active_room_sessions`: the members of a room with their sessions, or the first member that has none. -/
def activeRoomSessions (room : ProtocolRoomState) : Except UserNo (List (UserNo × SessionId)) :=
  Checks.traverse (fun userNo =>
    Checks.orElse ((w.identities.activeIdentityByUserNo userNo).map (fun identity => (userNo, identity.owner))) userNo)
    room.userNos

/-- `deliveries_for_users`: a batch to each of the users that has a session. -/
def deliveriesForUsers (users : List UserNo) (batch : OutboundBatch) : List OutboundDelivery :=
  users.filterMap (fun userNo =>
    (w.identities.activeIdentityByUserNo userNo).map (fun identity => (identity.owner, batch)))

def sessionIp (session : SessionId) : Option IpAddr := (w.sessions.lookup session).map (·.peerIp)

def observedP2pPort (identity : IdentityBinding) : Option UInt16 :=
  match w.observedP2pPorts.lookup identity.userNo with
  | some (observed, port) => if observed = identity then some port else none
  | none => none

/-! ## One user in one room -/

/-- A user that is alone in a room. -/
def loneUser : UserNo := ⟨7, by decide, by decide⟩

/-- Its identity. -/
def loneIdentity : IdentityBinding := ⟨"racer", loneUser, ⟨1⟩, ⟨1⟩, .v4 0, some ⟨1, 1⟩⟩

/-- Its room, of the random selector 0. -/
def loneRoom : ProtocolRoomState :=
  { ProtocolRoomState.new ⟨1⟩ ⟨⟨1, 1⟩, "room", "", 1, 1, 0, 0, Vector.replicate 32 0⟩ with
    membersById := fun id =>
      if id = 0 then
        some ⟨loneUser, ⟨2, 7, 0, 0, "racer", 0, 0, 0, Vector.replicate 65 0, "", 0, 0, 0, 0, "", 0⟩, Vector.replicate 3 0⟩
      else none
    slotPositions := fun slot => if slot = 0 then some 0 else none }

/-- A world with that room. -/
def loneWorld : World :=
  { World.initial with
    sessions := AList.insert ⟨1⟩ ⟨.v4 0, some ⟨8, [], 0, 0, false⟩, false⟩ ∅
    identities := { IdentityRegistry.new with
      nameByUserNo := AList.insert loneUser "racer" ∅
      activeByName := AList.insert "racer"
        ⟨⟨"racer", loneUser⟩, ⟨1⟩, some ⟨1⟩, .v4 0, some ⟨1, 1⟩, none, none, 0⟩ ∅ }
    protocolRooms := AList.insert ⟨1⟩ loneRoom ∅
    protocolRoomByUser := AList.insert loneUser ⟨1⟩ ∅ }

/-- It as a racer of a race. -/
def loneParticipant : FrozenRaceParticipant :=
  ⟨loneIdentity, "racer", 0, false, 0, some ⟨1, Vector.replicate 3 0, 1, 0, .pending⟩⟩

/-- The race of it alone. -/
def loneRoster : FrozenRaceRoster := ⟨⟨⟨1⟩, ⟨1, Nat.one_ne_zero, NonZero.one_lt_64⟩⟩, 500, [loneParticipant], []⟩

/-- Its room while that race runs, in a game type. -/
def loneRace (gameType : Nat) : ProtocolRoomState :=
  { loneRoom with
    settings := { loneRoom.settings with gameType := gameType, track := 500 }
    phase := .running
    raceFence := some loneRoster.fence
    frozenRace := some loneRoster }

end World

end P5136
