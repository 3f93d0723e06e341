import P5136.Identity.Binding
import P5136.Race.Objects
import P5136.Race.Rewards
import P5136.Room.Packets

/-!
# The state of a room

A protocol room: its settings, its phase, who sits at which member id and in which slot, and the race it runs from the start
to the settlement. Values that only the kart physics and the logs read are left out.
-/

namespace P5136

/-- A room id. -/
structure RoomId where
  get : Nat
deriving DecidableEq

/-- `RaceFence`: one race of one room. Room ids are reused, so the id alone names no race. -/
structure RaceFence where
  roomId : RoomId
  raceEpoch : GlobalRaceEpoch
deriving DecidableEq

/-- `RewardAttemptId`: a 64-bit number that is not zero. -/
structure RewardAttemptId where
  get : Nat
  ne_zero : get ≠ 0
  lt : get < 2 ^ 64

/-- Attempts with the same number are the same. -/
theorem RewardAttemptId.ext_get {a b : RewardAttemptId} (h : a.get = b.get) : a = b := by
  cases a
  cases b
  simp only at h
  subst h
  rfl

instance : DecidableEq RewardAttemptId := fun a b =>
  if h : a.get = b.get then isTrue (RewardAttemptId.ext_get h) else isFalse (mt (congrArg RewardAttemptId.get) h)

structure RoomSettings where
  channel : ChannelBinding
  roomName : String
  password : String
  gameType : Nat
  speedType : Nat
  track : Nat
  roomDataHeader : Nat
  roomData : Vector UInt8 32
deriving DecidableEq

/-- The game types 3 and 4 are played in teams. -/
def RoomSettings.teamMode (settings : RoomSettings) : Bool := settings.gameType = 3 || settings.gameType = 4

inductive RoomPhase where
  | lobby
  | loading
  | running
  | settling
deriving DecidableEq

/-- `RoomParticipant`: what a session handler says of a player that is about to enter a room. -/
structure RoomParticipant where
  player : RoomPlayer
  observer : Bool
  observerMaster : Bool
  floaterCodes : Vector Int 3
deriving DecidableEq

structure ProtocolRoomMember where
  userNo : UserNo
  player : RoomPlayer
  floaterCodes : Vector Int 3
deriving DecidableEq

/-! ## A race -/

/-- `FrozenResultEconomy`: the reward of a racer, once it is applied. -/
inductive FrozenResultEconomy where
  | pending
  | applied (reward : AppliedTimeReward)
deriving DecidableEq

/-- `applied`. -/
def FrozenResultEconomy.applied? : FrozenResultEconomy → Option AppliedTimeReward
  | .pending => none
  | .applied reward => some reward

structure FrozenHumanResultSnapshot where
  kartId : Nat
  floaterCodes : Vector Int 3
  characterId : Nat
  clubMarkLogo : Int
  economy : FrozenResultEconomy
deriving DecidableEq

/-- `FrozenRaceParticipant`: a human of the roster, as the identity it had at the start. -/
structure FrozenRaceParticipant where
  identity : IdentityBinding
  nickname : String
  playerId : Int
  observer : Bool
  team : Nat
  result : Option FrozenHumanResultSnapshot
deriving DecidableEq

structure FrozenAiRaceParticipant where
  playerId : Int
  team : Nat
  kartId : Int
deriving DecidableEq

/-- `FrozenRaceRoster`: who takes part in a race. -/
structure FrozenRaceRoster where
  fence : RaceFence
  concreteTrack : Nat
  participants : List FrozenRaceParticipant
  ais : List FrozenAiRaceParticipant
deriving DecidableEq

namespace FrozenRaceRoster

/-- The human racers. -/
def racers (roster : FrozenRaceRoster) : List FrozenRaceParticipant :=
  roster.participants.filter (fun participant => !participant.observer)

def activeRacerCount (roster : FrozenRaceRoster) : Nat := roster.racers.length + roster.ais.length

/-- The player ids of the racers, human and AI. -/
def racerIds (roster : FrozenRaceRoster) : List Int :=
  roster.racers.map (·.playerId) ++ roster.ais.map (·.playerId)

end FrozenRaceRoster

structure FrozenParticipantStamp where
  userNo : UserNo
  generation : IdentityGeneration
deriving DecidableEq

/-- The stamp of an identity. -/
def FrozenParticipantStamp.of (identity : IdentityBinding) : FrozenParticipantStamp :=
  ⟨identity.userNo, identity.generation⟩

structure RankedRaceResult where
  finishTime : Nat
  rank : Int
  team : Option RoomTeam
  teamPoints : Int
deriving DecidableEq

structure SettlementRanking where
  winningTeam : Option RoomTeam
  byPlayerId : FiniteMap Int RankedRaceResult
deriving DecidableEq

inductive RewardPersistenceStatus where
  | queued (dueAt : Instant) (failureCount : Nat)
  | inFlight (attemptId : RewardAttemptId) (failureCount : Nat) (leaseDeadline : Instant)
  | durable (applied : AppliedTimeReward)
deriving DecidableEq

/-- The reward is durable. -/
def RewardPersistenceStatus.isDurable : RewardPersistenceStatus → Bool
  | .durable _ => true
  | _ => false

def RewardPersistenceStatus.inFlightAttemptId : RewardPersistenceStatus → Option RewardAttemptId
  | .inFlight attemptId _ _ => some attemptId
  | _ => none

/-- `RewardPersistenceEntry`: the reward of one human racer. -/
structure RewardPersistenceEntry where
  userNo : UserNo
  nickname : String
  canonicalNickname : String
  playerId : Int
  proposedReward : TimeReward
  status : RewardPersistenceStatus
deriving DecidableEq

inductive RewardTerminalReason where
  | invalidRanking
  | rewardSampling
  | rewardPersistence
  | rewardReceiptMismatch
  | rewardParticipantMissing
  | rewardRetryDeadlineOverflow
  | rewardAttemptIdExhausted
  | rewardAttemptLeaseDeadlineOverflow
  | resultSerialization
  | outboundReservation
deriving DecidableEq

def RewardTerminalReason.permitsPersistenceRetry (reason : RewardTerminalReason) : Bool := reason = .rewardPersistence

/-- `SettlementDeadLetterState`: what is kept of a settlement that failed. -/
structure SettlementDeadLetterState where
  ranking : Option SettlementRanking
  rewards : List RewardPersistenceEntry
  packets : Option (List Packet)
  failedUserNo : Option UserNo
  failedNickname : Option String
  reason : RewardTerminalReason
deriving DecidableEq

inductive SettlementFinalization where
  | awaitingDeadline
  | persisting (ranking : SettlementRanking) (rewards : List RewardPersistenceEntry)
  | ready (ranking : SettlementRanking) (rewards : List RewardPersistenceEntry) (packets : List Packet)
  | failed (deadLetter : SettlementDeadLetterState)
deriving DecidableEq

/-- `retain_as_dead_letter`. A dead letter stays as it is. -/
def SettlementFinalization.retainAsDeadLetter (finalization : SettlementFinalization) (reason : RewardTerminalReason)
    (failedUserNo : Option UserNo) (failedNickname : Option String) : SettlementFinalization :=
  match finalization with
  | .persisting ranking rewards => .failed ⟨some ranking, rewards, none, failedUserNo, failedNickname, reason⟩
  | .ready ranking rewards packets => .failed ⟨some ranking, rewards, some packets, failedUserNo, failedNickname, reason⟩
  | .failed deadLetter => .failed deadLetter
  | .awaitingDeadline => .failed ⟨none, [], none, failedUserNo, failedNickname, reason⟩

structure SettlementState where
  endTick : Nat
  deadline : Instant
  finalization : SettlementFinalization
deriving DecidableEq

structure PendingRaceTime where
  playerId : Int
  raceTime : Nat
  packet : Packet
deriving DecidableEq

structure PendingBeginSettlement where
  endTick : Nat
  excludedUser : Option UserNo
  packet : Packet
deriving DecidableEq

structure PendingRaceFanout where
  raceTime : Option PendingRaceTime
  beginSettlement : Option PendingBeginSettlement
deriving DecidableEq

inductive ItemPickupKind where
  | type1
  | type2
deriving DecidableEq

structure ItemPickupReplayState where
  lastOperationTick : Nat
  objectsSeenAtTick : Finset (ItemPickupKind × Nat)
  tokens : Nat
  lastRefillAt : Instant
deriving DecidableEq

/-- `RaceProgress`. The team gauges are kept as the bits of 32-bit floats. -/
structure RaceProgress where
  finishTimes : FiniteMap Int Nat
  settlement : Option SettlementState
  pendingFanouts : List PendingRaceFanout
  teamGaugeBits : RoomTeam → UInt32
  itemPickups : FiniteMap Int ItemPickupReplayState
  raceObjects : RaceObjectRegistry

instance : Fintype RoomTeam := ⟨{.red, .blue}, fun t => by cases t <;> simp⟩

deriving instance DecidableEq for RaceProgress

/-- `default`. -/
def RaceProgress.fresh : RaceProgress where
  finishTimes := ∅
  settlement := none
  pendingFanouts := []
  teamGaugeBits := fun _ => 0
  itemPickups := ∅
  raceObjects := .empty

inductive LoadingHandshake where
  | dormant
  | awaiting (expected ready : Finset FrozenParticipantStamp) (deadline : Instant)
  | startScheduled (instant : Instant)
deriving DecidableEq

/-! ## A room -/

structure ProtocolRoomState where
  id : RoomId
  settings : RoomSettings
  phase : RoomPhase
  raceFence : Option RaceFence
  frozenRace : Option FrozenRaceRoster
  raceProgress : RaceProgress
  loadingHandshake : LoadingHandshake
  roomMaster : Int
  membersById : MemberId → Option ProtocolRoomMember
  aisById : MemberId → Option RoomAi
  closedSlotsById : MemberId → Option SlotIndex
  observers : ObserverId → Option ProtocolRoomMember
  slotPositions : SlotIndex → Option MemberId
  randomTrackPool : Option (Nat × Nat)
  randomTracksUsed : List Nat
  lastRandomTrack : Option Nat
deriving DecidableEq

/-- `new`: an empty room. -/
def ProtocolRoomState.new (id : RoomId) (settings : RoomSettings) : ProtocolRoomState where
  id := id
  settings := settings
  phase := .lobby
  raceFence := none
  frozenRace := none
  raceProgress := .fresh
  loadingHandshake := .dormant
  roomMaster := 0
  membersById := fun _ => none
  aisById := fun _ => none
  closedSlotsById := fun _ => none
  observers := fun _ => none
  slotPositions := fun _ => none
  randomTrackPool := none
  randomTracksUsed := []
  lastRandomTrack := none

end P5136
