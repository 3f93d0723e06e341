import P5136.Race.ItemProbability
import P5136.Room.State

/-!
# Errors of the world

How the commands of the world fail.
-/

namespace P5136

inductive LobbyError where
  | worldQuiescing
  | notInRoom
  | notLobby (actual : RoomPhase)
  | humanRacerRequired
  | observerStateServerOwned
  | preparingStateServerOwned
  | notRoomMaster
  | invalidMasterTarget (nickname : String)
  | invalidKickTarget (playerId : Int)
  | teamModeRequired
  | teamFull (team : RoomTeam)
  | noRacers
  | aiParticipantsUnsupported
  | racerNotReady (userNo : Nat)
  | raceEpochExhausted
  | missingTrackCandidates
  | inactiveRosterMember (userNo : Nat)
  | rewardLaneOccupied (userNo roomId raceEpoch : Nat)
  | outboundUnavailable (session : SessionId)
  | protocol (error : LobbyProtocolError)
  | roomProtocol (error : RoomProtocolError)
  | raceStart (error : RaceStartProtocolError)
deriving DecidableEq

inductive GameSlotSynthesisError where
  | invalidItemId (itemId : Int)
  | notItemPickup
  | pickupInvariant (actual minimum : Nat)
deriving DecidableEq

inductive RaceError where
  | notInRoom
  | wrongPhase (actual : RoomPhase)
  | notFrozenParticipant
  | unsupportedGameControlState (state : Int)
  | notRunning (actual : RoomPhase)
  | gameSlotInactivePhase (actual : RoomPhase)
  | humanRacerRequired
  | gameSlotPlayerMismatch (claimed : Nat) (actual : Int)
  | gameSlotRecipientMaskMismatch (actual expected : Nat)
  | raceObjectRegistryFull (raceEpoch objectId maximum : Nat)
  | raceObjectClassMismatch (raceEpoch objectId : Nat) (expected actual : RaceObjectClass)
  | raceObjectOwnerMismatch (raceEpoch objectId : Nat) (expected actual : RaceObjectActor)
  | raceObjectOwnerNotFrozen (playerId : Nat)
  | itemPickupModeRequired (gameType : Nat)
  | staleItemPickup (playerId : Int) (operationTick : Nat)
  | duplicateItemPickup (playerId : Int) (kind : ItemPickupKind) (objectId operationTick : Nat)
  | itemPickupRateLimited (playerId : Int)
  | noFrozenAiParticipant (playerId : Int)
  | teamModeRequired
  | teamSpoof (claimed : RoomTeam) (actual : Nat)
  | invalidFrozenTeam (team : Nat)
  | outboundUnavailable (session : SessionId)
  | raceDeadlineOverflow
  | settlementDeadlineOverflow
  | settlementClosed
  | gameSlotInvariant (detail : String)
  | pendingRaceFanoutFull
  | invalidSettlementRoster (racers : Nat)
  | rewardSampling (playerId : Int) (reason : RewardRollError)
  | rewardsNotDurable
  | settlementInvariant (detail : String)
  | protocol (error : RaceProtocolError)
  | resultProtocol (error : RaceResultProtocolError)
  | gameSlotSynthesis (error : GameSlotSynthesisError)
  | itemProbability (error : ItemProbabilityError)
deriving DecidableEq

/-- `WorldError`, and of `WorldOperationError` the failure of the MyRoom state, which stops the actor. -/
inductive WorldError where
  | sessionRegistrationClosed
  | identity (error : IdentityError)
  | roomProtocol (error : RoomProtocolError)
  | lobby (error : LobbyError)
  | race (error : RaceError)
  | unknownSession (session : SessionId)
  | identityLimitReached (maximum : Nat)
  | myroomCommandOutboundUnavailable (session : SessionId)
  | clientStageOutboundUnavailable (session : SessionId)
  | migrationAcknowledgementUnavailable (session : SessionId)
  | migrationPublicationUnavailable (session : SessionId)
  | protocolRoomTransitionInconsistent (userNo : Nat)
  | migrationCommitCapacityUnavailable
  | myroomProfileSubjectMismatch
  | rewardAttemptIdExhausted (roomId raceEpoch userNo : Nat)
  | rewardAttemptLeaseFailuresExhausted (roomId raceEpoch userNo : Nat)
  | rewardAttemptLeaseDeadlineOverflow (roomId raceEpoch userNo : Nat)
  | rewardRetryDeadlineOverflow (roomId raceEpoch userNo : Nat)
  | rewardSchedulerInvariant (roomId userNo : Nat)
  | rewardDeadLetterInvariant (roomId raceEpoch : Nat)
  | staleRewardDeadLetter
  | rewardDeadLetterNotRetryable (reason : RewardTerminalReason)
  | sessionDrainRequiresQuiesce
  | identityOperationShutdownBlocked (active : Nat)
  | outboundProducerDrainRequiresQuiesce
  | outboundProductionClosed
  | myroom
deriving DecidableEq

end P5136
