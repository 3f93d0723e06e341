import P5136.World.Settlement

/-!
# Completions and heartbeats

How the settlement of a race ends: the rewards that were persisted are completed one by one, the results are told once all are
durable, and the room goes back to its lobby. A settlement that failed may be tried again. Then the heartbeat of the world, which
moves every race.
-/

namespace P5136

open Act

/-- `DurableRewardReceipt`: what was persisted. `current` says whether the key names a run and a store; the profile comes with
whether it is that of the task's nickname, and with its RP. -/
structure DurableRewardReceipt where
  task : RewardSettlementTask
  current : Bool
  roomId : Nat
  raceEpoch : GlobalRaceEpoch
  userNo : Nat
  canonicalNickname : Option String
  applied : AppliedTimeReward
  profile : Option (Except IdentityError Bool × Nat)

/-- The receipt is that of its task. -/
def DurableRewardReceipt.matchesTask (receipt : DurableRewardReceipt) : Bool :=
  receipt.current && receipt.roomId = receipt.task.fence.roomId.get && receipt.raceEpoch = receipt.task.fence.raceEpoch &&
    receipt.userNo = receipt.task.userNo.get && receipt.canonicalNickname = some receipt.task.canonicalNickname &&
    receipt.applied.earnedRp = receipt.task.proposedReward.earnedRp &&
    receipt.applied.earnedLucci = receipt.task.proposedReward.earnedLucci

inductive RewardPersistenceCompletion where
  | durable (receipt : DurableRewardReceipt)
  | retryableFailure (task : RewardSettlementTask)
  | fatalFailure (task : RewardSettlementTask)

def RewardPersistenceCompletion.task : RewardPersistenceCompletion → RewardSettlementTask
  | .durable receipt => receipt.task
  | .retryableFailure task => task
  | .fatalFailure task => task

/-- The part of MyRoom in a completion: it does not follow the user, it follows another nickname, it fails, or it has a transition
that it commits or fails to. -/
inductive RewardRefresh where
  | none
  | mismatch
  | failed
  | transition (committed : Bool)
deriving DecidableEq

/-- The results of a settlement are ready. -/
def SettlementFinalization.isReady : SettlementFinalization → Bool
  | .ready _ _ _ => true
  | _ => false

/-- Every entry that is not durable is queued anew. -/
def requeued (now : Instant) (rewards : List RewardPersistenceEntry) : List RewardPersistenceEntry :=
  rewards.map (fun reward => if reward.status.isDurable then reward else { reward with status := .queued now 0 })

/-- A dead letter still describes the failed settlement. -/
def RewardDeadLetter.describes (deadLetter : RewardDeadLetter) (failed : SettlementDeadLetterState) : Prop :=
  failed.reason = deadLetter.reason ∧ failed.ranking = deadLetter.retainedRanking ∧
    failed.rewards = deadLetter.retainedRewards ∧ failed.packets = deadLetter.retainedPackets

/-- A dead letter names the entry that failed. -/
def RewardDeadLetter.namesFailure (deadLetter : RewardDeadLetter) (failed : SettlementDeadLetterState) : Prop :=
  let reward := failed.failedUserNo.bind (fun userNo => findReward userNo failed.rewards)
  failed.failedUserNo = deadLetter.failedUserNo ∧ failed.failedNickname = deadLetter.failedNickname ∧
    reward.bind (·.status.inFlightAttemptId) = deadLetter.failedAttemptId ∧
    reward.map (·.canonicalNickname) = deadLetter.failedCanonicalNickname ∧
    reward.map (·.proposedReward) = deadLetter.failedProposedReward ∧ failed.packets.isNone

instance (deadLetter : RewardDeadLetter) (failed : SettlementDeadLetterState) : Decidable (deadLetter.describes failed) :=
  inferInstanceAs (Decidable (_ ∧ _ ∧ _ ∧ _))

instance (deadLetter : RewardDeadLetter) (failed : SettlementDeadLetterState) : Decidable (deadLetter.namesFailure failed) :=
  inferInstanceAs (Decidable (_ ∧ _ ∧ _ ∧ _ ∧ _ ∧ _))

namespace World

/-! ## Ready settlements -/

/-- A room whose rewards are all durable gets its results, or keeps its settlement as failed. The flag says whether it failed. -/
def readiedRoom (room : ProtocolRoomState) : Option (ProtocolRoomState × Bool) :=
  match room.persisting with
  | none => none
  | some (ranking, rewards) =>
    if rewards.all (fun reward => reward.status.isDurable) then
      match settlementPackets room ranking with
      | .ok packets => some (room.setFinalization (.ready ranking rewards packets), false)
      | .error _ => some (room.retainAsDeadLetter .resultSerialization none none, true)
    else none

/-- `prepare_ready_settlement`: whether the settlement failed. -/
def prepareReadySettlement (roomId : RoomId) : WorldAct Bool := do
  let w ← get
  match (w.protocolRooms.lookup roomId).bind readiedRoom with
  | none => pure false
  | some (room, failed) => do
    putRoom roomId room
    pure failed

/-! ## Completions -/

def updateLiveRoomRp (userNo : UserNo) (currentRp : Nat) : WorldAct Unit :=
  modify (fun w => w.withLook userNo (fun room => some (room.setLiveRp userNo currentRp)))

/-- `complete_reward_task` after a failure that may be retried. -/
def completeRetryable (task : RewardSettlementTask) (failureCount : Nat) (now : Instant) :
    WorldAct RewardCompletionDisposition := do
  if maxRewardPersistenceFailures ≤ failureCount + 1 then do
    failRewardSettlement task .rewardPersistence
    pure .terminalFailure
  else
    match Instant.checkedAdd now (rewardRetryDelay (failureCount + 1)) with
    | none => do
      failRewardSettlement task .rewardRetryDeadlineOverflow
      pure .terminalFailure
    | some dueAt => do
      modify (setTaskStatus task (.queued dueAt (failureCount + 1)))
      pure (.retryScheduled (failureCount + 1))

/-- The RP that a completion shows in the room: that of the profile it comes with, when MyRoom can follow. -/
def liveRpOf (receipt : DurableRewardReceipt) (refresh : RewardRefresh) : WorldAct Nat :=
  match receipt.profile with
  | none => pure receipt.applied.currentRp
  | some (subject, rp) => do
    let same ← ofExcept (subject.mapError (fun e => Fault.error (.identity e)))
    require (same = true) (.error .myroomProfileSubjectMismatch)
    require (refresh ≠ .mismatch) (schedulerInvariant receipt.task.fence.roomId receipt.task.userNo)
    require (refresh ≠ .failed) (.error .myroom)
    pure rp

/-- The end of `complete_reward_task` with a receipt: the entry and the economy of the racer, its RP in the room, the part of
MyRoom, and the results when all are durable. -/
def applyReceipt (receipt : DurableRewardReceipt) (refresh : RewardRefresh) (liveRp : Nat) (room : ProtocolRoomState) :
    WorldAct RewardCompletionDisposition := do
  modify (setTaskStatus receipt.task (.durable receipt.applied))
  if ((room.taskParticipant receipt.task).bind (·.result)).isNone then do
    failRewardSettlement receipt.task .rewardParticipantMissing
    pure .terminalFailure
  else do
    modify (fun w =>
      match w.protocolRooms.lookup receipt.task.fence.roomId with
      | none => w
      | some room => w.withRoom receipt.task.fence.roomId (room.applyEconomy receipt.task receipt.applied))
    updateLiveRoomRp receipt.task.userNo liveRp
    require (receipt.profile.isSome → refresh ≠ .transition false) (.error .myroom)
    let failed ← prepareReadySettlement receipt.task.fence.roomId
    pure (if failed then .terminalFailure else .applied)

/-- `complete_reward_task` with a receipt. -/
def completeDurable (receipt : DurableRewardReceipt) (refresh : RewardRefresh) : WorldAct RewardCompletionDisposition := do
  if receipt.matchesTask = false then do
    failRewardSettlement receipt.task .rewardReceiptMismatch
    pure .terminalFailure
  else do
    let w ← get
    match (w.protocolRooms.lookup receipt.task.fence.roomId).filter (fun room =>
        (room.taskParticipant receipt.task).isSome) with
    | none => do
      failRewardSettlement receipt.task .rewardParticipantMissing
      pure .terminalFailure
    | some room => do
      let liveRp ← liveRpOf receipt refresh
      match room.persisting.bind (fun entries => findReward receipt.task.userNo entries.2) with
      | none => pure .ignoredStale
      | some _ => applyReceipt receipt refresh liveRp room

/-- A failure of a lease that is over ends the settlement, not the call. -/
def leaseEnded (e : Fault WorldError) : Bool :=
  match e with
  | .error (.rewardAttemptLeaseFailuresExhausted _ _ _) => true
  | .error (.rewardAttemptLeaseDeadlineOverflow _ _ _) => true
  | .error (.rewardRetryDeadlineOverflow _ _ _) => true
  | _ => false

/-- `expire_reward_attempt` as `complete_reward_task` takes it: `none` when the settlement just failed. -/
def expireForCompletion (task : RewardSettlementTask) (now : Instant) : WorldAct (Option RewardLeaseExpiry) :=
  recover (do
    let expiry ← expireRewardAttempt task now
    pure (some expiry)) (fun e => if leaseEnded e then pure none else fail e)

def completeRewardTask (completion : RewardPersistenceCompletion) (refresh : RewardRefresh) (now : Instant) :
    WorldAct RewardCompletionDisposition := do
  let expiry ← expireForCompletion completion.task now
  match expiry with
  | none => pure .terminalFailure
  | some .notCurrent => pure .ignoredStale
  | some .retryScheduled => pure .ignoredStale
  | some .active => do
    let w ← get
    match w.currentRewardAttempt completion.task with
    | none => pure .ignoredStale
    | some (failureCount, _) =>
      match completion with
      | .retryableFailure task => completeRetryable task failureCount now
      | .fatalFailure task => do
        failRewardSettlement task .rewardPersistence
        pure .terminalFailure
      | .durable receipt => completeDurable receipt refresh

/-! ## Dead letters -/

/-- The failed settlement of a race. -/
def failedSettlement (w : World) (fence : RaceFence) : Option (ProtocolRoomState × SettlementDeadLetterState) := do
  let room ← w.protocolRooms.lookup fence.roomId
  guard (room.raceFence = some fence)
  match room.finalization with
  | some (.failed failed) => some (room, failed)
  | _ => none

def retryRewardDeadLetter (deadLetter : RewardDeadLetter) (now : Instant) : WorldAct Unit := do
  let found ← reads (fun w => Checks.orElse (w.failedSettlement deadLetter.fence) (.error .staleRewardDeadLetter))
  require (deadLetter.describes found.2) (.error .staleRewardDeadLetter)
  require (found.2.reason.permitsPersistenceRetry = true) (.error (.rewardDeadLetterNotRetryable found.2.reason))
  require (deadLetter.namesFailure found.2) (.error .staleRewardDeadLetter)
  let ranking ← orFail found.2.ranking (.error .staleRewardDeadLetter)
  putRoom deadLetter.fence.roomId (found.1.setFinalization (.persisting ranking (requeued now found.2.rewards)))

/-! ## The end of a race -/

/-- The world after a race is over: its lanes are released, and its room is removed when nobody is in it, or goes back to its
lobby with the next grid and the next master. -/
def withFinalized (w : World) (roomId : RoomId) (room : ProtocolRoomState) (ranking : SettlementRanking) : World :=
  let w := match room.raceFence with
    | some fence => w.releaseRewardLanes fence
    | none => w
  if room.isEmpty then w.withoutRoom roomId
  else w.withRoom roomId ((room.applyNextGridRanking ranking).applyNextLobbyMaster ranking).backToLobby

/-- The history of a race that is over. -/
def loggedFinal (w : World) (room : ProtocolRoomState) (packets : List Packet)
    (recipients : List (FrozenRaceParticipant × SessionId)) : World :=
  match room.raceFence with
  | some fence => w.logged (.finalized fence packets recipients)
  | none => w

/-- `try_finalize_settlement`: once the pending fan-outs are queued and the results fit into every queue, the race is over. -/
def tryFinalizeSettlement (roomId : RoomId) : WorldAct Unit := do
  let flushed ← tryFlushPendingRaceFanouts roomId
  if flushed = false then pure ()
  else do
    let w ← get
    match w.protocolRooms.lookup roomId with
    | none => pure ()
    | some room =>
      match room.finalization with
      | some (.ready ranking _ packets) => do
        let frozen ← orFail room.frozenRace (.panic "a non-Lobby room has a frozen roster")
        let recipients := w.activeFrozenRecipientSessions room frozen
        let deliveries := recipients.map (fun recipient => (recipient.2, packets))
        match reserveFrom w.sessions [] deliveries with
        | .error _ => pure ()
        | .ok _ => do
          require (room.isEmpty → roomId.get < 2 ^ 16) (.panic "protocol room ID fits in u16")
          modify (fun w => (w.withFinalized roomId room ranking).loggedFinal room packets recipients)
          publishReserved deliveries
      | _ => pure ()

/-! ## Heartbeats -/

/-- A call at every room of a list, in order. -/
def atRooms (call : RoomId → WorldAct Unit) : List RoomId → WorldAct Unit
  | [] => pure ()
  | roomId :: rest => do
    call roomId
    atRooms call rest

/-- The rooms that a test accepts. The source goes through a hash map, in any order. -/
def roomsWhere (w : World) (p : ProtocolRoomState → Bool) : List RoomId :=
  (w.protocolRooms.entries.filter (fun entry => p entry.2)).map (·.1)

/-- The settlement of a room has reached its deadline. -/
def deadlineReached (room : ProtocolRoomState) (now : Instant) : Bool :=
  room.phase = .settling && room.raceProgress.settlement.any (fun settlement => settlement.deadline ≤ now)

/-- The last part of `advance_loading` at a room: plan and finalize, or flush. -/
def advanceActiveRoom (U : Unicode) (now : Instant) (rolls : RoomId → Int → Nat × Nat) (roomId : RoomId) : WorldAct Unit := do
  let w ← get
  if (w.protocolRooms.lookup roomId).any (fun room => deadlineReached room now) then do
    beginRewardPersistence U now (rolls roomId) roomId
    tryFinalizeSettlement roomId
  else do
    let _ ← tryFlushPendingRaceFanouts roomId
    pure ()

/-- `advance_loading`. `visit` is the order in which the rooms of each part are visited. -/
def advanceLoading (U : Unicode) (items : ItemService) (visit : List RoomId → List RoomId) (now : Instant) (tick : Nat)
    (rolls : RoomId → Int → Nat × Nat) : WorldAct Unit := do
  let w ← get
  if w.quiescing then pure ()
  else do
    atRooms (advanceLoadingRoom items now tick) (visit (w.roomsWhere (fun room => room.phase = .loading)))
    let w ← get
    atRooms (reconcileRunningRoom now tick) (visit (w.roomsWhere (fun room => room.phase = .running)))
    let w ← get
    atRooms (advanceActiveRoom U now rolls)
      (visit (w.roomsWhere (fun room => room.phase = .running || room.phase = .settling)))

/-! ## Shutting down -/

def quiesce : WorldAct Unit := modify (fun w => { w with quiescing := true })

/-- A room that still has something to tell. -/
def pendingWire (room : ProtocolRoomState) : Bool :=
  !room.raceProgress.pendingFanouts.isEmpty || room.finalization.any SettlementFinalization.isReady

/-- `drain_outbound_producers_once`. `now` is a time at which every earlier permit is over; `writes` says whether a profile write
is pending. -/
def drainOutboundProducersOnce (hub : HubReleases) (visit : List RoomId → List RoomId) (writes : Bool) (now : Instant) :
    WorldAct Bool := do
  let w ← get
  require (w.quiescing = true) (.error .outboundProducerDrainRequiresQuiesce)
  if w.outboundProducersSealed then pure true
  else do
    expireMigrationsWithoutWire hub now
    let w ← get
    atRooms tryFinalizeSettlement (visit (w.roomsWhere pendingWire))
    let w ← get
    let drained := !(w.protocolRooms.values.any pendingWire || writes || w.identities.transferInProgressCount ≠ 0 ||
      w.identities.outstandingOperationCount ≠ 0)
    if drained then do
      modify (fun w => { w with outboundProducersSealed := true })
      pure true
    else pure false

end World

end P5136
