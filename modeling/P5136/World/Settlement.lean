import P5136.World.Loading

/-!
# Settlements

The rewards of a race that is over: they are planned at the deadline, handed out as tasks under leases, and completed by whoever
persists them. When every reward is durable the results are told and the room goes back to its lobby. A settlement that fails is
kept, and may be retried.
-/

namespace P5136

open Act

/-- `MAX_REWARD_PERSISTENCE_FAILURES`. -/
def maxRewardPersistenceFailures : Nat := 8

/-- `REWARD_ATTEMPT_LEASE`. -/
def rewardAttemptLease : Duration := seconds 30

/-- `MAX_DUE_REWARD_TASK_BATCH`. -/
def maxDueRewardTaskBatch : Nat := 64

/-- `reward_retry_delay`: a tenth of a second, doubled with every failure, and five seconds at most. -/
def rewardRetryDelay (failureCount : Nat) : Duration :=
  min (milliseconds 100 * 2 ^ min (failureCount - 1) 31) (seconds 5)

/-- The attempt id after this one, when there is one. -/
def RewardAttemptId.following (attemptId : RewardAttemptId) : Option RewardAttemptId :=
  if h : attemptId.get + 1 < 2 ^ 64 then some ⟨attemptId.get + 1, Nat.succ_ne_zero _, h⟩ else none

structure RewardSettlementTask where
  fence : RaceFence
  attemptId : RewardAttemptId
  userNo : UserNo
  nickname : String
  canonicalNickname : String
  proposedReward : TimeReward
deriving DecidableEq

inductive RewardLeaseExpiry where
  | notCurrent
  | active
  | retryScheduled
deriving DecidableEq

inductive RewardCompletionDisposition where
  | applied
  | retryScheduled (failureCount : Nat)
  | terminalFailure
  | ignoredStale
deriving DecidableEq

structure RewardDeadLetter where
  fence : RaceFence
  failedAttemptId : Option RewardAttemptId
  failedUserNo : Option UserNo
  failedNickname : Option String
  failedCanonicalNickname : Option String
  failedProposedReward : Option TimeReward
  reason : RewardTerminalReason
  retainedRanking : Option SettlementRanking
  retainedRewards : List RewardPersistenceEntry
  retainedPackets : Option (List Packet)

/-! ## The entries of a settlement -/

/-- The entry of a user. -/
def findReward (userNo : UserNo) (rewards : List RewardPersistenceEntry) : Option RewardPersistenceEntry :=
  rewards.find? (fun reward => reward.userNo = userNo)

/-- Set the status of the first entry of a user. -/
def setRewardStatus (userNo : UserNo) (status : RewardPersistenceStatus) :
    List RewardPersistenceEntry → List RewardPersistenceEntry
  | [] => []
  | reward :: rest =>
    if reward.userNo = userNo then { reward with status := status } :: rest
    else reward :: setRewardStatus userNo status rest

/-- The task of an entry. -/
def RewardPersistenceEntry.task (reward : RewardPersistenceEntry) (fence : RaceFence) (attemptId : RewardAttemptId) :
    RewardSettlementTask where
  fence := fence
  attemptId := attemptId
  userNo := reward.userNo
  nickname := reward.nickname
  canonicalNickname := reward.canonicalNickname
  proposedReward := reward.proposedReward

/-- A participant is the racer of a task. -/
def RewardSettlementTask.isOf (task : RewardSettlementTask) (participant : FrozenRaceParticipant) : Bool :=
  !participant.observer && participant.identity.userNo = task.userNo && participant.nickname = task.nickname

/-- Change the first element that a test accepts. -/
def modifyFirst {α : Type} (p : α → Bool) (f : α → α) : List α → List α
  | [] => []
  | a :: rest => if p a then f a :: rest else a :: modifyFirst p f rest

/-- The ranking and the entries while they are persisted. -/
def SettlementFinalization.persisting? : SettlementFinalization → Option (SettlementRanking × List RewardPersistenceEntry)
  | .persisting ranking rewards => some (ranking, rewards)
  | _ => none

namespace ProtocolRoomState

variable (room : ProtocolRoomState)

/-- The finalization of the settlement of a room. -/
def finalization : Option SettlementFinalization := room.raceProgress.settlement.map (·.finalization)

/-- The entries of a room that persists its rewards. -/
def persisting : Option (SettlementRanking × List RewardPersistenceEntry) :=
  room.finalization.bind SettlementFinalization.persisting?

/-- A room with another finalization. -/
def setFinalization (finalization : SettlementFinalization) : ProtocolRoomState :=
  { room with raceProgress := { room.raceProgress with
      settlement := room.raceProgress.settlement.map (fun settlement => { settlement with finalization := finalization }) } }

/-- The settlement fails and is kept. -/
def retainAsDeadLetter (reason : RewardTerminalReason) (failedUserNo : Option UserNo) (failedNickname : Option String) :
    ProtocolRoomState :=
  match room.finalization with
  | some finalization => room.setFinalization (finalization.retainAsDeadLetter reason failedUserNo failedNickname)
  | none => room

/-- The racer of a task. -/
def taskParticipant (task : RewardSettlementTask) : Option FrozenRaceParticipant :=
  room.frozenRace.bind (fun frozen => frozen.participants.find? task.isOf)

/-- The economy of the racer of a task is applied. -/
def applyEconomy (task : RewardSettlementTask) (applied : AppliedTimeReward) : ProtocolRoomState :=
  let pay := fun (participant : FrozenRaceParticipant) =>
    { participant with result := participant.result.map (fun result => { result with economy := .applied applied }) }
  { room with frozenRace := room.frozenRace.map (fun frozen =>
      { frozen with participants := modifyFirst task.isOf pay frozen.participants }) }

/-- `update_live_room_rp` at a room. -/
def setLiveRp (userNo : UserNo) (currentRp : Nat) : ProtocolRoomState :=
  match room.memberId userNo with
  | none => room
  | some id => { room with membersById := Function.update room.membersById id ((room.membersById id).map (fun member =>
      { member with player := { member.player with rp := currentRp } })) }

end ProtocolRoomState

namespace World

/-! ## Planning -/

/-- The failure of a plan as it is kept. -/
def plannedFailure (room : ProtocolRoomState) : RaceError → ProtocolRoomState
  | .rewardSampling playerId _ =>
    let failed := (room.frozenRace.bind (fun frozen => frozen.racers.find? (fun participant =>
      participant.playerId = playerId)))
    room.retainAsDeadLetter .rewardSampling (failed.map (·.identity.userNo)) (failed.map (·.nickname))
  | _ => room.retainAsDeadLetter .invalidRanking none none

/-- The world with the rewards of a room planned. -/
def withPlanned (w : World) (roomId : RoomId) (room : ProtocolRoomState) (ranking : SettlementRanking)
    (rewards : List RewardPersistenceEntry) : World :=
  match room.raceFence with
  | some fence => (w.withRoom roomId (room.setFinalization (.persisting ranking rewards))).logged (.planned fence rewards)
  | none => w.withRoom roomId (room.setFinalization (.persisting ranking rewards))

/-- `begin_reward_persistence`: rewards are planned once, when the settlement awaits its deadline. -/
def beginRewardPersistence (U : Unicode) (now : Instant) (rolls : Int → Nat × Nat) (roomId : RoomId) : WorldAct Unit :=
  modify (fun w =>
    match w.protocolRooms.lookup roomId with
    | none => w
    | some room =>
      if room.finalization = some .awaitingDeadline then
        match planRewardPersistence U room now rolls with
        | .ok (ranking, rewards) => w.withPlanned roomId room ranking rewards
        | .error e => w.withRoom roomId (plannedFailure room e)
      else w)

/-! ## Leases -/

/-- `current_reward_attempt`: the number of failures and the deadline of the attempt of a task, when it is the current one. -/
def currentRewardAttempt (w : World) (task : RewardSettlementTask) : Option (Nat × Instant) := do
  let room ← w.protocolRooms.lookup task.fence.roomId
  guard (room.raceFence = some task.fence)
  let entries ← room.persisting
  let reward ← findReward task.userNo entries.2
  guard (reward.nickname = task.nickname ∧ reward.canonicalNickname = task.canonicalNickname ∧
    reward.proposedReward = task.proposedReward)
  match reward.status with
  | .inFlight attemptId failureCount leaseDeadline =>
    if attemptId = task.attemptId then some (failureCount, leaseDeadline) else none
  | _ => none

/-- The error of a scheduler that lost a race. -/
def schedulerInvariant (roomId : RoomId) (userNo : UserNo) : Fault WorldError :=
  .error (.rewardSchedulerInvariant roomId.get userNo.get)

def failRewardSettlement (task : RewardSettlementTask) (reason : RewardTerminalReason) : WorldAct Unit := do
  let w ← get
  let room ← orFail ((w.protocolRooms.lookup task.fence.roomId).filter (fun room =>
    room.raceFence = some task.fence && room.raceProgress.settlement.isSome)) (schedulerInvariant task.fence.roomId task.userNo)
  putRoom task.fence.roomId (room.retainAsDeadLetter reason (some task.userNo) (some task.nickname))

/-- The status of the entry of a task changes. -/
def setTaskStatus (task : RewardSettlementTask) (status : RewardPersistenceStatus) (w : World) : World :=
  match w.protocolRooms.lookup task.fence.roomId with
  | none => w
  | some room =>
    match room.persisting with
    | none => w
    | some (ranking, rewards) =>
      w.withRoom task.fence.roomId (room.setFinalization (.persisting ranking (setRewardStatus task.userNo status rewards)))

/-- The errors of a lease that is over. -/
def leaseError (error : Nat → Nat → Nat → WorldError) (fence : RaceFence) (userNo : UserNo) : Fault WorldError :=
  .error (error fence.roomId.get fence.raceEpoch.get userNo.get)

/-- `expire_reward_attempt`: the current attempt of a task is queued again when its lease is over, or the settlement fails. -/
def expireRewardAttempt (task : RewardSettlementTask) (now : Instant) : WorldAct RewardLeaseExpiry := do
  let w ← get
  match w.currentRewardAttempt task with
  | none => pure .notCurrent
  | some (failureCount, leaseDeadline) =>
    if now < leaseDeadline then pure .active
    else if maxRewardPersistenceFailures ≤ failureCount + 1 then do
      failRewardSettlement task .rewardPersistence
      fail (leaseError .rewardAttemptLeaseFailuresExhausted task.fence task.userNo)
    else
      match Instant.checkedAdd now (rewardRetryDelay (failureCount + 1)) with
      | none => do
        failRewardSettlement task .rewardRetryDeadlineOverflow
        fail (leaseError .rewardRetryDeadlineOverflow task.fence task.userNo)
      | some dueAt => do
        modify (setTaskStatus task (.queued dueAt (failureCount + 1)))
        pure .retryScheduled

/-- The attempts of a room whose leases are over. -/
def expiredOf (now : Instant) (room : ProtocolRoomState) : List RewardSettlementTask :=
  match room.raceFence, room.persisting with
  | some fence, some (_, rewards) =>
    rewards.filterMap (fun reward =>
      match reward.status with
      | .inFlight attemptId _ leaseDeadline => if leaseDeadline ≤ now then some (reward.task fence attemptId) else none
      | _ => none)
  | _, _ => []

/-- The order in which leases expire. -/
def expiresBefore (a b : RewardSettlementTask) : Bool :=
  a.fence.roomId.get < b.fence.roomId.get || (a.fence.roomId.get = b.fence.roomId.get &&
    (a.fence.raceEpoch.get < b.fence.raceEpoch.get || (a.fence.raceEpoch.get = b.fence.raceEpoch.get &&
      a.userNo.get ≤ b.userNo.get)))

/-- Expire leases in turn; the first failure ends it. -/
def expireAll (now : Instant) : List RewardSettlementTask → WorldAct Unit
  | [] => pure ()
  | task :: rest => do
    let _ ← expireRewardAttempt task now
    expireAll now rest

def expireRewardAttemptLeases (now : Instant) : WorldAct Unit := do
  let w ← get
  expireAll now ((w.protocolRooms.values.flatMap (expiredOf now)).mergeSort expiresBefore)

/-! ## Tasks -/

/-- The users of a room whose rewards are due. -/
def dueOf (now : Instant) (entry : RoomId × ProtocolRoomState) : List (RoomId × UserNo) :=
  match entry.2.persisting with
  | some (_, rewards) =>
    rewards.filterMap (fun reward =>
      match reward.status with
      | .queued dueAt _ => if dueAt ≤ now then some (entry.1, reward.userNo) else none
      | _ => none)
  | none => []

/-- The order of the candidates. -/
def dueBefore (a b : RoomId × UserNo) : Bool :=
  a.1.get < b.1.get || (a.1.get = b.1.get && a.2.get ≤ b.2.get)

def dueRewardCandidates (w : World) (now : Instant) (maximum : Nat) : List (RoomId × UserNo) :=
  ((w.protocolRooms.entries.flatMap (fun entry => dueOf now (entry.1, entry.2))).mergeSort dueBefore).take maximum

/-- A settlement fails because of the entry of a user. -/
def failEntry (reason : RewardTerminalReason) (roomId : RoomId) (userNo : UserNo) (w : World) : World :=
  match w.protocolRooms.lookup roomId with
  | none => w
  | some room =>
    w.withRoom roomId (room.retainAsDeadLetter reason (some userNo)
      (room.persisting.bind (fun entries => (findReward userNo entries.2).map (·.nickname))))

/-- A settlement fails, and so does the call, with the fence of its race. -/
def failScheduler (reason : RewardTerminalReason) (error : Nat → Nat → Nat → WorldError) (roomId : RoomId) (userNo : UserNo)
    {α : Type} : WorldAct α := do
  let w ← get
  modify (failEntry reason roomId userNo)
  let fence ← orFail ((w.protocolRooms.lookup roomId).bind (·.raceFence)) (schedulerInvariant roomId userNo)
  fail (leaseError error fence userNo)

def limitCandidatesToAttemptIdCapacity (candidates : List (RoomId × UserNo)) : WorldAct (List (RoomId × UserNo)) := do
  let w ← get
  match candidates with
  | [] => pure []
  | first :: _ =>
    match w.nextRewardAttemptId with
    | none => failScheduler .rewardAttemptIdExhausted .rewardAttemptIdExhausted first.1 first.2
    | some next => pure (if next.get = 2 ^ 64 - 1 then candidates.take 1 else candidates)

/-- The entry of a user that is due, in a room that persists its rewards. -/
def dueEntry (w : World) (roomId : RoomId) (userNo : UserNo) (now : Instant) :
    Option (RaceFence × RewardPersistenceEntry × Nat) := do
  let room ← w.protocolRooms.lookup roomId
  let fence ← room.raceFence
  let entries ← room.persisting
  let reward ← findReward userNo entries.2
  match reward.status with
  | .queued dueAt failureCount => if dueAt ≤ now then some (fence, reward, failureCount) else none
  | _ => none

/-- `issue_reward_task`: the entry of a user goes in flight under a new attempt id and a lease. -/
def issueRewardTask (now : Instant) (candidate : RoomId × UserNo) : WorldAct (Option RewardSettlementTask) := do
  let w ← get
  let attemptId ← orFail w.nextRewardAttemptId (schedulerInvariant candidate.1 candidate.2)
  modify (fun w => { w with nextRewardAttemptId := attemptId.following })
  match Instant.checkedAdd now rewardAttemptLease with
  | none => failScheduler .rewardAttemptLeaseDeadlineOverflow .rewardAttemptLeaseDeadlineOverflow candidate.1 candidate.2
  | some leaseDeadline =>
    match w.dueEntry candidate.1 candidate.2 now with
    | none => pure none
    | some (fence, reward, failureCount) => do
      let task := reward.task fence attemptId
      modify (setTaskStatus { task with fence := ⟨candidate.1, fence.raceEpoch⟩ }
        (.inFlight attemptId failureCount leaseDeadline))
      pure (some task)

/-- Issue tasks in turn. -/
def issueAll (now : Instant) : List (RoomId × UserNo) → WorldAct (List RewardSettlementTask)
  | [] => pure []
  | candidate :: rest => do
    let task ← issueRewardTask now candidate
    let tasks ← issueAll now rest
    pure (task.toList ++ tasks)

def takeDueRewardTasks (now : Instant) (maximum : Nat) : WorldAct (List RewardSettlementTask) := do
  expireRewardAttemptLeases now
  if min maximum maxDueRewardTaskBatch = 0 then pure []
  else do
    let w ← get
    let candidates ← limitCandidatesToAttemptIdCapacity (w.dueRewardCandidates now (min maximum maxDueRewardTaskBatch))
    issueAll now candidates

end World

end P5136
