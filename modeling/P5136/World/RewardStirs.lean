import P5136.World.RaceStirs

/-!
# How rooms change as rewards are persisted

The planning of rewards, their attempts and completions and the end of a race change the rooms in the listed ways only.
-/

namespace P5136

namespace World

open Act LeadsFrom

variable {calm : Bool} {w w' : World} {roomId : RoomId} {room next : ProtocolRoomState}

/-! ## Failures -/

theorem edit_plannedFailure (room : ProtocolRoomState) (e : RaceError) : Edit calm room (plannedFailure room e) := by
  unfold plannedFailure
  split
  · exact .failed _ _ _
  · exact .failed _ _ _

theorem stirs_beginRewardPersistence (U : Unicode) (now : Instant) (rolls : Int → Nat × Nat) (roomId : RoomId) :
    Leads (Stirs calm) (beginRewardPersistence U now rolls roomId) := by
  refine Act.leads_modify fun w => ?_
  split
  · exact stirs_refl w
  · rename_i room hfound
    split
    · rename_i hawaiting
      split
      · rename_i ranking rewards hplan
        exact .single (.planned hfound hawaiting hplan)
      · exact Stirs.edit1 hfound (edit_plannedFailure room _)
    · exact stirs_refl w

theorem stirs_failRewardSettlement (task : RewardSettlementTask) (reason : RewardTerminalReason) :
    Leads (Stirs calm) (failRewardSettlement task reason) := by
  refine leads (behindGet fun w _ => behindSome fun room hroom => Act.leadsFrom_modify fun s hs => ?_)
  subst hs
  exact Stirs.edit1 (Option.filter_eq_some_iff.1 hroom).1 (.failed _ _ _)

theorem stirs_failEntry (reason : RewardTerminalReason) (roomId : RoomId) (userNo : UserNo) (w : World) :
    Stirs calm w (failEntry reason roomId userNo w) := by
  unfold failEntry
  split
  · exact stirs_refl w
  · rename_i room hfound
    exact Stirs.edit1 hfound (.failed _ _ _)

theorem stirs_failScheduler {α : Type} (reason : RewardTerminalReason) (error : Nat → Nat → Nat → WorldError)
    (roomId : RoomId) (userNo : UserNo) : Leads (Stirs calm) (failScheduler reason error roomId userNo : WorldAct α) := by
  refine leads (behindGet fun w _ => Leads.from ?_)
  refine stirs_bind (Act.leads_modify fun w => stirs_failEntry reason roomId userNo w) fun _ => ?_
  exact ((readOnly_orFail _ _).andThen fun _ => readOnly_fail _).leads stirs_refl

/-! ## Attempts -/

/-- The current attempt of a task is in flight in the room of its race. -/
theorem current_eq {task : RewardSettlementTask} {failures : Nat} {lease : Instant}
    (h : w.currentRewardAttempt task = some (failures, lease)) :
    ∃ room ranking rewards reward, Found task.fence.roomId room w ∧ room.raceFence = some task.fence ∧
      room.persisting = some (ranking, rewards) ∧ findReward task.userNo rewards = some reward ∧
      reward.status = .inFlight task.attemptId failures lease := by
  unfold currentRewardAttempt at h
  obtain ⟨room, hfound, h⟩ := Option.bind_eq_some_iff.1 h
  obtain ⟨_, hfence, h⟩ := Option.bind_eq_some_iff.1 h
  obtain ⟨⟨ranking, rewards⟩, hpersisting, h⟩ := Option.bind_eq_some_iff.1 h
  obtain ⟨reward, hreward, h⟩ := Option.bind_eq_some_iff.1 h
  obtain ⟨_, -, h⟩ := Option.bind_eq_some_iff.1 h
  refine ⟨room, ranking, rewards, reward, hfound, by simpa [guard] using hfence, hpersisting, hreward, ?_⟩
  split at h
  · rename_i attemptId failures' lease' hstatus
    split at h
    · rename_i hattempt
      obtain ⟨rfl, rfl⟩ := Prod.mk.inj (Option.some.inj h)
      rw [hstatus, hattempt]
    · cases h
  · cases h

/-- The status of the entry of a task, in the room that has it. -/
theorem setTaskStatus_eq (task : RewardSettlementTask) {ranking : SettlementRanking} {rewards : List RewardPersistenceEntry}
    (status : RewardPersistenceStatus) (hfound : Found task.fence.roomId room w)
    (hpersisting : room.persisting = some (ranking, rewards)) :
    setTaskStatus task status w = w.withRoom task.fence.roomId
      (room.setFinalization (.persisting ranking (setRewardStatus task.userNo status rewards))) := by
  unfold setTaskStatus
  rw [show w.protocolRooms.lookup task.fence.roomId = some room from hfound]
  simp only [hpersisting]

/-- An attempt that failed is queued again. -/
theorem stirs_requeue {task : RewardSettlementTask} {failures : Nat} {lease : Instant} (dueAt : Instant)
    (h : w.currentRewardAttempt task = some (failures, lease)) :
    Stirs calm w (setTaskStatus task (.queued dueAt (failures + 1)) w) := by
  obtain ⟨room, ranking, rewards, reward, hfound, -, hpersisting, hreward, hstatus⟩ := current_eq h
  rw [setTaskStatus_eq _ _ hfound hpersisting]
  exact Stirs.edit1 hfound (.requeued hpersisting hreward hstatus)

theorem stirs_expireRewardAttempt (task : RewardSettlementTask) (now : Instant) :
    Leads (Stirs calm) (expireRewardAttempt task now) := by
  refine leads (behindGet fun w _ => ?_)
  split
  · exact (stirs_pure _).from
  · rename_i failures lease hcurrent
    split
    · exact (stirs_pure _).from
    · split
      · exact Leads.from (stirs_bind (stirs_failRewardSettlement task _) fun _ => stirs_fail _)
      · split
        · exact Leads.from (stirs_bind (stirs_failRewardSettlement task _) fun _ => stirs_fail _)
        · refine bind stirs_trans (Act.leadsFrom_modify fun s hs => ?_) fun _ => stirs_pure _
          subst hs
          exact stirs_requeue _ hcurrent

theorem stirs_expireAll (now : Instant) (tasks : List RewardSettlementTask) : Leads (Stirs calm) (expireAll now tasks) := by
  induction tasks with
  | nil => exact stirs_pure _
  | cons task rest ih => exact stirs_bind (stirs_expireRewardAttempt task now) fun _ => ih

theorem stirs_expireRewardAttemptLeases (now : Instant) : Leads (Stirs calm) (expireRewardAttemptLeases now) :=
  leads (behindGet fun _ _ => Leads.from (stirs_expireAll now _))

theorem stirs_limitCandidates (candidates : List (RoomId × UserNo)) :
    Leads (Stirs calm) (limitCandidatesToAttemptIdCapacity candidates) := by
  refine leads (behindGet fun w _ => Leads.from ?_)
  split
  · exact stirs_pure _
  · split
    · exact stirs_failScheduler _ _ _ _
    · exact stirs_pure _

/-- An entry that is due is queued in a room that persists its rewards. -/
theorem dueEntry_eq {userNo : UserNo} {now : Instant} {fence : RaceFence} {reward : RewardPersistenceEntry} {failures : Nat}
    (h : w.dueEntry roomId userNo now = some (fence, reward, failures)) :
    ∃ room ranking rewards dueAt, Found roomId room w ∧ room.persisting = some (ranking, rewards) ∧
      findReward userNo rewards = some reward ∧ reward.userNo = userNo ∧ reward.status = .queued dueAt failures := by
  unfold dueEntry at h
  obtain ⟨room, hfound, h⟩ := Option.bind_eq_some_iff.1 h
  obtain ⟨fence', -, h⟩ := Option.bind_eq_some_iff.1 h
  obtain ⟨⟨ranking, rewards⟩, hpersisting, h⟩ := Option.bind_eq_some_iff.1 h
  obtain ⟨reward', hreward, h⟩ := Option.bind_eq_some_iff.1 h
  have huser : reward'.userNo = userNo := by simpa using List.find?_some hreward
  split at h
  · rename_i dueAt failures' hstatus
    split at h
    · simp only [Option.some.injEq, Prod.mk.injEq] at h
      obtain ⟨-, rfl, rfl⟩ := h
      exact ⟨room, ranking, rewards, dueAt, hfound, hpersisting, hreward, huser, hstatus⟩
    · cases h
  · cases h

/-- A change, and then a call from the changed world. -/
theorem behindModify {ε β : Type} {P : World → Prop} {f : World → World} {k : PUnit → Act World (Fault ε) β}
    (hk : ∀ s, P s → LeadsFrom (fun s' => s' = f s) (fun _ t => Stirs calm s t) (k ⟨⟩)) :
    LeadsFrom P (Stirs calm) (Act.modify f >>= k) :=
  fun s hs => hk s hs (f s) rfl

/-- An entry that is due goes in flight once its attempt id is spent. -/
theorem stirs_issue {attemptId : RewardAttemptId} {fence : RaceFence} {reward : RewardPersistenceEntry} {failures : Nat}
    {userNo : UserNo} {now : Instant} {spent : World} (lease : Instant) (hattempt : w.nextRewardAttemptId = some attemptId)
    (hspent : spent = { w with nextRewardAttemptId := attemptId.following })
    (hdue : w.dueEntry roomId userNo now = some (fence, reward, failures)) :
    Stirs calm w (setTaskStatus { reward.task fence attemptId with fence := ⟨roomId, fence.raceEpoch⟩ }
      (.inFlight attemptId failures lease) spent) := by
  obtain ⟨room, ranking, rewards, dueAt, hfound, hpersisting, hreward, huser, hstatus⟩ := dueEntry_eq hdue
  rw [← huser] at hreward
  have hset := setTaskStatus_eq { reward.task fence attemptId with fence := ⟨roomId, fence.raceEpoch⟩ }
    (.inFlight attemptId failures lease)
    (show Found (⟨roomId, fence.raceEpoch⟩ : RaceFence).roomId room spent from hspent ▸ hfound) hpersisting
  rw [hset, hspent]
  exact .single (Stir.issued lease hfound hpersisting hreward hstatus hattempt)

theorem stirs_issueRewardTask (now : Instant) (candidate : RoomId × UserNo) :
    Leads (Stirs calm) (issueRewardTask now candidate) := by
  refine leads (behindGet fun w _ => behindSome fun attemptId hattempt => ?_)
  refine behindModify ?_
  rintro s rfl
  have hfirst : ∀ spent : World, spent = { s with nextRewardAttemptId := attemptId.following } → Stirs calm s spent := by
    rintro spent rfl
    exact .single (.spent hattempt)
  split
  · intro spent hspent
    exact (hfirst spent hspent).trans (stirs_failScheduler _ _ _ _ spent)
  · split
    · intro spent hspent
      exact hfirst spent hspent
    · rename_i hdue
      intro spent hspent
      exact stirs_issue _ hattempt hspent hdue

theorem stirs_issueAll (now : Instant) (candidates : List (RoomId × UserNo)) :
    Leads (Stirs calm) (issueAll now candidates) := by
  induction candidates with
  | nil => exact stirs_pure _
  | cons candidate rest ih =>
    exact stirs_bind (stirs_issueRewardTask now candidate) fun _ => stirs_bind ih fun _ => stirs_pure _

theorem stirs_takeDueRewardTasks (now : Instant) (maximum : Nat) : Leads (Stirs calm) (takeDueRewardTasks now maximum) := by
  refine stirs_bind (stirs_expireRewardAttemptLeases now) fun _ => ?_
  split
  · exact stirs_pure _
  · refine leads (behindGet fun w _ => Leads.from ?_)
    exact stirs_bind (stirs_limitCandidates _) fun _ => stirs_issueAll now _

/-! ## Completions -/

/-- A room that is put in its place twice. -/
theorem withRoom_withRoom (w : World) (roomId : RoomId) (room next : ProtocolRoomState) :
    (w.withRoom roomId room).withRoom roomId next = w.withRoom roomId next := by
  unfold withRoom
  dsimp only
  rw [AList.insert_insert]

theorem edit_readiedRoom {failed : Bool} (h : readiedRoom room = some (next, failed)) : Edit calm room next := by
  unfold readiedRoom at h
  split at h
  · cases h
  · rename_i ranking rewards hpersisting
    split at h
    · rename_i hdurable
      split at h
      · rename_i packets hpackets
        obtain ⟨rfl, -⟩ := Prod.mk.inj (Option.some.inj h)
        exact .readied hpersisting hdurable hpackets
      · obtain ⟨rfl, -⟩ := Prod.mk.inj (Option.some.inj h)
        exact .failed _ _ _
    · cases h

theorem stirs_prepareReadySettlement (roomId : RoomId) : Leads (Stirs calm) (prepareReadySettlement roomId) := by
  refine leads (behindGet fun w _ => ?_)
  split
  · exact (stirs_pure _).from
  · rename_i room failed hready
    obtain ⟨before, hfound, hbefore⟩ := Option.bind_eq_some_iff.1 hready
    refine bind stirs_trans (Act.leadsFrom_modify fun s hs => ?_) fun _ => stirs_pure _
    subst hs
    exact Stirs.edit1 hfound (edit_readiedRoom hbefore)

theorem stirs_updateLiveRoomRp (userNo : UserNo) (currentRp : Nat) :
    Leads (Stirs calm) (updateLiveRoomRp userNo currentRp) := by
  refine Act.leads_modify fun w => stirs_withLook userNo fun room next h => ?_
  obtain rfl := Option.some.inj h
  exact dressed_setLiveRp room userNo currentRp

theorem stirs_completeRetryable {task : RewardSettlementTask} {failures : Nat} {lease : Instant} (now : Instant)
    (h : w.currentRewardAttempt task = some (failures, lease)) :
    LeadsFrom (fun s => s = w) (Stirs calm) (completeRetryable task failures now) := by
  unfold completeRetryable
  split
  · exact Leads.from (stirs_bind (stirs_failRewardSettlement task _) fun _ => stirs_pure _)
  · split
    · exact Leads.from (stirs_bind (stirs_failRewardSettlement task _) fun _ => stirs_pure _)
    · refine bind stirs_trans (Act.leadsFrom_modify fun s hs => ?_) fun _ => stirs_pure _
      subst hs
      exact stirs_requeue _ h

/-- A settlement that is there fails. -/
theorem failRewardSettlement_eq {task : RewardSettlementTask} (reason : RewardTerminalReason)
    (hfound : Found task.fence.roomId room w) (hfence : room.raceFence = some task.fence)
    (hsettlement : room.raceProgress.settlement.isSome) : failRewardSettlement task reason w =
      (.ok (), w.withRoom task.fence.roomId (room.retainAsDeadLetter reason (some task.userNo) (some task.nickname))) := by
  have hroom : (w.protocolRooms.lookup task.fence.roomId).filter (fun room =>
      room.raceFence = some task.fence && room.raceProgress.settlement.isSome) = some room := by
    rw [show w.protocolRooms.lookup task.fence.roomId = some room from hfound, Option.filter_some, if_pos]
    simp [hfence, hsettlement]
  unfold failRewardSettlement
  rw [Act.bind_of_ok (Act.get_eq_ok.2 ⟨rfl, rfl⟩), hroom]
  rfl

/-- Another finalization is one of a settlement that is there. -/
theorem settlement_setFinalization {ranking : SettlementRanking} {rewards : List RewardPersistenceEntry}
    (finalization : SettlementFinalization) (h : room.persisting = some (ranking, rewards)) :
    (room.setFinalization finalization).raceProgress.settlement.isSome := by
  have hfinalization := ProtocolRoomState.finalization_of_persisting h
  obtain ⟨settlement, hsettlement, -⟩ := Option.map_eq_some_iff.1 hfinalization
  change (room.raceProgress.settlement.map _).isSome
  rw [hsettlement]
  rfl

/-- After one change more, any call. -/
theorem afterModify {ε β : Type} {f : World → World} {k : PUnit → Act World (Fault ε) β} (h : Stirs calm w (f w'))
    (hk : ∀ a, Leads (Stirs calm) (k a)) : Stirs calm w ((Act.modify f >>= k : Act World (Fault ε) β) w').2 :=
  h.trans (hk ⟨⟩ (f w'))

/-- A receipt is applied to the entry and to the racer, or the settlement fails. -/
theorem stirs_applyReceipt {receipt : DurableRewardReceipt} {failures : Nat} {lease : Instant} (refresh : RewardRefresh)
    (liveRp : Nat) (hcurrent : w.currentRewardAttempt receipt.task = some (failures, lease))
    (hfound : Found receipt.task.fence.roomId room w) (hparticipant : (room.taskParticipant receipt.task).isSome) :
    LeadsFrom (fun s => s = w) (Stirs calm) (applyReceipt receipt refresh liveRp room) := by
  obtain ⟨room', ranking, rewards, reward, hfound', hfence, hpersisting, hreward, hstatus⟩ := current_eq hcurrent
  obtain rfl := Option.some.inj (hfound'.symm.trans hfound)
  obtain ⟨participant, hracer⟩ := Option.isSome_iff_exists.1 hparticipant
  obtain ⟨paid, hpaid⟩ : ∃ paid, paid = room'.setFinalization
    (.persisting ranking (setRewardStatus receipt.task.userNo (.durable receipt.applied) rewards)) := ⟨_, rfl⟩
  have hset : setTaskStatus receipt.task (.durable receipt.applied) w = w.withRoom receipt.task.fence.roomId paid := by
    rw [hpaid]
    exact setTaskStatus_eq receipt.task (.durable receipt.applied) hfound hpersisting
  have hpaidFence : paid.raceFence = some receipt.task.fence := by
    rw [hpaid]
    exact hfence
  have hsettlement : paid.raceProgress.settlement.isSome := by
    rw [hpaid]
    exact settlement_setFinalization _ hpersisting
  refine behindModify ?_
  rintro s rfl
  have hspentFound : Found receipt.task.fence.roomId paid (s.withRoom receipt.task.fence.roomId paid) := lookup_withRoom_self s _ _
  rw [hset]
  split
  · rename_i hnone
    rw [hracer] at hnone
    rintro _ rfl
    rw [Act.bind_of_ok (failRewardSettlement_eq .rewardParticipantMissing hspentFound hpaidFence hsettlement), withRoom_withRoom,
      hpaid]
    exact Stirs.edit1 hfound (.orphaned hpersisting hracer (Option.isNone_iff_eq_none.1 hnone))
  · rename_i hsome
    rw [hracer] at hsome
    rintro _ rfl
    refine afterModify ?_ fun _ => stirs_bind (stirs_updateLiveRoomRp _ _) fun _ => ?_
    · rw [show (s.withRoom receipt.task.fence.roomId paid).protocolRooms.lookup receipt.task.fence.roomId = some paid from
        hspentFound]
      dsimp only
      rw [withRoom_withRoom, hpaid]
      refine Stirs.edit1 hfound (.paid hpersisting hreward hstatus hracer ?_)
      rcases hresult : participant.result with _ | result
      · exact absurd (by rw [Option.bind_some, hresult]; rfl) hsome
      · rfl
    · refine stirs_bind ((readOnly_require _ _).leads stirs_refl) fun _ => ?_
      exact stirs_bind (stirs_prepareReadySettlement _) fun _ => stirs_pure _

theorem readOnly_liveRpOf (receipt : DurableRewardReceipt) (refresh : RewardRefresh) :
    ReadOnly (liveRpOf receipt refresh) := by
  unfold liveRpOf
  split
  · exact readOnly_pure _
  · refine (readOnly_ofExcept _).andThen fun _ => (readOnly_require _ _).andThen fun _ => ?_
    exact (readOnly_require _ _).andThen fun _ => (readOnly_require _ _).andThen fun _ => readOnly_pure _

theorem stirs_completeDurable {receipt : DurableRewardReceipt} {failures : Nat} {lease : Instant} (refresh : RewardRefresh)
    (hcurrent : w.currentRewardAttempt receipt.task = some (failures, lease)) :
    LeadsFrom (fun s => s = w) (Stirs calm) (completeDurable receipt refresh) := by
  unfold completeDurable
  split
  · exact Leads.from (stirs_bind (stirs_failRewardSettlement _ _) fun _ => stirs_pure _)
  · refine behindGet fun s hs => ?_
    subst hs
    split
    · exact Leads.from (stirs_bind (stirs_failRewardSettlement _ _) fun _ => stirs_pure _)
    · rename_i room hroom
      obtain ⟨hfound, hparticipant⟩ := Option.filter_eq_some_iff.1 hroom
      refine pass (readOnly_liveRpOf receipt refresh) fun liveRp => ?_
      split
      · exact (stirs_pure _).from
      · exact stirs_applyReceipt refresh liveRp hcurrent hfound hparticipant

theorem stirs_expireForCompletion (task : RewardSettlementTask) (now : Instant) :
    Leads (Stirs calm) (expireForCompletion task now) := by
  refine Leads.recover stirs_trans ?_ fun e => ?_
  · exact stirs_bind (stirs_expireRewardAttempt task now) fun _ => stirs_pure _
  · split
    · exact stirs_pure _
    · exact stirs_fail _

theorem stirs_completeRewardTask (completion : RewardPersistenceCompletion) (refresh : RewardRefresh) (now : Instant) :
    Leads (Stirs calm) (completeRewardTask completion refresh now) := by
  refine stirs_bind (stirs_expireForCompletion _ now) fun expiry => ?_
  split
  · exact stirs_pure _
  · exact stirs_pure _
  · exact stirs_pure _
  · refine leads (behindGet fun w _ => ?_)
    rcases hcurrent : w.currentRewardAttempt completion.task with _ | ⟨failures, lease⟩
    · exact (stirs_pure _).from
    · cases completion with
      | retryableFailure task => exact stirs_completeRetryable now hcurrent
      | fatalFailure task =>
        exact Leads.from (stirs_bind (stirs_failRewardSettlement _ _) fun _ => stirs_pure _)
      | durable receipt => exact stirs_completeDurable refresh hcurrent

theorem failedSettlement_eq {fence : RaceFence} {failed : SettlementDeadLetterState}
    (h : w.failedSettlement fence = some (room, failed)) :
    Found fence.roomId room w ∧ room.finalization = some (.failed failed) := by
  unfold failedSettlement at h
  obtain ⟨room', hroom, hrest⟩ := Option.bind_eq_some_iff.1 h
  obtain ⟨_, -, hrest⟩ := Option.bind_eq_some_iff.1 hrest
  rcases hfinalization : room'.finalization with _ | finalization
  · simp only [hfinalization] at hrest
    exact absurd hrest (by simp)
  · cases finalization with
    | failed state =>
      simp only [hfinalization] at hrest
      obtain ⟨rfl, rfl⟩ := Prod.mk.inj (Option.some.inj hrest)
      exact ⟨hroom, hfinalization⟩
    | awaitingDeadline =>
      simp only [hfinalization] at hrest
      exact absurd hrest (by simp)
    | persisting _ _ =>
      simp only [hfinalization] at hrest
      exact absurd hrest (by simp)
    | ready _ _ _ =>
      simp only [hfinalization] at hrest
      exact absurd hrest (by simp)

theorem stirs_retryRewardDeadLetter (deadLetter : RewardDeadLetter) (now : Instant) :
    Leads (Stirs calm) (retryRewardDeadLetter deadLetter now) := by
  refine leads ((readOnly_reads _).leadsFrom stirs_refl fun found => ?_)
  obtain ⟨room, failed⟩ := found
  refine mono (Q := fun w => Found deadLetter.fence.roomId room w ∧ room.finalization = some (.failed failed)) ?_
    (fun w hw => failedSettlement_eq (Checks.orElse_eq_ok.1 (Act.reads_eq_ok.1 hw.2).1))
  refine pass (readOnly_require _ _) fun _ => behindGuard fun hretryable => behindGuard fun hnames => ?_
  refine behindSome fun ranking hranking => Act.leadsFrom_modify fun w hw => Stirs.edit1 hw.1 ?_
  obtain ⟨-, -, -, -, -, hpackets⟩ := hnames
  exact .retried hw.2 hretryable hranking (Option.isNone_iff_eq_none.1 hpackets)

/-! ## The end of a race -/

theorem stirs_tryFinalizeSettlement (roomId : RoomId) : Leads (Stirs calm) (tryFinalizeSettlement roomId) := by
  refine Leads.behind stirs_trans
    (Q := fun flushed s => flushed = true → ∀ room, Found roomId room s → room.raceProgress.pendingFanouts = [])
    (stirs_tryFlushPendingRaceFanouts roomId) ?_ fun flushed => ?_
  · rintro s flushed t hflush rfl room hfound
    exact nothing_pending hflush hfound
  · split
    · exact (stirs_pure _).from
    · rename_i hflushed
      refine behindGet fun w hpending => ?_
      split
      · exact (stirs_pure _).from
      · rename_i room hfound
        split
        · rename_i ranking rewards packets hready
          refine behindSome fun frozen hfrozen => ?_
          dsimp only
          split
          · exact (stirs_pure _).from
          · refine pass (readOnly_require _ _) fun _ => bind stirs_trans (Act.leadsFrom_modify fun s hs => ?_) fun _ => ?_
            · subst hs
              exact .single (.finalized hfound hfrozen (hpending (Bool.eq_true_of_not_eq_false hflushed) room hfound) hready)
            · exact stirs_publishReserved _
        · exact (stirs_pure _).from

theorem stirs_atRooms {call : RoomId → WorldAct Unit} (h : ∀ roomId, Leads (Stirs calm) (call roomId)) (rooms : List RoomId) :
    Leads (Stirs calm) (atRooms call rooms) := by
  induction rooms with
  | nil => exact stirs_pure _
  | cons roomId rest ih => exact stirs_bind (h roomId) fun _ => ih

theorem stirs_advanceActiveRoom (U : Unicode) (now : Instant) (rolls : RoomId → Int → Nat × Nat) (roomId : RoomId) :
    Leads (Stirs calm) (advanceActiveRoom U now rolls roomId) := by
  refine leads (behindGet fun w _ => Leads.from ?_)
  split
  · exact stirs_bind (stirs_beginRewardPersistence U now _ roomId) fun _ => stirs_tryFinalizeSettlement roomId
  · exact stirs_bind (stirs_tryFlushPendingRaceFanouts roomId) fun _ => stirs_pure _

theorem stirs_drainOutboundProducersOnce (hub : HubReleases) (visit : List RoomId → List RoomId) (writes : Bool) (now : Instant) :
    Leads (Stirs calm) (drainOutboundProducersOnce hub visit writes now) := by
  refine leads (behindGet fun w _ => pass (readOnly_require _ _) fun _ => Leads.from ?_)
  split
  · exact stirs_pure _
  · refine stirs_bind (stirs_expireMigrationsWithoutWire hub now) fun _ => leads (behindGet fun w _ => Leads.from ?_)
    refine stirs_bind (stirs_atRooms stirs_tryFinalizeSettlement _) fun _ => leads (behindGet fun w _ => Leads.from ?_)
    dsimp only
    split
    · refine stirs_bind (stirs_modify fun _ => ⟨rfl, ⟨rfl, rfl⟩, rfl, rfl⟩) fun _ => stirs_pure _
    · exact stirs_pure _

end World

end P5136
