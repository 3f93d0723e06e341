import P5136.Identity.Naming
import P5136.World.Courses
import P5136.World.Tracks

/-!
# What the commands of the world do to its rooms

Every change that a command makes to the rooms, to who is in them and to the lanes of their races, with what the command has
checked before. Whatever a command does is a chain of these. What only concerns sessions, identities and MyRoom is one of them too:
it leaves all rooms. A chain without the loading of a race is calm.
-/

namespace P5136

namespace World

open Act ProtocolRoomState LeadsFrom Checks

/-- The rooms, who is in them, the lanes of their races, and the counters of races and rewards. -/
def roomState (w : World) : FiniteMap RoomId ProtocolRoomState × FiniteMap UserNo RoomId × FiniteMap UserNo RaceFence ×
    Option GlobalRaceEpoch × Option RewardAttemptId :=
  (w.protocolRooms, w.protocolRoomByUser, w.rewardLanes, w.nextRaceEpoch, w.nextRewardAttemptId)

/-- All rooms stay as they are, no race does anything, and a room without a protocol gets an id that no other has. -/
structure Untouched (w w' : World) : Prop where
  state : w'.roomState = w.roomState
  free : w'.freeProtocolRoomIds ⊆ w.freeProtocolRoomIds
  others : ∀ id ∈ w'.rooms, id ∈ w.rooms ∨ w.protocolRooms.lookup id = none ∧ id.get ∉ w'.freeProtocolRoomIds
  history : ∃ sessions : List SessionId, w'.history = w.history ++ sessions.map RaceEvent.registered
  named : w.identities.Named → w'.identities.Named

/-- An id that a new room may get. -/
def Spare (w : World) (id : Nat) : Prop :=
  w.roomIdFree id = true ∧ (id ∈ w.freeProtocolRoomIds ∨ 0 < id ∧ id < 2 ^ 16)

/-- A world with other free ids. -/
def withIds (w : World) (ids : Finset Nat) (nextRoomId : Nat) : World :=
  { w with freeProtocolRoomIds := ids, nextRoomId := nextRoomId }

/-- A finish that is recorded: its race is on, the player is one of its racers and has no finish yet, there is a place for what
is told of it, and it begins the settlement when it is the first. -/
structure Finishes (room : ProtocolRoomState) (playerId : Int) (raceTime : Nat) (settlement : Option SettlementState)
    (fanout : PendingRaceFanout) (now : Instant) : Prop where
  active : room.phase = .running ∨ room.phase = .settling
  opened : settlementClosed room now = false
  racer : ∃ roster, room.frozenRace = some roster ∧ playerId ∈ roster.racerIds
  new : room.raceProgress.finishTimes.lookup playerId = none
  begins : if room.phase = .running then ∃ tick begun, SettlementState.begun now tick = some begun ∧ settlement = some begun
    else settlement = none
  place : (room.raceProgress.pendingFanouts.filter (fun fanout => fanout.raceTime.isSome)).length < roomSlotCount
  told : ∃ packet excluded, serializeRaceTime playerId raceTime = .ok packet ∧
    fanout = finishFanout playerId raceTime packet settlement excluded

/-- A race that starts: its room is in the lobby, its racers are the members of the room and own no lanes, and its epoch is the
next one. -/
structure Starts (w : World) (roomId : RoomId) (room : ProtocolRoomState) (roster : FrozenRaceRoster) : Prop where
  lobby : room.phase = .lobby
  members : room.members ≠ []
  lanes : ∀ entry ∈ room.members, w.rewardLanes.lookup entry.2.userNo = none
  frozen : room.freezeRaceRoster w.identities.activeIdentityByUserNo roster.fence roster.concreteTrack = .ok roster
  fence : roster.fence.roomId = roomId
  epoch : w.nextRaceEpoch = some roster.fence.raceEpoch
  track : isRandomTrackSelector roster.concreteTrack = false

/-- One change of the rooms. It is calm when no race is loaded by it. -/
inductive Stir : Bool → World → World → Prop where
  /-- What concerns no room. -/
  | still {calm : Bool} {w w' : World} : Untouched w w' → Stir calm w w'
  /-- An attempt id is spent. -/
  | spent {calm : Bool} {w : World} {attemptId : RewardAttemptId} : w.nextRewardAttemptId = some attemptId →
      Stir calm w { w with nextRewardAttemptId := attemptId.following }
  /-- Ids of rooms are taken, and go back when their room is not made. -/
  | freed {calm : Bool} {w : World} (ids : Finset Nat) (nextRoomId : Nat) :
      (∀ id ∈ ids, id ∈ w.freeProtocolRoomIds ∨ w.Spare id) →
      Stir calm w (w.withIds ids nextRoomId)
  /-- A room is edited. -/
  | edited {calm : Bool} {w : World} {roomId : RoomId} {room next : ProtocolRoomState} : Found roomId room w →
      Edits calm room next →
      Stir calm w (w.withRoom roomId next)
  /-- A room is opened. -/
  | opened {calm : Bool} {w : World} {ids : Finset Nat} {nextRoomId : Nat} {roomId : RoomId} {settings : RoomSettings}
      {userNo : UserNo}
      {participant : RoomParticipant} {room : ProtocolRoomState} : w.Spare roomId.get → ids ⊆ w.freeProtocolRoomIds →
      roomId.get ∉ ids → w.protocolRoomByUser.lookup userNo = none → participant.player.userNo = userNo.get →
      (new roomId settings).addParticipant userNo participant = some room →
      Stir calm w ((w.withIds ids nextRoomId).withMember userNo roomId room)
  /-- A room is entered. -/
  | entered {calm : Bool} {w : World} {roomId : RoomId} {userNo : UserNo} {participant : RoomParticipant}
      {room next : ProtocolRoomState} :
      Found roomId room w → room.phase = .lobby → w.protocolRoomByUser.lookup userNo = none →
      participant.player.userNo = userNo.get → room.addParticipant userNo participant = some next →
      Stir calm w (w.withMember userNo roomId next)
  /-- A room is left. -/
  | left {calm : Bool} {w : World} {roomId : RoomId} {userNo : UserNo} {room : ProtocolRoomState} : Found roomId room w →
      w.protocolRoomByUser.lookup userNo = some roomId ∨ (room.removeUser userNo).isSome →
      Stir calm w (w.afterExit userNo roomId ((room.removeUser userNo).getD room))
  /-- A room that is not there is left. -/
  | dropped {calm : Bool} {w : World} {roomId : RoomId} {userNo : UserNo} :
      w.protocolRoomByUser.lookup userNo = some roomId →
      w.protocolRooms.lookup roomId = none → Stir calm w (w.withoutMembership userNo)
  /-- A race starts. -/
  | started {w : World} {roomId : RoomId} {room : ProtocolRoomState} {roster : FrozenRaceRoster} (pool : Option (Nat × Nat))
      (used : List Nat) (last : Option Nat) : Found roomId room w → Starts w roomId room roster →
      Stir false w (w.withStarted roomId (retracked room pool used last) roster)
  /-- A race is called off. -/
  | aborted {w : World} {roomId : RoomId} {room : ProtocolRoomState} : Found roomId room w → room.phase = .loading →
      Stir false w (w.withAborted roomId room)
  /-- A finish is recorded. -/
  | finished {calm : Bool} {w : World} {roomId : RoomId} {room : ProtocolRoomState} {playerId : Int} {raceTime : Nat}
      {settlement : Option SettlementState} {fanout : PendingRaceFanout} {now : Instant} : Found roomId room w →
      Finishes room playerId raceTime settlement fanout now →
      Stir calm w (w.withFinished roomId (finishedRoom room playerId raceTime settlement fanout) fanout now)
  /-- A race that nobody runs any more settles. -/
  | abandoned {calm : Bool} {w : World} {roomId : RoomId} {room : ProtocolRoomState} {roster : FrozenRaceRoster}
      (now : Instant)
      (endTick : Nat) : Found roomId room w → room.phase = .running → room.frozenRace = some roster →
      Stir calm w ((w.withRoom roomId (abandonedRoom room now endTick)).logged (.abandoned roster.fence (abandonedFanout endTick)))
  /-- What is pending is told. -/
  | flushed {calm : Bool} {w : World} {roomId : RoomId} {room : ProtocolRoomState} {roster : FrozenRaceRoster} :
      Found roomId room w →
      room.frozenRace = some roster → room.raceProgress.pendingFanouts ≠ [] →
      Stir calm w (w.withFlushed roomId room roster (w.activeFrozenRecipientSessions room roster))
  /-- The rewards are planned. -/
  | planned {calm : Bool} {w : World} {U : Unicode} {roomId : RoomId} {room : ProtocolRoomState}
      {ranking : SettlementRanking}
      {rewards : List RewardPersistenceEntry} {now : Instant} {rolls : Int → Nat × Nat} : Found roomId room w →
      room.finalization = some .awaitingDeadline → planRewardPersistence U room now rolls = .ok (ranking, rewards) →
      Stir calm w (w.withPlanned roomId room ranking rewards)
  /-- A reward goes in flight. -/
  | issued {calm : Bool} {w : World} {roomId : RoomId} {room : ProtocolRoomState} {ranking : SettlementRanking}
      {rewards : List RewardPersistenceEntry} {reward : RewardPersistenceEntry} {attemptId : RewardAttemptId} {dueAt : Instant}
      {failures : Nat} (lease : Instant) : Found roomId room w → room.persisting = some (ranking, rewards) →
      findReward reward.userNo rewards = some reward → reward.status = .queued dueAt failures →
      w.nextRewardAttemptId = some attemptId →
      Stir calm w ({ w with nextRewardAttemptId := attemptId.following }.withRoom roomId (room.setFinalization
        (.persisting ranking (setRewardStatus reward.userNo (.inFlight attemptId failures lease) rewards))))
  /-- A race is over. -/
  | finalized {calm : Bool} {w : World} {roomId : RoomId} {room : ProtocolRoomState} {roster : FrozenRaceRoster}
      {ranking : SettlementRanking}
      {rewards : List RewardPersistenceEntry} {packets : List Packet} : Found roomId room w → room.frozenRace = some roster →
      room.raceProgress.pendingFanouts = [] → room.finalization = some (.ready ranking rewards packets) →
      Stir calm w ((w.withFinalized roomId room ranking).loggedFinal room packets (w.activeFrozenRecipientSessions room roster))

/-- Changes of the rooms, one after the other. -/
abbrev Stirs (calm : Bool) : World → World → Prop := Relation.ReflTransGen (Stir calm)

variable {calm : Bool} {w w' : World} {roomId : RoomId} {room next : ProtocolRoomState}

theorem stirs_trans (w w' w'' : World) (h : Stirs calm w w') (h' : Stirs calm w' w'') : Stirs calm w w'' := h.trans h'

theorem stirs_refl (w : World) : Stirs calm w w := .refl

/-- A change that leaves the rooms, their ids, the history and the identities. -/
theorem Untouched.of_eq (hstate : w'.roomState = w.roomState)
    (hids : w'.freeProtocolRoomIds = w.freeProtocolRoomIds ∧ w'.rooms = w.rooms) (hhistory : w'.history = w.history)
    (hnamed : w.identities.Named → w'.identities.Named) : Untouched w w' where
  state := hstate
  free := hids.1.subset
  others := fun id hid => .inl (hids.2 ▸ hid)
  history := ⟨[], by rw [hhistory, List.map_nil, List.append_nil]⟩
  named := hnamed

theorem Stirs.still (h : Untouched w w') : Stirs calm w w' := .single (.still h)

/-- A room that is edited, or is as it was. -/
theorem Stirs.edit (hfound : Found roomId room w) (h : Edits calm room next) : Stirs calm w (w.withRoom roomId next) :=
  .single (.edited hfound h)

theorem Stirs.edit1 (hfound : Found roomId room w) (h : Edit calm room next) : Stirs calm w (w.withRoom roomId next) :=
  .edit hfound (.single h)

/-! ## Courses -/

theorem unused_of_free {id : Nat} (h : w.roomIdFree id = true) : w.protocolRooms.lookup ⟨id⟩ = none := by
  unfold roomIdFree at h
  simp only [Bool.and_eq_true, Option.isNone_iff_eq_none] at h
  exact h.2

theorem loads_retracked (hstarts : Starts w roomId room roster) (pool : Option (Nat × Nat)) (used : List Nat) (last : Option Nat) :
    Course.Loads (.started roster.field) room.course (startedRoom (retracked room pool used last) roster).course :=
  .started hstarts.lobby (freezes_freezeRaceRoster hstarts.members hstarts.frozen).1

/-- A change is calm, or it loads a race and leaves all rooms sound. -/
theorem Stir.turns (h : Stir calm w w') : Calm w w' ∨ calm = false ∧ (Sound w → Sound w') := by
  cases h with
  | still huntouched =>
    exact .inl (.of_rooms (congrArg Prod.fst huntouched.state) (congrArg (fun state => state.2.2.2.1) huntouched.state))
  | spent _ => exact .inl (.of_rooms rfl rfl)
  | freed ids nextRoomId _ => exact .inl (.of_rooms rfl rfl)
  | edited hfound hedits =>
    refine (turns_of_edits hedits).imp (Calm.withFound hfound) fun h => ⟨h.1, fun hsound => ?_⟩
    exact hsound.put (h.2 (hsound.at hfound)) rfl
  | @opened _ _ ids nextRoomId roomId settings userNo participant room hspare _ _ _ _ hadd =>
    refine .inl (Calm.trans _ (w.withIds ids nextRoomId) _ (.of_rooms rfl rfl) (calm_withMember userNo ?_))
    have hunused : w.course roomId = none := by
      unfold course
      rw [unused_of_free hspare.1]
      rfl
    exact hunused ▸ goes_opened hadd
  | entered hfound hlobby _ _ hadd =>
    refine .inl (calm_withMember _ ?_)
    rw [course_of_found hfound]
    exact goes_addParticipant hlobby hadd
  | left hfound _ => exact .inl (Calm.afterExit hfound _ (goes_getD_removeUser _ _))
  | dropped _ _ => exact .inl (.of_rooms rfl rfl)
  | started pool used last hfound hstarts =>
    exact .inr ⟨rfl, fun hsound => hsound.put ((hsound.at hfound).loads (loads_retracked hstarts pool used last)) rfl⟩
  | @aborted _ roomId room hfound hphase =>
    refine .inr ⟨rfl, fun hsound => ?_⟩
    have hlobby : room.backToLobby.course.Sound := by
      rw [course_backToLobby]
      exact (hsound.at hfound).inLobby
    refine hsound.put hlobby (?_ : _ = (World.withRoom _ roomId _).protocolRooms)
    unfold withAborted
    split <;> rfl
  | @finished _ _ roomId room playerId raceTime settlement fanout now hfound hfinishes =>
    have hbegins : ∃ tick, if room.phase = .running then settlement = SettlementState.begun now tick ∧ settlement.isSome
        else settlement = none := by
      have hbegins := hfinishes.begins
      by_cases hrun : room.phase = .running
      · simp only [if_pos hrun] at hbegins ⊢
        obtain ⟨tick, begun, hbegun, rfl⟩ := hbegins
        exact ⟨tick, hbegun.symm, rfl⟩
      · simp only [if_neg hrun] at hbegins ⊢
        exact ⟨0, hbegins⟩
    obtain ⟨tick, hsettlement⟩ := hbegins
    exact .inl (calm_withFinished hfound
      (goes_finishedRoom hfinishes.active hfinishes.opened hsettlement) fanout now)
  | abandoned now endTick hfound hphase _ =>
    exact .inl ((Calm.withFound hfound (goes_abandonedRoom hphase)).logged _)
  | @flushed _ _ roomId room roster hfound _ _ =>
    refine .inl (Calm.trans _ (w.withRoom roomId (flushedRoom room)) _ (Calm.withFound hfound (Goes.of_eq rfl)) (.of_rooms rfl rfl))
  | @planned _ _ U roomId room ranking rewards now rolls hfound hawaiting hplan =>
    have hroom := Calm.withFound hfound (goes_planned hawaiting hplan)
    refine .inl (Calm.trans _ _ _ hroom (.of_rooms ?_ ?_))
    · unfold withPlanned
      split <;> rfl
    · unfold withPlanned
      split <;> rfl
  | @issued _ _ roomId room ranking rewards reward attemptId dueAt failures lease hfound hpersisting _ _ _ =>
    have hspent : Calm w { w with nextRewardAttemptId := attemptId.following } := .of_rooms rfl rfl
    have hroom : Found roomId room { w with nextRewardAttemptId := attemptId.following } := hfound
    refine .inl (Calm.trans _ _ _ hspent (Calm.withFound hroom (Goes.of_eq
      (course_setFinalization_same (finalization_of_persisting hpersisting) ?_))))
    rfl
  | finalized hfound _ _ hready =>
    refine .inl (Calm.trans _ _ _ (calm_withFinalized hfound hready) (.of_rooms ?_ ?_))
    · unfold loggedFinal
      split <;> rfl
    · unfold loggedFinal
      split <;> rfl

/-- Every change leaves all rooms sound. -/
theorem Stir.sound (h : Stir calm w w') (hsound : Sound w) : Sound w' :=
  h.turns.elim (fun hcalm => hsound.calm hcalm) fun h => h.2 hsound

/-- Changes that load no race are calm. -/
theorem calm_of_stirs (h : Stirs true w w') : Calm w w' := by
  induction h with
  | refl => exact Calm.refl w
  | tail _ hstir ih => exact ih.trans _ _ _ (hstir.turns.resolve_right (by simp))

/-! ## Rules -/

section Rules

variable {ε α β : Type} {P : World → Prop}

/-- A call that changes nothing can be passed over. -/
theorem pass {c : Act World (Fault ε) α} {k : α → Act World (Fault ε) β} (hc : ReadOnly c)
    (hk : ∀ a, LeadsFrom P (Stirs calm) (k a)) : LeadsFrom P (Stirs calm) (c >>= k) := hc.skip stirs_refl hk

theorem stirs_pure (a : α) : Leads (Stirs calm) (pure a : Act World (Fault ε) α) := (readOnly_pure a).leads stirs_refl

theorem stirs_fail (e : Fault ε) :
    Leads (Stirs calm) (Act.fail e : Act World (Fault ε) α) := (readOnly_fail e).leads stirs_refl

/-- Calls one after the other. -/
theorem stirs_bind {c : Act World (Fault ε) α} {k : α → Act World (Fault ε) β} (hc : Leads (Stirs calm) c)
    (hk : ∀ a, Leads (Stirs calm) (k a)) : Leads (Stirs calm) (c >>= k) := hc.bind stirs_trans hk

/-- A change that keeps the rooms and the identities. -/
theorem stirs_modify {f : World → World} (h : ∀ w, (f w).roomState = w.roomState ∧
      ((f w).freeProtocolRoomIds = w.freeProtocolRoomIds ∧ (f w).rooms = w.rooms) ∧ (f w).history = w.history ∧
      (f w).identities = w.identities) : Leads (Stirs calm) (Act.modify f : Act World (Fault ε) PUnit) :=
  Act.leads_modify fun w => Stirs.still (.of_eq (h w).1 (h w).2.1 (h w).2.2.1 fun hnamed => (h w).2.2.2 ▸ hnamed)

theorem stirs_publishReserved (ds : List OutboundDelivery) :
    Leads (Stirs calm) (publishReserved ds : Act World (Fault ε) Unit) :=
  stirs_modify fun _ => ⟨rfl, ⟨rfl, rfl⟩, rfl, rfl⟩

/-- The room of a membership, once it is looked up. -/
theorem withMemberRoom {k : ProtocolRoomState → Act World (Fault ε) β}
    (hk : ∀ room, LeadsFrom (Found roomId room) (Stirs calm) (k room)) : LeadsFrom P (Stirs calm) (memberRoom roomId >>= k) := by
  refine (readOnly_memberRoom roomId).leadsFrom stirs_refl fun room => (hk room).mono ?_
  rintro w ⟨-, hw⟩
  exact orElse_eq_ok.1 (Act.reads_eq_ok.1 hw).1

/-- A value that must be there, once it is. -/
theorem behindSome {o : Option α} {e : Fault ε} {k : α → Act World (Fault ε) β}
    (hk : ∀ a, o = some a → LeadsFrom P (Stirs calm) (k a)) : LeadsFrom P (Stirs calm) (orFail o e >>= k) := by
  refine (readOnly_orFail o e).leadsFrom stirs_refl fun a w hw => ?_
  exact hk a (orElse_eq_ok.1 (Act.ofExcept_eq_ok.1 hw.2).1) w hw.1

/-- A result that must be there, once it is. -/
theorem behindOk {r : Except (Fault ε) α} {k : α → Act World (Fault ε) β} (hk : ∀ a, r = .ok a → LeadsFrom P (Stirs calm) (k a)) :
    LeadsFrom P (Stirs calm) (Act.ofExcept r >>= k) := by
  refine (readOnly_ofExcept r).leadsFrom stirs_refl fun a w hw => ?_
  exact hk a (Act.ofExcept_eq_ok.1 hw.2).1 w hw.1

/-- Behind a guard its condition holds. -/
theorem behindGuard {p : Prop} [Decidable p] {e : Fault ε} {k : PUnit → Act World (Fault ε) β}
    (hk : p → LeadsFrom P (Stirs calm) (k ⟨⟩)) : LeadsFrom P (Stirs calm) (Act.require p e >>= k) := by
  refine (readOnly_require p e).leadsFrom stirs_refl fun _ w hw => ?_
  exact hk (Act.require_eq_ok.1 hw.2).1 w hw.1

/-- The world as it is. -/
theorem behindGet {k : World → Act World (Fault ε) β} (hk : ∀ w, P w → LeadsFrom (fun s => s = w) (Stirs calm) (k w)) :
    LeadsFrom P (Stirs calm) (Act.get >>= k) := fun w hw => hk w hw w rfl

/-- Behind the check of a lobby the room is in it. -/
theorem behindLobby {k : Unit → LobbyAct β} (hk : room.phase = .lobby → LeadsFrom P (Stirs calm) (k ())) :
    LeadsFrom P (Stirs calm) (requireLobby room >>= k) := by
  refine (readOnly_requireLobby room).leadsFrom stirs_refl fun _ w hw => ?_
  exact hk (Act.require_eq_ok.1 hw.2).1 w hw.1

/-- Behind the check of a master the room is in its lobby. -/
theorem behindLobbyMaster {userNo : UserNo} {k : Int → LobbyAct β}
    (hk : ∀ playerId, room.phase = .lobby → LeadsFrom P (Stirs calm) (k playerId)) :
    LeadsFrom P (Stirs calm) (requireLobbyMaster room userNo >>= k) := by
  refine (readOnly_requireLobbyMaster room userNo).leadsFrom stirs_refl fun playerId w hw => ?_
  obtain ⟨_, _, hlobby, -⟩ := Act.bind_eq_ok.1 hw.2
  exact hk playerId (Act.require_eq_ok.1 hlobby).1 w hw.1

/-- The end of a command: its room is put in its place, the batches are published, and a result is returned. -/
theorem commit {ds : List OutboundDelivery} {a : β} (h : Edits calm room next) :
    LeadsFrom (Found roomId room) (Stirs calm)
      (putRoom roomId next >>= fun _ => (publishReserved ds >>= fun _ => pure a) : Act World (Fault ε) β) := by
  refine bind stirs_trans (Act.leadsFrom_modify fun w hw => Stirs.edit hw h) fun _ => ?_
  exact stirs_bind (stirs_publishReserved ds) fun _ => stirs_pure _

/-- The same when the room is put in its place only when it changed. -/
theorem commitIf {ds : List OutboundDelivery} {a : β} {changed : Bool} (h : changed = true → Edits calm room next) :
    LeadsFrom (Found roomId room) (Stirs calm)
      (putRoomIf changed roomId next >>= fun _ => (publishReserved ds >>= fun _ => pure a) : Act World (Fault ε) β) := by
  refine bind stirs_trans (Act.leadsFrom_modify fun w hw => ?_) fun _ => ?_
  · split
    · rename_i hchanged
      exact Stirs.edit hw (h hchanged)
    · exact stirs_refl w
  · exact stirs_bind (stirs_publishReserved ds) fun _ => stirs_pure _

end Rules

/-! ## Lobby commands -/

theorem stirs_setSlotState (identity : IdentityBinding) (state : PlayerSlotState) :
    Leads (Stirs calm) (setSlotState identity state) := by
  refine leads (pass (readOnly_protocolRoomId identity) fun roomId => withMemberRoom fun room => ?_)
  refine pass (readOnly_requireLobby room) fun _ => pass (readOnly_require _ _) fun _ => ?_
  refine pass (readOnly_require _ _) fun _ => pass (readOnly_require _ _) fun _ => ?_
  refine pass (readOnly_orFail _ _) fun memberId => pass (readOnly_lobbyPacket _) fun _ => ?_
  refine pass (readOnly_lobbyPacket _) fun _ => pass (readOnly_slotDataPacket _) fun _ => ?_
  refine pass (readOnly_sameBatchForRoom _ _) fun _ => pass (readOnly_reserveOutbound _) fun _ => ?_
  exact commit (.single (.dressed (dressed_setPlayerType room memberId _)))

theorem stirs_changeTeam (identity : IdentityBinding) (team : RoomTeam) : Leads (Stirs calm) (changeTeam identity team) := by
  refine leads (pass (readOnly_protocolRoomId identity) fun roomId => withMemberRoom fun room => ?_)
  refine behindLobby fun hlobby => behindGuard fun hmode => behindSome fun memberId hmember => ?_
  refine behindSome fun current hcurrent => behindSome fun moved hmoved => ?_
  refine pass (readOnly_lobbyPacket _) fun _ => pass (readOnly_slotDataPacket _) fun _ => ?_
  refine pass (readOnly_requesterThenRoomSnapshot _ _ _ _) fun _ => pass (readOnly_reserveOutbound _) fun _ => ?_
  obtain ⟨member, hmember, -⟩ := memberId_eq_some hmember
  exact commit (.single (.moved hlobby hmode hmember hcurrent hmoved))

/-- The two players of a change of the master are not ready any more, and then the second is the master. -/
theorem edits_changeMaster (room : ProtocolRoomState) (requesterId targetId : MemberId) (playerType : Int)
    (hlobby : room.phase = .lobby) (htarget : (room.membersById targetId).isSome) :
    Edits calm room { (room.setPlayerType requesterId playerType).setPlayerType targetId playerType with
      roomMaster := targetId.val } := by
  have hrequester : Edit calm room (room.setPlayerType requesterId playerType) :=
    .dressed (dressed_setPlayerType room requesterId _)
  have hsecond : Edit calm (room.setPlayerType requesterId playerType)
      ((room.setPlayerType requesterId playerType).setPlayerType targetId playerType) :=
    .dressed (dressed_setPlayerType _ targetId _)
  refine ((Relation.ReflTransGen.single hrequester).tail hsecond).tail (.crowned hlobby ?_)
  unfold setPlayerType
  rw [Option.isSome_map, Option.isSome_map]
  exact htarget

theorem stirs_changeMaster (U : Unicode) (identity : IdentityBinding) (nickname : String) :
    Leads (Stirs calm) (changeMaster U identity nickname) := by
  refine leads (pass (readOnly_protocolRoomId identity) fun roomId => withMemberRoom fun room => ?_)
  refine behindLobby fun hlobby => pass (readOnly_orFail _ _) fun requesterId => ?_
  refine pass (readOnly_require _ _) fun _ => behindSome fun targetId htarget => ?_
  refine pass (readOnly_slotDataPacket _) fun _ => pass (readOnly_sameBatchForRoom _ _) fun _ => ?_
  refine pass (readOnly_reserveOutbound _) fun _ => commit (edits_changeMaster room requesterId targetId _ hlobby ?_)
  have hany := firstIndex_eq_some htarget
  rcases hmember : room.membersById targetId with _ | member
  · rw [hmember] at hany
    cases hany
  · rfl

theorem stirs_changeTrack (identity : IdentityBinding) (request : ChangeTrackRequest) :
    Leads (Stirs calm) (changeTrack identity request) := by
  refine leads (pass (readOnly_protocolRoomId identity) fun roomId => withMemberRoom fun room => ?_)
  refine behindLobbyMaster fun _ hlobby => pass (readOnly_slotDataPacket _) fun _ => ?_
  refine pass (readOnly_sameBatchForRoom _ _) fun _ => pass (readOnly_reserveOutbound _) fun _ => ?_
  exact commit (.single (.retold hlobby rfl rfl))

theorem edit_basicAiChange {request : BasicAiRequest} {first second : RoomAi} {packet : Packet} (hlobby : room.phase = .lobby)
    (h : basicAiChange room request first second w = (.ok (some (packet, next)), w')) : Edit calm room next := by
  obtain ⟨removed, w₁, hremoved, hrest⟩ := Act.bind_eq_ok.1 h
  have hremove := (Act.ofExcept_eq_ok.1 hremoved).1
  rcases removed with _ | ⟨playerId, last⟩
  · rcases hadded : room.addBasicAis first second with _ | ⟨added, last⟩
    · simp only [hadded] at hrest
      exact absurd (Act.pure_eq_ok.1 hrest).1 (by simp)
    · simp only [hadded] at hrest
      obtain ⟨_, w₂, -, hpure⟩ := Act.bind_eq_ok.1 hrest
      obtain ⟨-, rfl⟩ := Prod.mk.inj (Option.some.inj (Act.pure_eq_ok.1 hpure).1)
      exact .aisAdded hlobby hadded
  · obtain ⟨_, w₂, -, hpure⟩ := Act.bind_eq_ok.1 hrest
    obtain ⟨-, rfl⟩ := Prod.mk.inj (Option.some.inj (Act.pure_eq_ok.1 hpure).1)
    exact .aiRemoved hlobby hremove

theorem stirs_changeBasicAi (identity : IdentityBinding) (request : BasicAiRequest) (first second : RoomAi) :
    Leads (Stirs calm) (changeBasicAi identity request first second) := by
  refine leads (pass (readOnly_protocolRoomId identity) fun roomId => withMemberRoom fun room => ?_)
  refine behindLobbyMaster fun _ hlobby => ?_
  refine (readOnly_basicAiChange room request first second).leadsFrom stirs_refl fun change w hw => ?_
  have hedits : change.isSome = true → Edits calm room ((change.map (·.2)).getD room) := by
    intro hsome
    obtain ⟨⟨packet, next⟩, rfl⟩ := Option.isSome_iff_exists.1 hsome
    exact .single (edit_basicAiChange hlobby hw.2)
  refine (pass (readOnly_sameBatchForRoom _ _) fun _ => pass (readOnly_reserveOutbound _) fun _ => ?_ :
    LeadsFrom (Found roomId room) (Stirs calm) _) w hw.1
  exact commitIf hedits

theorem stirs_changeClosedSlots (identity : IdentityBinding) (request : CloseSlotRequest) :
    Leads (Stirs calm) (changeClosedSlots identity request) := by
  refine leads (pass (readOnly_protocolRoomId identity) fun roomId => withMemberRoom fun room => ?_)
  refine behindLobbyMaster fun _ hlobby => pass (readOnly_lobbyPacket _) fun _ => ?_
  refine pass (readOnly_sameBatchForRoom _ _) fun _ => pass (readOnly_reserveOutbound _) fun _ => ?_
  refine commitIf fun hsome => ?_
  obtain ⟨next, hnext⟩ := Option.isSome_iff_exists.1 hsome
  rw [hnext]
  exact .single (.slotsSet hlobby hnext)

theorem stirs_changeRoomInfo (identity : IdentityBinding) (request : ChangeRoomInfoRequest) :
    Leads (Stirs calm) (changeRoomInfo identity request) := by
  refine leads (pass (readOnly_protocolRoomId identity) fun roomId => withMemberRoom fun room => ?_)
  refine behindLobbyMaster fun _ hlobby => pass (readOnly_lobbyPacket _) fun _ => ?_
  refine pass (readOnly_sameBatchForRoom _ _) fun _ => pass (readOnly_reserveOutbound _) fun _ => ?_
  exact commit (.single (.retold hlobby rfl rfl))

theorem stirs_relayRiderTalk (identity : IdentityBinding) (message : String) :
    Leads (Stirs calm) (relayRiderTalk identity message) := by
  refine leads (pass (readOnly_protocolRoomId identity) fun roomId => withMemberRoom fun room => ?_)
  refine pass (readOnly_orFail _ _) fun _ => pass (readOnly_lobbyPacket _) fun _ => ?_
  refine pass (readOnly_roomSessions _) fun _ => pass (readOnly_reserveOutbound _) fun _ => Leads.from ?_
  exact stirs_bind (stirs_publishReserved _) fun _ => stirs_pure _

theorem stirs_relayMacroChat (identity : IdentityBinding) (request : MacroChatRequest) (message : String) :
    Leads (Stirs calm) (relayMacroChat identity request message) := by
  refine leads (pass (readOnly_protocolRoomId identity) fun roomId => withMemberRoom fun room => ?_)
  refine pass (readOnly_orFail _ _) fun _ => pass (readOnly_lobbyPacket _) fun _ => ?_
  refine pass (readOnly_roomSessions _) fun _ => pass (readOnly_reserveOutbound _) fun _ => Leads.from ?_
  exact stirs_bind (stirs_publishReserved _) fun _ => stirs_pure _

/-! ## Kicks -/

theorem phase_closeRankings (room : ProtocolRoomState) : room.closeRankings.phase = room.phase := rfl

theorem phase_assignNextRoomMaster (room : ProtocolRoomState) : room.assignNextRoomMaster.phase = room.phase := by
  unfold assignNextRoomMaster
  split
  · rfl
  · split
    · rfl
    · rfl

/-- Who leaves does not change the phase of a room. -/
theorem phase_removeUser {userNo : UserNo} (h : room.removeUser userNo = some next) : next.phase = room.phase := by
  unfold removeUser at h
  split at h
  · obtain rfl := Option.some.inj h
    split
    · exact phase_assignNextRoomMaster _
    · rfl
  · split at h
    · cases h
    · obtain rfl := Option.some.inj h
      rw [phase_closeRankings]
      split
      · exact phase_assignNextRoomMaster _
      · rfl

theorem phase_getD_removeUser (room : ProtocolRoomState) (userNo : UserNo) :
    ((room.removeUser userNo).getD room).phase = room.phase := by
  rcases hremoved : room.removeUser userNo with _ | next
  · rfl
  · exact phase_removeUser hremoved

/-- In a lobby a kick is an exit. -/
theorem withoutKicked_eq (w : World) (roomId : RoomId) (userNo : UserNo) (hlobby : next.phase = .lobby) :
    w.withoutKicked roomId userNo next = w.afterExit userNo roomId next := by
  have hremoves : removesRoom next = next.isEmpty := by
    unfold removesRoom
    rw [hlobby]
    simp
  unfold withoutKicked afterExit
  dsimp only
  rw [hremoves, hlobby]
  split
  · rcases next.raceFence with _ | fence
    · rfl
    · rfl
  · rfl

/-- Who may be kicked is in the room. -/
theorem removeUser_kickTarget {playerId : Int} {target : ProtocolRoomMember} (h : kickTarget room playerId = some target) :
    (room.removeUser target.userNo).isSome := by
  unfold kickTarget at h
  split at h
  · rename_i hfits
    unfold removeUser
    split
    · rfl
    · have hmember : (room.memberId target.userNo).isSome := by
        obtain ⟨id, hid⟩ := firstIndex_isSome
          (p := fun id => (room.membersById id).any (fun member => member.userNo = target.userNo))
          (i := ⟨playerId.toNat, memberId_lt hfits⟩) (by rw [h]; simp)
        unfold memberId
        rw [hid]
        rfl
      split
      · rename_i hnone
        rw [hnone] at hmember
        cases hmember
      · rfl
  · cases h

theorem stirs_kickPlayer (identity : IdentityBinding) (targetPlayerId : Int) :
    Leads (Stirs calm) (kickPlayer identity targetPlayerId) := by
  refine leads (pass (readOnly_protocolRoomId identity) fun roomId => withMemberRoom fun room => ?_)
  refine behindLobbyMaster fun _ hlobby => behindSome fun target htarget => ?_
  refine pass (readOnly_reads _) fun _ => pass (readOnly_lobbyPacket _) fun _ => ?_
  refine pass (readOnly_slotDataPacket _) fun _ => pass (readOnly_roomSessions _) fun _ => ?_
  refine pass (readOnly_reserveOutbound _) fun _ => pass (readOnly_require _ _) fun _ => ?_
  refine bind stirs_trans (Act.leadsFrom_modify fun w hw => ?_) fun _ => ?_
  · rw [withoutKicked_eq w roomId target.userNo ((phase_getD_removeUser room target.userNo).trans hlobby)]
    exact .single (.left hw (.inr (removeUser_kickTarget htarget)))
  · exact stirs_bind (stirs_publishReserved _) fun _ => stirs_pure _

/-! ## Starts -/

/-- The selected track is none of the random selectors. -/
theorem selectConcreteTrack_concrete {candidates : List Nat} {draw track : Nat}
    (h : room.selectConcreteTrack candidates draw = .ok (track, next)) : isRandomTrackSelector track = false := by
  by_cases hrandom : isRandomTrackSelector room.settings.track = true
  · by_cases hne : concreteCandidates candidates = []
    · unfold selectConcreteTrack at h
      rw [hrandom, if_neg (by simp)] at h
      dsimp only at h
      rw [if_pos hne] at h
      cases h
    · rw [selectConcreteTrack_random hrandom hne] at h
      have hdrawn := drawn_spec
        (room.enterTrackPool (trackPool room.settings.gameType room.settings.track)) draw
        (nodup_concreteCandidates candidates) hne
      have hmem := ((tracksAvailable_spec _ (nodup_concreteCandidates candidates) hne).2 _ hdrawn).1
      rw [Except.ok.inj h] at hmem
      exact (mem_concreteCandidates.1 hmem).2
  · unfold selectConcreteTrack at h
    rw [Bool.not_eq_true] at hrandom
    rw [hrandom, if_pos (by rfl)] at h
    obtain ⟨rfl, -⟩ := Prod.mk.inj (Except.ok.inj h)
    exact hrandom

theorem members_of_validateStartRacers {requesterPlayerId : Int} {count : Nat}
    (h : validateStartRacers w room requesterPlayerId = .ok count) : room.members ≠ [] := by
  obtain ⟨_, hcount, -⟩ := bind_eq_ok.1 h
  intro hnil
  rw [hnil] at hcount
  exact absurd (ensure_eq_ok.1 hcount) (by simp)

/-- The racers of a start own no lanes. -/
theorem lanes_of_validateStartRacers {requesterPlayerId : Int} {count : Nat}
    (h : validateStartRacers w room requesterPlayerId = .ok count) :
    ∀ entry ∈ room.members, w.rewardLanes.lookup entry.2.userNo = none := by
  obtain ⟨_, -, h⟩ := bind_eq_ok.1 h
  obtain ⟨_, hall, -⟩ := bind_eq_ok.1 h
  intro entry hentry
  obtain ⟨_, -, hlane⟩ := bind_eq_ok.1 (all_eq_ok.1 hall entry hentry)
  rcases hlookup : w.rewardLanes.lookup entry.2.userNo with _ | fence
  · rfl
  · rw [hlookup] at hlane
    cases hlane

/-- A frozen roster has the fence and the track it is frozen with. -/
theorem freezeRaceRoster_head {activeIdentity : UserNo → Option IdentityBinding} {fence : RaceFence} {concreteTrack : Nat}
    {roster : FrozenRaceRoster} (h : room.freezeRaceRoster activeIdentity fence concreteTrack = .ok roster) :
    roster.fence = fence ∧ roster.concreteTrack = concreteTrack := by
  obtain ⟨_, -, h⟩ := bind_eq_ok.1 h
  obtain ⟨_, -, h⟩ := bind_eq_ok.1 h
  obtain rfl := Except.ok.inj h
  exact ⟨rfl, rfl⟩

theorem stirs_startRoom (identity : IdentityBinding) (plan : StartRoomPlan) (draw : Nat) :
    Leads (Stirs false) (startRoom identity plan draw) := by
  refine leads (behindGet fun w _ => pass (readOnly_require _ _) fun _ => ?_)
  refine pass (readOnly_protocolRoomId identity) fun roomId => ?_
  refine (readOnly_memberRoom roomId).leadsFrom stirs_refl fun room => ?_
  refine mono (Q := fun s => s = w ∧ Found roomId room s) ?_
    (fun s hs => ⟨hs.1, orElse_eq_ok.1 (Act.reads_eq_ok.1 hs.2).1⟩)
  refine (readOnly_requireLobbyMaster room _).leadsFrom stirs_refl fun requester s hs => ?_
  obtain ⟨_, _, hlobby, -⟩ := Act.bind_eq_ok.1 hs.2
  have hphase : room.phase = .lobby := (Act.require_eq_ok.1 hlobby).1
  refine (pass (readOnly_require _ _) fun _ => behindOk fun count hcount => ?_ :
    LeadsFrom (fun s => s = w ∧ Found roomId room s) (Stirs false) _) s hs.1
  refine behindSome fun epoch hepoch => behindOk fun selected hselected => behindOk fun roster hroster => ?_
  refine pass (readOnly_ofExcept _) fun ds => pass (readOnly_reserveOutbound _) fun _ => ?_
  have hracers := mapError_eq_ok.1 hcount
  have hfreeze := mapError_eq_ok.1 hroster
  obtain ⟨hfence, htrack⟩ := freezeRaceRoster_head hfreeze
  obtain ⟨pool, used, last, hnext⟩ := selectConcreteTrack_eq (mapError_eq_ok.1 hselected)
  refine bind stirs_trans (Act.leadsFrom_modify fun s hs => ?_) fun _ => ?_
  · obtain ⟨rfl, hfound⟩ := hs
    rw [hnext]
    refine .single (.started pool used last hfound ⟨hphase, members_of_validateStartRacers hracers,
      lanes_of_validateStartRacers hracers, ?_, ?_, ?_, ?_⟩)
    · rw [hfence, htrack]
      exact hfreeze
    · rw [hfence]
    · rw [hfence]
      exact hepoch
    · rw [htrack]
      exact selectConcreteTrack_concrete (mapError_eq_ok.1 hselected)
  · exact stirs_bind (stirs_publishReserved ds) fun _ => stirs_pure _

theorem stirs_startCommand (session : SessionId) (identity : IdentityBinding) (plan : StartRoomPlan) (draw : Nat) :
    Leads (Stirs false) (startCommand session identity plan draw) := by
  have hreject : Leads (Stirs false) (publishStartRejection session) :=
    stirs_bind ((readOnly_reserveOutbound _).leads stirs_refl) fun _ => stirs_publishReserved _
  refine Leads.recover stirs_trans (stirs_startRoom identity plan draw) fun e => ?_
  split
  · exact stirs_fail _
  · exact stirs_bind hreject fun _ => stirs_fail _
  · exact stirs_fail _

theorem stirs_lobbyDispatch (U : Unicode) (session : SessionId) (identity : IdentityBinding) (payload : LobbyCommandPayload) :
    Leads (Stirs false) (lobbyDispatch U session identity payload) := by
  cases payload with
  | setSlotState state => exact stirs_setSlotState identity state
  | changeTeam team => exact stirs_changeTeam identity team
  | changeMaster nickname => exact stirs_changeMaster U identity nickname
  | startRoom plan draw => exact leads (behindGet fun w _ => (stirs_startCommand session identity _ draw).from)
  | changeTrack request => exact stirs_changeTrack identity request
  | basicAi request first second => exact stirs_changeBasicAi identity request first second
  | closeSlot request => exact stirs_changeClosedSlots identity request
  | riderTalk message => exact stirs_relayRiderTalk identity message
  | macroChat request message => exact stirs_relayMacroChat identity request message
  | changeRoomInfo request => exact stirs_changeRoomInfo identity request
  | kick targetPlayerId => exact stirs_kickPlayer identity targetPlayerId

theorem stirs_lobbyCommand (U : Unicode) (session : SessionId) (payload : LobbyCommandPayload) :
    Leads (Stirs false) (lobbyCommand U session payload) := by
  refine leads (pass (readOnly_authorizedIdentity U session) fun identity => Leads.from ?_)
  exact Leads.mapError (stirs_lobbyDispatch U session identity payload)

end World

end P5136
