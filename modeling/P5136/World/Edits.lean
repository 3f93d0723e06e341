import P5136.Room.Arranging

/-!
# What a command may do to a room

A command puts a room in its place that it made from the one that was there. Here is every way in which it does, with what it has
checked before: looks, lobby commands, the loading of a race, its gauges, objects and pickups, and the rewards of its settlement.
Who comes and goes, and when a race starts, is finished by a racer and ends, concerns the world around the room and is not here.
-/

namespace P5136

open ProtocolRoomState FrozenRaceRoster

/-- What a race knows of a participant besides its equipment. -/
def FrozenRaceParticipant.terms (participant : FrozenRaceParticipant) : Entrant × String × Option FrozenResultEconomy :=
  (participant.entrant, participant.nickname, participant.result.map (·.economy))

/-- A roster besides the equipment. -/
def FrozenRaceRoster.terms (roster : FrozenRaceRoster) :
    RaceFence × Nat × List (Entrant × String × Option FrozenResultEconomy) × List FrozenAiRaceParticipant :=
  (roster.fence, roster.concreteTrack, roster.participants.map FrozenRaceParticipant.terms, roster.ais)

/-- The members of a room, and the equipment of its racers, look different. -/
structure Dressed (room next : ProtocolRoomState) : Prop where
  rest : next = { room with membersById := next.membersById, observers := next.observers, frozenRace := next.frozenRace }
  arrangement : next.arrangement = room.arrangement
  course : next.course = room.course
  roster : next.frozenRace.map terms = room.frozenRace.map terms

/-- One edit of a room. It is calm when it does not load a race. -/
inductive Edit : Bool → ProtocolRoomState → ProtocolRoomState → Prop where
  /-- Members look different. -/
  | dressed {calm} {room next} : Dressed room next → Edit calm room next
  /-- The lobby gets another track, name or password. -/
  | retold {calm} {room} {settings : RoomSettings} : room.phase = .lobby → settings.gameType = room.settings.gameType →
      settings.channel = room.settings.channel → Edit calm room { room with settings := settings }
  /-- A racer changes its team. -/
  | moved {calm} {room next} {id : MemberId} {member : ProtocolRoomMember} {current target : SlotIndex} {team : RoomTeam} :
      room.phase = .lobby → room.settings.teamMode = true → room.membersById id = some member →
      room.slotOf id = some current → room.moveToTeam id current team = some (next, target) → Edit calm room next
  /-- A racer becomes the master. -/
  | crowned {calm} {room} {id : MemberId} : room.phase = .lobby → (room.membersById id).isSome →
      Edit calm room { room with roomMaster := id.val }
  /-- AIs are added. -/
  | aisAdded {calm} {room next} {first second : RoomAi} {added : List (Int × RoomAi)} : room.phase = .lobby →
      room.addBasicAis first second = some (added, next) → Edit calm room next
  /-- An AI is removed. -/
  | aiRemoved {calm} {room next} {playerId : Nat} {removed : Int} : room.phase = .lobby →
      (room.removeAi playerId : Except (Fault LobbyError) _) = .ok (some (removed, next)) → Edit calm room next
  /-- Slots are closed or opened. -/
  | slotsSet {calm} {room next} {request : CloseSlotRequest} : room.phase = .lobby → room.setCloseSlots request = some next →
      Edit calm room next
  /-- The handshake of a race is armed. -/
  | armed {room} {frozen : FrozenRaceRoster} {deadline : Instant} : room.phase = .loading → room.frozenRace = some frozen →
      room.loadingHandshake = .dormant →
      Edit false room { room with loadingHandshake := .awaiting (World.rosterStamps frozen) ∅ deadline }
  /-- A participant is ready. -/
  | marked {room} {stamp : FrozenParticipantStamp} {expected ready : Finset FrozenParticipantStamp} {deadline : Instant} :
      room.phase = .loading → room.loadingHandshake = .awaiting expected ready deadline → stamp ∈ expected →
      Edit false room { room with loadingHandshake := .awaiting expected (insert stamp ready) deadline }
  /-- The handshake is looked at. -/
  | checked {room} (active : Finset FrozenParticipantStamp) (now : Instant) : room.phase = .loading →
      Edit false room { room with loadingHandshake := room.loadingHandshake.reconciled active now }
  /-- The race begins. -/
  | began {room} {now : Instant} : room.phase = .loading → room.loadingHandshake.startDue now = true →
      Edit false room { room with phase := .running, loadingHandshake := .dormant }
  /-- The gauge of a team is set. -/
  | gauged {calm} {room} (team : RoomTeam) (gauge : UInt32) : room.phase = .running →
      Edit calm room (World.gaugedRoom room team gauge)
  /-- The objects of a race change. -/
  | objects {calm} {room} (raceObjects : RaceObjectRegistry) :
      Edit calm room { room with raceProgress := { room.raceProgress with raceObjects := raceObjects } }
  /-- An item is picked up. -/
  | picked {calm} {room} (itemPickups : FiniteMap Int ItemPickupReplayState) :
      Edit calm room { room with raceProgress := { room.raceProgress with itemPickups := itemPickups } }
  /-- A settlement fails. -/
  | failed {calm} {room} (reason : RewardTerminalReason) (userNo : Option UserNo) (nickname : Option String) :
      Edit calm room (room.retainAsDeadLetter reason userNo nickname)
  /-- A reward is queued again after a failure. -/
  | requeued {calm} {room} {ranking : SettlementRanking} {rewards : List RewardPersistenceEntry}
      {reward : RewardPersistenceEntry}
      {userNo : UserNo} {attemptId : RewardAttemptId} {failures : Nat} {lease dueAt : Instant} :
      room.persisting = some (ranking, rewards) → findReward userNo rewards = some reward →
      reward.status = .inFlight attemptId failures lease →
      Edit calm room (room.setFinalization (.persisting ranking (setRewardStatus userNo (.queued dueAt (failures + 1)) rewards)))
  /-- A reward is durable, and the economy of its racer with it. -/
  | paid {calm} {room} {ranking : SettlementRanking} {rewards : List RewardPersistenceEntry}
      {reward : RewardPersistenceEntry}
      {task : RewardSettlementTask} {failures : Nat} {lease : Instant} {participant : FrozenRaceParticipant}
      {applied : AppliedTimeReward} : room.persisting = some (ranking, rewards) →
      findReward task.userNo rewards = some reward → reward.status = .inFlight task.attemptId failures lease →
      room.taskParticipant task = some participant → participant.result.isSome →
      Edit calm room ((room.setFinalization
        (.persisting ranking (setRewardStatus task.userNo (.durable applied) rewards))).applyEconomy task applied)
  /-- A reward is durable whose racer has no result: the settlement fails. -/
  | orphaned {calm} {room} {ranking : SettlementRanking} {rewards : List RewardPersistenceEntry}
      {task : RewardSettlementTask}
      {participant : FrozenRaceParticipant} {applied : AppliedTimeReward} : room.persisting = some (ranking, rewards) →
      room.taskParticipant task = some participant → participant.result = none →
      Edit calm room ((room.setFinalization
        (.persisting ranking (setRewardStatus task.userNo (.durable applied) rewards))).retainAsDeadLetter
          .rewardParticipantMissing (some task.userNo) (some task.nickname))
  /-- All rewards are durable, and the results are ready. -/
  | readied {calm} {room} {ranking : SettlementRanking} {rewards : List RewardPersistenceEntry} {packets : List Packet} :
      room.persisting = some (ranking, rewards) → rewards.all (fun reward => reward.status.isDurable) = true →
      settlementPackets room ranking = .ok packets → Edit calm room (room.setFinalization (.ready ranking rewards packets))
  /-- A settlement that failed is tried again. -/
  | retried {calm} {room} {failed : SettlementDeadLetterState} {ranking : SettlementRanking} {now : Instant} :
      room.finalization = some (.failed failed) → failed.reason.permitsPersistenceRetry = true → failed.ranking = some ranking →
      failed.packets = none → Edit calm room (room.setFinalization (.persisting ranking (requeued now failed.rewards)))

/-- Edits of a room, one after the other. -/
abbrev Edits (calm : Bool) : ProtocolRoomState → ProtocolRoomState → Prop := Relation.ReflTransGen (Edit calm)

variable {room next : ProtocolRoomState}

/-! ## Looks -/

/-- A look that leaves the roster. -/
theorem Dressed.of_members (hrest : next = { room with membersById := next.membersById, observers := next.observers })
    (harrangement : next.arrangement = room.arrangement) (hcourse : next.course = room.course) : Dressed room next where
  rest := by
    rw [hrest]
  arrangement := harrangement
  course := hcourse
  roster := by
    rw [hrest]

theorem dressed_setPlayerType (room : ProtocolRoomState) (id : MemberId) (playerType : Int) :
    Dressed room (room.setPlayerType id playerType) :=
  .of_members rfl (arrangement_setPlayerType room id playerType)
    (course_setPlayerType room id playerType)

/-- A look of a member. -/
theorem dressed_mapMember {userNo : UserNo} {f : ProtocolRoomMember → ProtocolRoomMember}
    (h : room.mapMember userNo f = some next) (hseat : ∀ member, (f member).seat = member.seat)
    (hwatcher : ∀ member, (f member).watcher = member.watcher) : Dressed room next := by
  have hcourse : next.course = room.course := course_mapMember h fun member => by
    have hsame := hseat member
    unfold ProtocolRoomMember.seat at hsame
    rw [Seat.mk.injEq] at hsame
    exact ⟨hsame.1, hsame.2.1⟩
  have harrangement := arrangement_mapMember h hseat hwatcher
  refine .of_members ?_ harrangement hcourse
  unfold mapMember at h
  split at h
  · obtain rfl := Option.some.inj h
    rfl
  · obtain ⟨id, -, rfl⟩ := Option.map_eq_some_iff.1 h
    rfl

theorem dressed_setMainEmblems {userNo : UserNo} {emblem1 emblem2 emblem3 : Nat}
    (h : room.setMainEmblems userNo emblem1 emblem2 emblem3 = some next) : Dressed room next :=
  dressed_mapMember h (fun _ => rfl) fun _ => rfl

theorem dressed_setP2pEndpoint {userNo : UserNo} {address : BitVec 32} {port : UInt16}
    (h : room.setP2pEndpoint userNo address port = some next) : Dressed room next :=
  dressed_mapMember h (fun _ => rfl) fun _ => rfl

theorem dressed_setFloaterCodes {userNo : UserNo} {floaterCodes : Vector Int 3}
    (h : room.setFloaterCodes userNo floaterCodes = some next) : Dressed room next :=
  dressed_mapMember h (fun _ => rfl) fun _ => rfl

theorem dressed_setLiveRp (room : ProtocolRoomState) (userNo : UserNo) (currentRp : Nat) :
    Dressed room (room.setLiveRp userNo currentRp) := by
  refine .of_members ?_ ?_ (course_setLiveRp room userNo currentRp)
  · unfold setLiveRp
    split
    · rfl
    · rfl
  · unfold setLiveRp
    split
    · rfl
    · exact arrangement_updateMember room _ fun _ => rfl

theorem terms_mapParticipant (userNo : UserNo) {f : FrozenRaceParticipant → FrozenRaceParticipant}
    (hf : ∀ participant, (f participant).terms = participant.terms) (l : List FrozenRaceParticipant) :
    (mapParticipant userNo f l).map FrozenRaceParticipant.terms = l.map FrozenRaceParticipant.terms := by
  induction l with
  | nil => rfl
  | cons participant rest ih =>
    unfold mapParticipant
    split
    · rw [List.map_cons, List.map_cons, hf]
    · rw [List.map_cons, List.map_cons, ih]

theorem terms_reequip (roster : FrozenRaceRoster) (userNo : UserNo) (snapshot : Vector UInt8 65) :
    (roster.reequip userNo snapshot).terms = roster.terms := by
  unfold reequip terms
  simp only [Prod.mk.injEq, true_and, and_true]
  refine terms_mapParticipant userNo (fun participant => ?_) roster.participants
  unfold FrozenRaceParticipant.terms FrozenRaceParticipant.entrant
  simp only [Prod.mk.injEq, true_and, Option.map_map]
  rfl

theorem dressed_setEquipmentSnapshot {userNo : UserNo} {snapshot : Vector UInt8 65}
    (h : room.setEquipmentSnapshot userNo snapshot = some next) : Dressed room next := by
  have hcourse := course_setEquipmentSnapshot h
  obtain ⟨dressed, hdressed, rfl⟩ := Option.map_eq_some_iff.1 h
  have hlook : Dressed room dressed := dressed_mapMember hdressed (fun _ => rfl) fun _ => rfl
  have hrest := hlook.rest
  refine ⟨?_, hlook.arrangement, hcourse, ?_⟩
  · rw [hrest]
  · dsimp only
    rw [← hlook.roster, Option.map_map]
    exact congrArg (fun g => Option.map g dressed.frozenRace) (funext fun roster => terms_reequip roster userNo snapshot)

/-! ## Tracks -/

/-- A room with another memory of its random tracks. -/
def retracked (room : ProtocolRoomState) (pool : Option (Nat × Nat)) (used : List Nat) (last : Option Nat) : ProtocolRoomState :=
  { room with randomTrackPool := pool, randomTracksUsed := used, lastRandomTrack := last }

/-- The selection of a track is remembered, and nothing else changes. -/
theorem selectConcreteTrack_eq {candidates : List Nat} {draw track : Nat}
    (h : room.selectConcreteTrack candidates draw = .ok (track, next)) :
    ∃ pool used last, next = retracked room pool used last := by
  have hentered : ∀ pool, ∃ pool' used last, room.enterTrackPool pool = retracked room pool' used last := by
    intro pool
    unfold enterTrackPool
    split
    · exact ⟨room.randomTrackPool, room.randomTracksUsed, room.lastRandomTrack, rfl⟩
    · exact ⟨some pool, [], none, rfl⟩
  unfold selectConcreteTrack at h
  split at h
  · obtain ⟨-, rfl⟩ := Prod.mk.inj (Except.ok.inj h)
    exact ⟨none, [], none, rfl⟩
  · dsimp only at h
    split at h
    · cases h
    · obtain ⟨-, rfl⟩ := Prod.mk.inj (Except.ok.inj h)
      obtain ⟨pool, used, last, heq⟩ := hentered
        (if room.settings.gameType = 2 ∨ room.settings.gameType = 4 then 1 else 0, room.settings.track)
      rw [heq]
      exact ⟨pool, _, _, rfl⟩

end P5136
