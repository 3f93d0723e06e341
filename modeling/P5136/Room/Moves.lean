import P5136.Room.Course
import P5136.World.Finalizing

/-!
# What the operations on a room do to its course

Each operation of a room is a step of its course, or none: who enters, leaves or changes its team; AIs and closed slots; looks and
rankings; finishes and settlements.
-/

namespace P5136

open Function

/-- What may happen at a room id: a room is opened or removed, or something happens to it. -/
inductive Turn : Option Course → Option Course → Prop where
  | opened (gameType : Nat) : Turn none (some (Course.fresh gameType))
  | removed (c : Course) : Turn (some c) none
  | quiet {c c' : Course} : c.Quiet c' → Turn (some c) (some c')

/-- Turns one after the other. -/
abbrev Goes : Option Course → Option Course → Prop := Relation.ReflTransGen Turn

theorem Goes.quiet {c c' : Course} (h : c.Quiet c') : Goes (some c) (some c') := .single (.quiet h)

theorem Goes.of_eq {c c' : Course} (h : c' = c) : Goes (some c) (some c') := by
  rw [h]

namespace ProtocolRoomState

variable {room next : ProtocolRoomState}

/-! ## Members that only look different -/

/-- A room whose members sit as before. -/
theorem course_withMembers (room : ProtocolRoomState) {membersById : MemberId → Option ProtocolRoomMember}
    (h : ∀ id, (membersById id).map (fun member => (member.userNo, member.player.team)) = room.seats id) :
    ({ room with membersById := membersById } : ProtocolRoomState).course = room.course := by
  have hseats : ({ room with membersById := membersById } : ProtocolRoomState).seats = room.seats := funext h
  unfold course
  rw [hseats]
  rfl

/-- A room whose members are changed in their looks. -/
theorem course_mapMembers (room : ProtocolRoomState) (f : MemberId → ProtocolRoomMember → ProtocolRoomMember)
    (h : ∀ id member, (f id member).userNo = member.userNo ∧ (f id member).player.team = member.player.team) :
    ({ room with membersById := fun id => (room.membersById id).map (f id) } : ProtocolRoomState).course = room.course := by
  refine course_withMembers room (fun id => ?_)
  rw [Option.map_map]
  unfold seats
  refine congrArg (fun g => Option.map g (room.membersById id)) (funext fun member => ?_)
  obtain ⟨huser, hteam⟩ := h id member
  exact Prod.ext huser hteam

/-- A room with one member changed in its looks. -/
theorem course_updateMember (room : ProtocolRoomState) (id : MemberId) (f : ProtocolRoomMember → ProtocolRoomMember)
    (h : ∀ member, (f member).userNo = member.userNo ∧ (f member).player.team = member.player.team) :
    ({ room with membersById := update room.membersById id ((room.membersById id).map f) } : ProtocolRoomState).course =
      room.course := by
  refine course_withMembers room (fun i => ?_)
  rw [update_apply]
  by_cases hid : i = id
  · rw [if_pos hid, hid, Option.map_map]
    unfold seats
    refine congrArg (fun g => Option.map g (room.membersById id)) (funext fun member => ?_)
    obtain ⟨huser, hteam⟩ := h member
    exact Prod.ext huser hteam
  · rw [if_neg hid]
    rfl

@[simp] theorem course_setPlayerType (room : ProtocolRoomState) (id : MemberId) (playerType : Int) :
    (room.setPlayerType id playerType).course = room.course := by
  refine course_mapMembers room _ (fun i member => ?_)
  by_cases hid : i = id
  · rw [if_pos hid]
    exact ⟨rfl, rfl⟩
  · rw [if_neg hid]
    exact ⟨rfl, rfl⟩

@[simp] theorem course_rankBy (room : ProtocolRoomState) (order : List MemberId) : (room.rankBy order).course = room.course := by
  refine course_mapMembers room _ (fun i member => ?_)
  by_cases hid : i ∈ order
  · rw [if_pos hid]
    exact ⟨rfl, rfl⟩
  · rw [if_neg hid]
    exact ⟨rfl, rfl⟩

@[simp] theorem course_closeRankings (room : ProtocolRoomState) : room.closeRankings.course = room.course := course_rankBy _ _

@[simp] theorem course_applyNextGridRanking (room : ProtocolRoomState) (ranking : SettlementRanking) :
    (room.applyNextGridRanking ranking).course = room.course := course_rankBy _ _

@[simp] theorem course_assignNextRoomMaster (room : ProtocolRoomState) : room.assignNextRoomMaster.course = room.course := by
  unfold assignNextRoomMaster
  split
  · rename_i id _
    exact course_setPlayerType room id _
  · split
    · rfl
    · rfl

@[simp] theorem course_applyNextLobbyMaster (room : ProtocolRoomState) (ranking : SettlementRanking) :
    (room.applyNextLobbyMaster ranking).course = room.course := by
  unfold applyNextLobbyMaster
  split
  · rfl
  · split
    · rfl
    · rfl

/-- A look of a member changes nothing. -/
theorem course_mapMember {userNo : UserNo} {f : ProtocolRoomMember → ProtocolRoomMember}
    (h : room.mapMember userNo f = some next)
    (hf : ∀ member, (f member).userNo = member.userNo ∧ (f member).player.team = member.player.team) :
    next.course = room.course := by
  unfold mapMember at h
  split at h
  · obtain rfl := Option.some.inj h
    exact course_updateMember room _ f hf
  · obtain ⟨id, -, rfl⟩ := Option.map_eq_some_iff.1 h
    rfl

theorem course_setP2pEndpoint {userNo : UserNo} {address : BitVec 32} {port : UInt16}
    (h : room.setP2pEndpoint userNo address port = some next) : next.course = room.course :=
  course_mapMember h (fun _ => ⟨rfl, rfl⟩)

theorem course_setLiveRp (room : ProtocolRoomState) (userNo : UserNo) (currentRp : Nat) :
    (room.setLiveRp userNo currentRp).course = room.course := by
  unfold setLiveRp
  split
  · rfl
  · exact course_updateMember room _ _ (fun _ => ⟨rfl, rfl⟩)

/-! ## Rosters that only pay or equip differently -/

/-- A room whose roster has the same field. -/
theorem course_withRoster (room : ProtocolRoomState) {frozenRace : Option FrozenRaceRoster}
    (h : frozenRace.map FrozenRaceRoster.field = room.frozenRace.map FrozenRaceRoster.field) :
    ({ room with frozenRace := frozenRace } : ProtocolRoomState).course = room.course := by
  unfold course
  simp only [h]
  rfl

theorem entrants_mapParticipant (userNo : UserNo) {f : FrozenRaceParticipant → FrozenRaceParticipant}
    (hf : ∀ participant, (f participant).entrant = participant.entrant) (l : List FrozenRaceParticipant) :
    (FrozenRaceRoster.mapParticipant userNo f l).map FrozenRaceParticipant.entrant = l.map FrozenRaceParticipant.entrant := by
  induction l with
  | nil => rfl
  | cons participant rest ih =>
    unfold FrozenRaceRoster.mapParticipant
    split
    · rw [List.map_cons, List.map_cons, hf]
    · rw [List.map_cons, List.map_cons, ih]

theorem entrants_modifyFirst (p : FrozenRaceParticipant → Bool) {f : FrozenRaceParticipant → FrozenRaceParticipant}
    (hf : ∀ participant, (f participant).entrant = participant.entrant) (l : List FrozenRaceParticipant) :
    (modifyFirst p f l).map FrozenRaceParticipant.entrant = l.map FrozenRaceParticipant.entrant := by
  induction l with
  | nil => rfl
  | cons participant rest ih =>
    unfold modifyFirst
    split
    · rw [List.map_cons, List.map_cons, hf]
    · rw [List.map_cons, List.map_cons, ih]

theorem field_reequip (roster : FrozenRaceRoster) (userNo : UserNo) (snapshot : Vector UInt8 65) :
    (roster.reequip userNo snapshot).field = roster.field := by
  unfold FrozenRaceRoster.reequip FrozenRaceRoster.field
  simp only [RaceField.mk.injEq, true_and, and_true]
  refine entrants_mapParticipant userNo (fun participant => ?_) roster.participants
  rfl

theorem course_setEquipmentSnapshot {userNo : UserNo} {snapshot : Vector UInt8 65}
    (h : room.setEquipmentSnapshot userNo snapshot = some next) : next.course = room.course := by
  obtain ⟨dressed, hdressed, rfl⟩ := Option.map_eq_some_iff.1 h
  have hsame : dressed.course = room.course := course_mapMember hdressed (fun _ => ⟨rfl, rfl⟩)
  rw [← hsame]
  refine course_withRoster dressed ?_
  rw [Option.map_map]
  exact congrArg (fun g => Option.map g dressed.frozenRace) (funext fun roster => field_reequip roster userNo snapshot)

theorem course_applyEconomy (room : ProtocolRoomState) (task : RewardSettlementTask) (applied : AppliedTimeReward) :
    (room.applyEconomy task applied).course = room.course := by
  refine course_withRoster room ?_
  rw [Option.map_map]
  refine congrArg (fun g => Option.map g room.frozenRace) (funext fun roster => ?_)
  unfold comp FrozenRaceRoster.field
  simp only [RaceField.mk.injEq, true_and, and_true]
  refine entrants_modifyFirst _ (fun participant => ?_) roster.participants
  rfl

/-! ## Seats -/

/-- A member id with another racer, or none. -/
theorem seats_update (membersById : MemberId → Option ProtocolRoomMember) (id : MemberId) (member : Option ProtocolRoomMember) :
    (fun i => (update membersById id member i).map (fun member => (member.userNo, member.player.team))) =
      update (fun i => (membersById i).map (fun member => (member.userNo, member.player.team))) id
        (member.map (fun member => (member.userNo, member.player.team))) :=
  comp_update (Option.map (fun member : ProtocolRoomMember => (member.userNo, member.player.team))) membersById id member

/-- The course of a room with a racer at a member id, or none. -/
theorem course_updateSeat (room : ProtocolRoomState) (id : MemberId) (member : Option ProtocolRoomMember) :
    ({ room with membersById := update room.membersById id member } : ProtocolRoomState).course =
      room.course.withSeat id (member.map (fun member => (member.userNo, member.player.team))) := by
  unfold Course.withSeat course seats
  simp only [Course.mk.injEq, and_true, true_and]
  exact ⟨seats_update room.membersById id member, rfl, rfl⟩

/-- A user leaves. -/
theorem goes_removeUser {userNo : UserNo} (h : room.removeUser userNo = some next) :
    Goes (some room.course) (some next.course) := by
  unfold removeUser at h
  split at h
  · obtain rfl := Option.some.inj h
    refine Goes.of_eq ?_
    split
    · rw [course_assignNextRoomMaster]
      rfl
    · rfl
  · split at h
    · exact absurd h (by simp)
    · rename_i id _
      obtain rfl := Option.some.inj h
      have hcourse := course_updateSeat room id none
      have hleft : room.course.Quiet (room.course.withSeat id none) := .left id
      rw [Option.map_none] at hcourse
      rw [← hcourse] at hleft
      rw [course_closeRankings]
      split
      · rw [course_assignNextRoomMaster]
        exact Goes.quiet hleft
      · exact Goes.quiet hleft

theorem vacant_of_vacantMemberId {id : MemberId} (h : room.vacantMemberId = some id) : room.course.Vacant id := by
  have hvacant := firstIndex_eq_some h
  simp only [vacant, Bool.and_eq_true, Option.isNone_iff_eq_none] at hvacant
  obtain ⟨⟨hmember, hai⟩, -⟩ := hvacant
  refine ⟨?_, ?_⟩
  · change (room.membersById id).map _ = none
    rw [hmember]
    rfl
  · change (room.aisById id).map _ = none
    rw [hai]
    rfl

/-- Who is admitted gets a team that fits. -/
theorem fitsTeam_admission {slot : SlotIndex} {team : Nat} (h : room.admissionSlotAndTeam = some (slot, team)) :
    FitsTeam room.settings.gameType team := by
  intro hmode
  have hteam : room.settings.teamMode = true := hmode
  unfold admissionSlotAndTeam at h
  rw [hteam] at h
  simp only [Bool.not_true, Bool.false_eq_true, if_false] at h
  split at h
  · obtain ⟨-, rfl⟩ := Prod.mk.inj (Option.some.inj h)
    split
    · exact .inr rfl
    · exact .inl rfl
  · obtain ⟨slot', -, hpair⟩ := Option.map_eq_some_iff.1 h
    obtain ⟨-, rfl⟩ := Prod.mk.inj hpair
    split
    · exact .inl rfl
    · exact .inr rfl

/-- A participant enters. -/
theorem goes_addParticipant {userNo : UserNo} {participant : RoomParticipant} (hlobby : room.phase = .lobby)
    (h : room.addParticipant userNo participant = some next) : Goes (some room.course) (some next.course) := by
  unfold addParticipant at h
  split at h
  · obtain ⟨id, -, rfl⟩ := Option.map_eq_some_iff.1 h
    exact Goes.of_eq rfl
  · unfold addRacer at h
    split at h
    · rename_i id slot team hid hteam
      have hentered : room.course.Quiet (room.course.withSeat id (some (userNo, team))) :=
        .entered hlobby (vacant_of_vacantMemberId hid) (fitsTeam_admission hteam)
      have hcourse := course_updateSeat room id (some
        { userNo := userNo
          player := { participant.player with playerType := 2, team := team, ranking := room.members.length }
          floaterCodes := participant.floaterCodes })
      rw [Option.map_some] at hcourse
      rw [← hcourse] at hentered
      obtain rfl := Option.some.inj h
      split
      · exact Goes.quiet hentered
      · exact Goes.quiet hentered
    · exact absurd h (by simp)

/-- The members with the team of one of them set. -/
theorem course_setTeam (room : ProtocolRoomState) (id : MemberId) (team : Nat) (playerType : Int) :
    (room.setTeam id team playerType).course =
      match room.membersById id with
      | some member => room.course.withSeat id (some (member.userNo, team))
      | none => room.course := by
  rcases hmember : room.membersById id with _ | member
  · refine course_withMembers room (fun i => ?_)
    unfold seats
    by_cases hid : i = id
    · rw [hid, hmember]
      rfl
    · simp only [if_neg hid, Option.map_id']
  · have hmembers : (room.setTeam id team playerType).membersById = update room.membersById id (some
        { member with player := { member.player with team := team, playerType := playerType } }) := by
      funext i
      unfold setTeam
      by_cases hid : i = id
      · rw [hid, update_self]
        simp only [hmember, Option.map_some, if_pos]
      · rw [update_of_ne hid]
        simp only [if_neg hid, Option.map_id']
    have hcourse := course_updateSeat room id (some
      { member with player := { member.player with team := team, playerType := playerType } })
    rw [← hmembers] at hcourse
    exact hcourse

/-- A racer changes its team. -/
theorem goes_moveToTeam {id : MemberId} {current target : SlotIndex} {team : RoomTeam} (hlobby : room.phase = .lobby)
    (h : room.moveToTeam id current team = some (next, target)) : Goes (some room.course) (some next.course) := by
  unfold moveToTeam at h
  split at h
  · obtain ⟨rfl, -⟩ := Prod.mk.inj (Option.some.inj h)
    exact .refl
  · obtain ⟨slot, -, hpair⟩ := Option.map_eq_some_iff.1 h
    obtain ⟨rfl, -⟩ := Prod.mk.inj hpair
    have hcourse := course_setTeam room id team.wire PlayerSlotState.notReady.wire
    rcases hmember : room.membersById id with _ | member
    · rw [hmember] at hcourse
      exact Goes.of_eq hcourse
    · rw [hmember] at hcourse
      have hseat : room.course.seats id = some (member.userNo, member.player.team) := by
        change (room.membersById id).map _ = _
        rw [hmember]
        rfl
      have hfits : FitsTeam room.course.gameType team.wire := by
        intro _
        cases team
        · exact .inl rfl
        · exact .inr rfl
      have hmoved : room.course.Quiet (room.course.withSeat id (some (member.userNo, team.wire))) := .moved hlobby hseat hfits
      simp only [← hcourse] at hmoved
      exact Goes.quiet hmoved

/-! ## AIs and closed slots -/

/-- The course of a room with an AI at a member id, or none. -/
theorem course_updateAi (room : ProtocolRoomState) (id : MemberId) (ai : Option RoomAi) :
    ({ room with aisById := update room.aisById id ai } : ProtocolRoomState).course =
      room.course.withAi id (ai.map (·.team)) := by
  unfold Course.withAi course aiTeams
  simp only [Course.mk.injEq, and_true, true_and]
  exact ⟨rfl, comp_update (Option.map (fun ai : RoomAi => ai.team)) room.aisById id ai, rfl⟩

/-- An AI is removed. -/
theorem goes_removeAi {ε : Type} {playerId : Nat} {id : Int} (hlobby : room.phase = .lobby)
    (h : (room.removeAi playerId : Except (Fault ε) _) = .ok (some (id, next))) : Goes (some room.course) (some next.course) := by
  unfold removeAi at h
  split at h
  · rename_i hlt
    dsimp only at h
    split at h
    · exact absurd h (by simp)
    · split at h
      · exact absurd h (by simp)
      · obtain ⟨-, rfl⟩ := Prod.mk.inj (Option.some.inj (Except.ok.inj h))
        have hcourse := course_updateAi room ⟨playerId, hlt⟩ none
        have hremoved : room.course.Quiet (room.course.withAi ⟨playerId, hlt⟩ none) := .aiRemoved _ hlobby
        rw [Option.map_none] at hcourse
        rw [← hcourse] at hremoved
        exact Goes.quiet hremoved
  · exact absurd h (by simp)

/-- An AI is added. -/
theorem goes_addBasicAi {team : Nat} {ai : RoomAi} {added : Int × RoomAi} (hlobby : room.phase = .lobby)
    (hteam : FitsTeam room.settings.gameType team) (h : room.addBasicAi team ai = some (added, next)) :
    Goes (some room.course) (some next.course) ∧ next.phase = .lobby ∧ next.settings = room.settings := by
  unfold addBasicAi at h
  split at h
  · exact absurd h (by simp)
  · rename_i id hid
    split at h
    · exact absurd h (by simp)
    · obtain ⟨-, rfl⟩ := Prod.mk.inj (Option.some.inj h)
      have hcourse := course_updateAi room id (some { ai with team := team })
      have hadded : room.course.Quiet (room.course.withAi id (some team)) := .aiAdded hlobby (vacant_of_vacantMemberId hid) hteam
      rw [Option.map_some] at hcourse
      rw [← hcourse] at hadded
      exact ⟨Goes.quiet hadded, hlobby, rfl⟩

/-- AIs are added. -/
theorem goes_addBasicAis {first second : RoomAi} {added : List (Int × RoomAi)} (hlobby : room.phase = .lobby)
    (h : room.addBasicAis first second = some (added, next)) : Goes (some room.course) (some next.course) := by
  unfold addBasicAis at h
  split at h
  · split at h
    · exact absurd h (by simp)
    · rename_i blue middle hblue
      split at h
      · exact absurd h (by simp)
      · rename_i red last hred
        obtain ⟨-, rfl⟩ := Prod.mk.inj (Option.some.inj h)
        obtain ⟨hfirst, hphase, -⟩ := goes_addBasicAi hlobby (fun _ => .inr rfl) hblue
        obtain ⟨hsecond, -, -⟩ := goes_addBasicAi hphase (fun _ => .inl rfl) hred
        exact hfirst.trans hsecond
  · rename_i hmode
    obtain ⟨⟨one, last⟩, hone, hpair⟩ := Option.map_eq_some_iff.1 h
    obtain ⟨-, rfl⟩ := Prod.mk.inj hpair
    exact (goes_addBasicAi hlobby (fun hteam => absurd hteam hmode) hone).1

theorem course_setClosed (room : ProtocolRoomState) (operation : CloseSlotOperation) (pair : MemberId × SlotIndex) :
    (room.setClosed operation pair).course = room.course := by
  unfold setClosed
  split
  · rfl
  · rfl

/-- Slots are closed or opened. -/
theorem course_setCloseSlots {request : CloseSlotRequest} (h : room.setCloseSlots request = some next) :
    next.course = room.course := by
  unfold setCloseSlots at h
  split at h
  · exact absurd h (by simp)
  · rename_i pairs _
    split at h
    · obtain rfl := Option.some.inj h
      clear h
      have hfold : ∀ (pairs : List (MemberId × SlotIndex)) (room : ProtocolRoomState),
          (pairs.foldl (fun room pair => room.setClosed request.operation pair) room).course = room.course := by
        intro pairs
        induction pairs with
        | nil => intro room; rfl
        | cons pair rest ih =>
          intro room
          rw [List.foldl_cons, ih, course_setClosed]
      exact hfold pairs room
    · exact absurd h (by simp)

/-! ## Races -/

theorem course_backToLobby (room : ProtocolRoomState) : room.backToLobby.course = room.course.inLobby := by
  have hcourse := course_mapMembers room (fun _ member =>
    { member with player := { member.player with playerType := PlayerSlotState.notReady.wire } }) (fun _ _ => ⟨rfl, rfl⟩)
  have hseats := congrArg Course.seats hcourse
  unfold backToLobby course Course.inLobby
  simp only [Course.mk.injEq, and_true, true_and]
  exact ⟨hseats, rfl, rfl, rfl, rfl⟩

/-- A room with another history of tracks. -/
def SameButTracks (room next : ProtocolRoomState) : Prop :=
  next.course = room.course ∧ next.membersById = room.membersById ∧ next.aisById = room.aisById ∧ next.phase = room.phase

theorem sameButTracks_enterTrackPool (room : ProtocolRoomState) (pool : Nat × Nat) :
    SameButTracks room (room.enterTrackPool pool) := by
  unfold enterTrackPool
  split
  · exact ⟨rfl, rfl, rfl, rfl⟩
  · exact ⟨rfl, rfl, rfl, rfl⟩

/-- The selection of a track changes nothing else. -/
theorem sameButTracks_selectConcreteTrack {candidates : List Nat} {draw track : Nat}
    (h : room.selectConcreteTrack candidates draw = .ok (track, next)) : SameButTracks room next := by
  unfold selectConcreteTrack at h
  split at h
  · obtain ⟨-, rfl⟩ := Prod.mk.inj (Except.ok.inj h)
    exact ⟨rfl, rfl, rfl, rfl⟩
  · dsimp only at h
    split at h
    · exact absurd h (by simp)
    · obtain ⟨-, rfl⟩ := Prod.mk.inj (Except.ok.inj h)
      exact sameButTracks_enterTrackPool room _

theorem course_setFinalization (room : ProtocolRoomState) {old : SettlementFinalization} (h : room.finalization = some old)
    (finalization : SettlementFinalization) :
    (room.setFinalization finalization).course = { room.course with outcome := finalization.outcome } := by
  obtain ⟨settlement, hsettlement, -⟩ := Option.map_eq_some_iff.1 h
  unfold setFinalization course outcome
  simp only [Course.mk.injEq, and_true, true_and, hsettlement, Option.map_some]
  exact ⟨rfl, rfl⟩

theorem outcome_of_finalization {finalization : SettlementFinalization} (h : room.finalization = some finalization) :
    room.course.outcome = finalization.outcome := by
  obtain ⟨settlement, hsettlement, rfl⟩ := Option.map_eq_some_iff.1 h
  change room.outcome = _
  unfold outcome
  rw [hsettlement]

/-- A finalization with the same outcome changes nothing. -/
theorem course_setFinalization_same {old finalization : SettlementFinalization} (h : room.finalization = some old)
    (hsame : finalization.outcome = old.outcome) : (room.setFinalization finalization).course = room.course := by
  rw [course_setFinalization room h, hsame, ← outcome_of_finalization h]

/-- A settlement that fails keeps its ranking. -/
theorem goes_retainAsDeadLetter (room : ProtocolRoomState) (reason : RewardTerminalReason) (failedUserNo : Option UserNo)
    (failedNickname : Option String) :
    Goes (some room.course) (some (room.retainAsDeadLetter reason failedUserNo failedNickname).course) := by
  unfold retainAsDeadLetter
  rcases hfinalization : room.finalization with _ | finalization
  · exact .refl
  · cases finalization with
    | awaitingDeadline =>
      have hawaiting := outcome_of_finalization hfinalization
      simp only [course_setFinalization room hfinalization]
      exact Goes.quiet (.unplanned hawaiting)
    | persisting ranking rewards => exact Goes.of_eq (course_setFinalization_same hfinalization rfl)
    | ready ranking rewards packets => exact Goes.of_eq (course_setFinalization_same hfinalization rfl)
    | failed deadLetter => exact Goes.of_eq (course_setFinalization_same hfinalization rfl)

theorem finalization_of_persisting {ranking : SettlementRanking} {rewards : List RewardPersistenceEntry}
    (h : room.persisting = some (ranking, rewards)) : room.finalization = some (.persisting ranking rewards) := by
  unfold persisting at h
  obtain ⟨finalization, hfinalization, hpersisting⟩ := Option.bind_eq_some_iff.1 h
  rw [hfinalization]
  cases finalization with
  | persisting ranking' rewards' =>
    obtain ⟨rfl, rfl⟩ := Prod.mk.inj (Option.some.inj hpersisting)
    rfl
  | awaitingDeadline => exact absurd hpersisting (by simp [SettlementFinalization.persisting?])
  | ready _ _ _ => exact absurd hpersisting (by simp [SettlementFinalization.persisting?])
  | failed _ => exact absurd hpersisting (by simp [SettlementFinalization.persisting?])

/-- A race that nobody runs any more settles. -/
theorem goes_abandonedRoom {now : Instant} {endTick : Nat} (h : room.phase = .running) :
    Goes (some room.course) (some (World.abandonedRoom room now endTick).course) :=
  Goes.quiet (.abandoned h)

/-- A finish is recorded. -/
theorem goes_finishedRoom {playerId : Int} {raceTime : Nat} {now : Instant} {tick : Nat} {settlement : Option SettlementState}
    {fanout : PendingRaceFanout} (hphase : room.phase = .running ∨ room.phase = .settling)
    (hopen : World.settlementClosed room now = false)
    (hsettlement : if room.phase = .running then settlement = SettlementState.begun now tick ∧ settlement.isSome else settlement = none) :
    Goes (some room.course) (some (World.finishedRoom room playerId raceTime settlement fanout).course) := by
  rcases hphase with hrun | hsettle
  · rw [if_pos hrun] at hsettlement
    obtain ⟨hbegun, hsome⟩ := hsettlement
    obtain ⟨begun, rfl⟩ := Option.isSome_iff_exists.1 hsome
    obtain ⟨deadline, -, rfl⟩ := Option.map_eq_some_iff.1 hbegun.symm
    exact Goes.quiet (.finishedFirst playerId raceTime hrun)
  · rw [if_neg (by rw [hsettle]; simp)] at hsettlement
    subst hsettlement
    refine Goes.quiet (.finishedLater playerId raceTime hsettle ?_)
    intro ranking hclosed
    unfold World.settlementClosed at hopen
    rw [hsettle] at hopen
    change room.outcome = _ at hclosed
    unfold outcome at hclosed
    rcases hstate : room.raceProgress.settlement with _ | state
    · rw [hstate] at hclosed
      exact absurd hclosed (by simp)
    · rw [hstate] at hclosed hopen
      simp only [decide_true, Bool.true_and, Option.any_some, SettlementState.closedAt, Bool.or_eq_false_iff,
        decide_eq_false_iff_not, ne_eq, not_not] at hopen
      simp only [hopen.2, SettlementFinalization.outcome, reduceCtorEq] at hclosed

/-- The members of a room are at its seats. -/
theorem mem_members {id : MemberId} {member : ProtocolRoomMember} :
    (id, member) ∈ room.members ↔ room.membersById id = some member := by
  unfold members
  rw [List.mem_filterMap]
  constructor
  · rintro ⟨i, -, hmap⟩
    obtain ⟨member', hmember, heq⟩ := Option.map_eq_some_iff.1 hmap
    obtain ⟨rfl, rfl⟩ := Prod.mk.inj heq
    exact hmember
  · intro hmember
    exact ⟨id, List.mem_finRange id, by rw [hmember]; rfl⟩

theorem mem_ais {id : MemberId} {ai : RoomAi} : (id, ai) ∈ room.ais ↔ room.aisById id = some ai := by
  unfold ais
  rw [List.mem_filterMap]
  constructor
  · rintro ⟨i, -, hmap⟩
    obtain ⟨ai', hai, heq⟩ := Option.map_eq_some_iff.1 hmap
    obtain ⟨rfl, rfl⟩ := Prod.mk.inj heq
    exact hai
  · intro hai
    exact ⟨id, List.mem_finRange id, by rw [hai]; rfl⟩

/-- Filtering ids by what is there keeps each at most once. -/
theorem nodup_occupied {α : Type} (f : MemberId → Option α) :
    (((List.finRange 8).filterMap (fun id => (f id).map (fun a => (id, a)))).map Prod.fst).Nodup := by
  rw [List.map_filterMap]
  refine List.Nodup.filterMap ?_ (List.nodup_finRange 8)
  intro i j k hi hj
  simp only [Option.mem_def, Option.map_map, Option.map_eq_some_iff] at hi hj
  obtain ⟨_, _, rfl⟩ := hi
  obtain ⟨_, _, hk⟩ := hj
  exact hk.symm

/-- The roster that a start freezes is that of the room's seats. -/
theorem freezes_freezeRaceRoster {activeIdentity : UserNo → Option IdentityBinding} {fence : RaceFence} {concreteTrack : Nat}
    {roster : FrozenRaceRoster} (hmembers : room.members ≠ [])
    (h : room.freezeRaceRoster activeIdentity fence concreteTrack = .ok roster) :
    room.course.Freezes roster.field ∧ roster.fence = fence := by
  obtain ⟨racers, hracers, hrest⟩ := Checks.bind_eq_ok.1 h
  obtain ⟨watchers, hwatchers, hroster⟩ := Checks.bind_eq_ok.1 hrest
  obtain rfl := Except.ok.inj hroster
  rw [Checks.traverse_eq_ok] at hracers hwatchers
  have hfrozen : List.Forall₂ (fun (entry : MemberId × ProtocolRoomMember) (participant : FrozenRaceParticipant) =>
      participant.observer = false ∧ participant.playerId = entry.1.val ∧ participant.team = entry.2.player.team)
      room.members racers := by
    refine hracers.imp (fun entry participant hfreeze => ?_)
    split at hfreeze
    · exact absurd hfreeze (by simp)
    · obtain rfl := Except.ok.inj hfreeze
      exact ⟨rfl, rfl, rfl⟩
  have hwatching : ∀ participant ∈ watchers, participant.observer = true := by
    intro participant hparticipant
    obtain ⟨entry, -, hfreeze⟩ := Course.forall₂_left hwatchers hparticipant
    split at hfreeze
    · exact absurd hfreeze (by simp)
    · obtain rfl := Except.ok.inj hfreeze
      rfl
  have hracing : (racers ++ watchers).filter (fun participant => !participant.observer) = racers := by
    rw [List.filter_append, List.filter_eq_self.2, List.filter_eq_nil_iff.2, List.append_nil]
    · intro participant hparticipant
      simp [hwatching participant hparticipant]
    · intro participant hparticipant
      obtain ⟨entry, -, hobserver, -⟩ := Course.forall₂_left hfrozen hparticipant
      simp [hobserver]
  refine ⟨⟨⟨room.members.map Prod.fst, nodup_occupied room.membersById, ?_, ?_, ?_⟩,
    ⟨room.ais.map Prod.fst, nodup_occupied room.aisById, ?_, ?_⟩⟩, rfl⟩
  · exact fun hnil => hmembers (List.map_eq_nil_iff.1 hnil)
  · intro id
    change id ∈ room.members.map Prod.fst ↔ ((room.membersById id).map _).isSome
    rw [Option.isSome_map, Option.isSome_iff_exists, List.mem_map]
    constructor
    · rintro ⟨⟨id', member⟩, hmember, rfl⟩
      exact ⟨member, mem_members.1 hmember⟩
    · rintro ⟨member, hmember⟩
      exact ⟨(id, member), mem_members.2 hmember, rfl⟩
  · rw [racers_field, FrozenRaceRoster.racers, hracing, List.forall₂_map_left_iff, List.forall₂_map_right_iff]
    have hseated := (List.forall₂_and_left _ _).2 ⟨fun entry hentry => mem_members.1 hentry, hfrozen⟩
    refine hseated.imp (fun entry participant hentry => ?_)
    obtain ⟨hmember, -, hplayer, hteam⟩ := hentry
    refine ⟨hplayer, ?_⟩
    change ((room.membersById entry.1).map _).map _ = some participant.team
    rw [hmember, hteam]
    rfl
  · intro id
    change id ∈ room.ais.map Prod.fst ↔ ((room.aisById id).map _).isSome
    rw [Option.isSome_map, Option.isSome_iff_exists, List.mem_map]
    constructor
    · rintro ⟨⟨id', ai⟩, hai, rfl⟩
      exact ⟨ai, mem_ais.1 hai⟩
    · rintro ⟨ai, hai⟩
      exact ⟨(id, ai), mem_ais.2 hai, rfl⟩
  · unfold FrozenRaceRoster.field
    rw [List.map_map, List.forall₂_map_left_iff, List.forall₂_map_right_iff]
    refine List.forall₂_same.2 (fun entry hentry => ⟨rfl, ?_⟩)
    change (room.aisById entry.1).map _ = _
    rw [mem_ais.1 hentry]
    rfl

end ProtocolRoomState

end P5136
