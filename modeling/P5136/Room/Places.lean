import P5136.Room.Arranging

/-!
# Places

Who has which place in a room, among the racers and the watchers, and what each operation on the tables does to it. What a room
keeps of its race is left alone by all of them.
-/

namespace P5136

namespace ProtocolRoomState

open Function

variable {room next : ProtocolRoomState} {userNo : UserNo} {id : MemberId}

/-- Who has a place. -/
def userAt (room : ProtocolRoomState) : MemberId ⊕ ObserverId → Option UserNo
  | .inl id => (room.membersById id).map (·.userNo)
  | .inr id => (room.observers id).map (·.userNo)

/-- What a room keeps of its race, with its id. -/
def raceState (room : ProtocolRoomState) : RoomId × RoomPhase × Option RaceFence × Option FrozenRaceRoster × RaceProgress ×
    LoadingHandshake :=
  (room.id, room.phase, room.raceFence, room.frozenRace, room.raceProgress, room.loadingHandshake)

/-- Who is in a room has a place. -/
theorem holds_iff_userAt : room.arrangement.Holds userNo ↔ ∃ place, room.userAt place = some userNo := by
  rw [holds_iff]
  constructor
  · rintro (⟨id, member, hmember, huser⟩ | ⟨id, member, hmember, huser⟩)
    · exact ⟨.inl id, Option.map_eq_some_iff.2 ⟨member, hmember, huser⟩⟩
    · exact ⟨.inr id, Option.map_eq_some_iff.2 ⟨member, hmember, huser⟩⟩
  · rintro ⟨id | id, huser⟩
    · obtain ⟨member, hmember, huser⟩ := Option.map_eq_some_iff.1 huser
      exact .inl ⟨id, member, hmember, huser⟩
    · obtain ⟨member, hmember, huser⟩ := Option.map_eq_some_iff.1 huser
      exact .inr ⟨id, member, hmember, huser⟩

/-- Nobody has two places. -/
theorem place_unique (h : room.arrangement.Seated) {p q : MemberId ⊕ ObserverId} (hp : room.userAt p = some userNo)
    (hq : room.userAt q = some userNo) : p = q := by
  have hseat : ∀ {id : MemberId}, room.userAt (.inl id) = some userNo →
      ∃ seat, room.arrangement.humans id = some seat ∧ seat.userNo = userNo := by
    intro id hid
    obtain ⟨member, hmember, huser⟩ := Option.map_eq_some_iff.1 hid
    exact ⟨member.seat, Option.map_eq_some_iff.2 ⟨member, hmember, rfl⟩, huser⟩
  have hwatcher : ∀ {id : ObserverId}, room.userAt (.inr id) = some userNo →
      ∃ watcher, room.arrangement.watchers id = some watcher ∧ watcher.1 = userNo := by
    intro id hid
    obtain ⟨member, hmember, huser⟩ := Option.map_eq_some_iff.1 hid
    exact ⟨member.watcher, Option.map_eq_some_iff.2 ⟨member, hmember, rfl⟩, huser⟩
  rcases p with i | i
  · obtain ⟨s, hs, hsu⟩ := hseat hp
    rcases q with j | j
    · obtain ⟨t, ht, htu⟩ := hseat hq
      rw [h.racing i j s t hs ht (hsu.trans htu.symm)]
    · obtain ⟨t, ht, htu⟩ := hwatcher hq
      exact absurd (hsu.trans htu.symm) (h.apart i j s t hs ht)
  · obtain ⟨s, hs, hsu⟩ := hwatcher hp
    rcases q with j | j
    · obtain ⟨t, ht, htu⟩ := hseat hq
      exact absurd (htu.trans hsu.symm) (h.apart j i t s ht hs)
    · obtain ⟨t, ht, htu⟩ := hwatcher hq
      rw [h.watching i j s t hs ht (hsu.trans htu.symm)]

/-- A table of places with another entry. -/
theorem exists_update {table : MemberId ⊕ ObserverId → Option UserNo} {place : MemberId ⊕ ObserverId} {user : UserNo}
    (hfree : table place = none) :
    (∃ p, update table place (some user) p = some userNo) ↔ (∃ p, table p = some userNo) ∨ userNo = user := by
  constructor
  · rintro ⟨p, hp⟩
    rcases Arrangement.update_cases hp with ⟨-, hsome⟩ | ⟨-, hold⟩
    · exact .inr (Option.some.inj hsome).symm
    · exact .inl ⟨p, hold⟩
  · rintro (⟨p, hp⟩ | rfl)
    · refine ⟨p, ?_⟩
      rwa [update_of_ne]
      rintro rfl
      rw [hfree] at hp
      cases hp
    · exact ⟨place, update_self ..⟩

theorem userAt_updateMember (room : ProtocolRoomState) (id : MemberId) (member : Option ProtocolRoomMember) :
    ({ room with membersById := update room.membersById id member } : ProtocolRoomState).userAt =
      update room.userAt (.inl id) (member.map (·.userNo)) := by
  funext place
  rcases place with i | i
  · change (update room.membersById id member i).map _ = _
    by_cases hi : i = id
    · subst hi
      rw [update_self, update_self]
    · rw [update_of_ne hi, update_of_ne (by simpa using hi)]
      rfl
  · rw [update_of_ne (by simp)]
    rfl

theorem userAt_updateObserver (room : ProtocolRoomState) (id : ObserverId) (member : Option ProtocolRoomMember) :
    ({ room with observers := update room.observers id member } : ProtocolRoomState).userAt =
      update room.userAt (.inr id) (member.map (·.userNo)) := by
  funext place
  rcases place with i | i
  · rw [update_of_ne (by simp)]
    rfl
  · change (update room.observers id member i).map _ = _
    by_cases hi : i = id
    · subst hi
      rw [update_self, update_self]
    · rw [update_of_ne hi, update_of_ne (by simpa using hi)]
      rfl

/-- A change of members that keeps who they are. -/
theorem userAt_mapMembers (room : ProtocolRoomState) {f : MemberId → ProtocolRoomMember → ProtocolRoomMember}
    (hf : ∀ id member, (f id member).userNo = member.userNo) :
    ({ room with membersById := fun id => (room.membersById id).map (f id) } : ProtocolRoomState).userAt = room.userAt := by
  funext place
  rcases place with i | i
  · change ((room.membersById i).map (f i)).map _ = (room.membersById i).map _
    rw [Option.map_map]
    exact congrArg (fun g => Option.map g (room.membersById i)) (funext fun member => hf i member)
  · rfl

/-! ## Coming and going -/

/-- Who enters gets a free place. -/
theorem userAt_addParticipant {participant : RoomParticipant} (h : room.addParticipant userNo participant = some next) :
    ∃ place, room.userAt place = none ∧ next.userAt = update room.userAt place (some userNo) := by
  unfold addParticipant at h
  split at h
  · obtain ⟨id, hid, rfl⟩ := Option.map_eq_some_iff.1 h
    have hfree : room.observers id = none := by simpa using firstIndex_eq_some hid
    refine ⟨.inr id, ?_, ?_⟩
    · change (room.observers id).map _ = none
      rw [hfree]
      rfl
    · exact userAt_updateObserver room id _
  · unfold addRacer at h
    split at h
    · rename_i id slot team hid _
      have hvacant := firstIndex_eq_some hid
      simp only [vacant, Bool.and_eq_true, Option.isNone_iff_eq_none] at hvacant
      obtain rfl := Option.some.inj h
      refine ⟨.inl id, ?_, ?_⟩
      · change (room.membersById id).map _ = none
        rw [hvacant.1.1]
        rfl
      · split
        · exact userAt_updateMember room id _
        · exact userAt_updateMember room id _
    · cases h

theorem userAt_assignNextRoomMaster (room : ProtocolRoomState) : room.assignNextRoomMaster.userAt = room.userAt := by
  unfold assignNextRoomMaster
  split
  · exact userAt_mapMembers room fun i member => by split <;> rfl
  · split
    · rename_i id _
      refine (userAt_updateObserver room id _).trans ?_
      rw [Option.map_map]
      exact update_eq_self (.inr id) room.userAt
    · rfl

theorem userAt_rankBy (room : ProtocolRoomState) (order : List MemberId) : (room.rankBy order).userAt = room.userAt :=
  userAt_mapMembers room fun id member => by split <;> rfl

/-- Who leaves leaves its place. -/
theorem userAt_removeUser (h : room.removeUser userNo = some next) :
    ∃ place, room.userAt place = some userNo ∧ next.userAt = update room.userAt place none := by
  unfold removeUser at h
  split at h
  · rename_i id hid
    obtain ⟨member, hmember, huser⟩ := observerId_eq_some hid
    obtain rfl := Option.some.inj h
    refine ⟨.inr id, Option.map_eq_some_iff.2 ⟨member, hmember, huser⟩, ?_⟩
    split
    · rw [userAt_assignNextRoomMaster]
      exact userAt_updateObserver room id none
    · exact userAt_updateObserver room id none
  · split at h
    · cases h
    · rename_i id hid
      obtain ⟨member, hmember, huser⟩ := memberId_eq_some hid
      obtain rfl := Option.some.inj h
      refine ⟨.inl id, Option.map_eq_some_iff.2 ⟨member, hmember, huser⟩, ?_⟩
      unfold closeRankings
      rw [userAt_rankBy]
      split
      · rw [userAt_assignNextRoomMaster]
        exact userAt_updateMember room id none
      · exact userAt_updateMember room id none

/-- Exactly who is in a room can be removed. -/
theorem removeUser_isSome_iff : (room.removeUser userNo).isSome ↔ room.arrangement.Holds userNo := by
  rw [holds_iff_id]
  unfold removeUser
  rcases room.observerId userNo with _ | id
  · rcases room.memberId userNo with _ | id
    · simp
    · simp
  · simp

/-- After an exit everybody else is there. -/
theorem holds_removeUser {user : UserNo} (hseated : room.arrangement.Seated) (h : room.removeUser userNo = some next) :
    next.arrangement.Holds user ↔ room.arrangement.Holds user ∧ user ≠ userNo := by
  obtain ⟨place, hplace, huserAt⟩ := userAt_removeUser h
  rw [holds_iff_userAt, holds_iff_userAt, huserAt]
  constructor
  · rintro ⟨p, hp⟩
    rcases Arrangement.update_cases hp with ⟨-, hnone⟩ | ⟨hne, hold⟩
    · cases hnone
    · refine ⟨⟨p, hold⟩, ?_⟩
      rintro rfl
      exact hne (place_unique hseated hold hplace)
  · rintro ⟨⟨p, hp⟩, hne⟩
    refine ⟨p, ?_⟩
    rwa [update_of_ne]
    rintro rfl
    exact hne (Option.some.inj (hp.symm.trans hplace))

/-- After an entry whoever entered is there too. -/
theorem holds_addParticipant {participant : RoomParticipant} {user : UserNo}
    (h : room.addParticipant userNo participant = some next) :
    next.arrangement.Holds user ↔ room.arrangement.Holds user ∨ user = userNo := by
  obtain ⟨place, hplace, huserAt⟩ := userAt_addParticipant h
  rw [holds_iff_userAt, holds_iff_userAt, huserAt]
  exact exists_update hplace

/-! ## What a room keeps of its race -/

theorem raceState_addParticipant {participant : RoomParticipant} (h : room.addParticipant userNo participant = some next) :
    next.raceState = room.raceState := by
  unfold addParticipant at h
  split at h
  · obtain ⟨id, -, rfl⟩ := Option.map_eq_some_iff.1 h
    rfl
  · unfold addRacer at h
    split at h
    · obtain rfl := Option.some.inj h
      split
      · rfl
      · rfl
    · cases h

theorem raceState_assignNextRoomMaster (room : ProtocolRoomState) : room.assignNextRoomMaster.raceState = room.raceState := by
  unfold assignNextRoomMaster
  split
  · rfl
  · split
    · rfl
    · rfl

theorem raceState_rankBy (room : ProtocolRoomState) (order : List MemberId) : (room.rankBy order).raceState = room.raceState := rfl

theorem raceState_removeUser (h : room.removeUser userNo = some next) : next.raceState = room.raceState := by
  unfold removeUser at h
  split at h
  · obtain rfl := Option.some.inj h
    split
    · exact raceState_assignNextRoomMaster _
    · rfl
  · split at h
    · cases h
    · obtain rfl := Option.some.inj h
      unfold closeRankings
      rw [raceState_rankBy]
      split
      · exact raceState_assignNextRoomMaster _
      · rfl

/-! ## Teams, AIs and slots -/

/-- Everybody has the place it had, and the race is as it was. -/
structure Rearranged (room next : ProtocolRoomState) : Prop where
  places : next.userAt = room.userAt
  race : next.raceState = room.raceState

theorem Rearranged.refl (room : ProtocolRoomState) : Rearranged room room := ⟨rfl, rfl⟩

theorem Rearranged.trans {last : ProtocolRoomState} (h : Rearranged room next) (h' : Rearranged next last) :
    Rearranged room last := ⟨h'.places.trans h.places, h'.race.trans h.race⟩

theorem Rearranged.holds (h : Rearranged room next) {user : UserNo} : next.arrangement.Holds user ↔ room.arrangement.Holds user := by
  rw [holds_iff_userAt, holds_iff_userAt, h.places]

theorem rearranged_moveToTeam {current target : SlotIndex} {team : RoomTeam} (h : room.moveToTeam id current team = some (next, target)) :
    Rearranged room next := by
  unfold moveToTeam at h
  split at h
  · obtain ⟨rfl, -⟩ := Prod.mk.inj (Option.some.inj h)
    exact .refl room
  · obtain ⟨slot, -, heq⟩ := Option.map_eq_some_iff.1 h
    obtain ⟨rfl, -⟩ := Prod.mk.inj heq
    exact ⟨userAt_mapMembers room fun i member => by split <;> rfl, rfl⟩

theorem rearranged_addBasicAi {team : Nat} {ai : RoomAi} {added : Int × RoomAi} (h : room.addBasicAi team ai = some (added, next)) :
    Rearranged room next := by
  unfold addBasicAi at h
  split at h
  · cases h
  · split at h
    · cases h
    · obtain ⟨-, rfl⟩ := Prod.mk.inj (Option.some.inj h)
      exact ⟨rfl, rfl⟩

theorem rearranged_addBasicAis {first second : RoomAi} {added : List (Int × RoomAi)}
    (h : room.addBasicAis first second = some (added, next)) : Rearranged room next := by
  unfold addBasicAis at h
  split at h
  · split at h
    · cases h
    · rename_i blue middle hblue
      split at h
      · cases h
      · rename_i red last hred
        obtain ⟨-, rfl⟩ := Prod.mk.inj (Option.some.inj h)
        exact (rearranged_addBasicAi hblue).trans (rearranged_addBasicAi hred)
  · obtain ⟨⟨one, last⟩, hone, heq⟩ := Option.map_eq_some_iff.1 h
    obtain ⟨-, rfl⟩ := Prod.mk.inj heq
    exact rearranged_addBasicAi hone

theorem rearranged_removeAi {ε : Type} {playerId : Nat} {removed : Int}
    (h : (room.removeAi playerId : Except (Fault ε) _) = .ok (some (removed, next))) : Rearranged room next := by
  unfold removeAi at h
  split at h
  · dsimp only at h
    split at h
    · cases Except.ok.inj h
    · split at h
      · cases h
      · obtain ⟨-, rfl⟩ := Prod.mk.inj (Option.some.inj (Except.ok.inj h))
        exact ⟨rfl, rfl⟩
  · cases Except.ok.inj h

theorem rearranged_setClosed (room : ProtocolRoomState) (operation : CloseSlotOperation) (pair : MemberId × SlotIndex) :
    Rearranged room (room.setClosed operation pair) := by
  unfold setClosed
  split
  · exact ⟨rfl, rfl⟩
  · exact ⟨rfl, rfl⟩

theorem rearranged_setCloseSlots {request : CloseSlotRequest} (h : room.setCloseSlots request = some next) : Rearranged room next := by
  have hfold : ∀ (pairs : List (MemberId × SlotIndex)) (room : ProtocolRoomState),
      Rearranged room (pairs.foldl (fun room pair => room.setClosed request.operation pair) room) := by
    intro pairs
    induction pairs with
    | nil => exact Rearranged.refl
    | cons pair rest ih => exact fun room => (rearranged_setClosed room request.operation pair).trans (ih _)
  unfold setCloseSlots at h
  split at h
  · cases h
  · split at h
    · obtain rfl := Option.some.inj h
      exact hfold _ room
    · cases h

/-! ## The next lobby -/

theorem userAt_backToLobby (room : ProtocolRoomState) : room.backToLobby.userAt = room.userAt :=
  userAt_mapMembers room fun _ _ => rfl

theorem id_nextLobby (room : ProtocolRoomState) (ranking : SettlementRanking) : (room.nextLobby ranking).id = room.id := by
  unfold nextLobby applyNextLobbyMaster
  split
  · rfl
  · split
    · rfl
    · rfl

theorem userAt_nextLobby (room : ProtocolRoomState) (ranking : SettlementRanking) :
    (room.nextLobby ranking).userAt = room.userAt := by
  unfold nextLobby
  rw [userAt_backToLobby, ← userAt_rankBy room]
  unfold applyNextLobbyMaster applyNextGridRanking
  split
  · rfl
  · split
    · rfl
    · rfl

end ProtocolRoomState

end P5136
