import P5136.Room.Arrangement

/-!
# What the operations on a room do to its arrangement

Who enters, leaves, changes its team or leads; AIs and closed slots; the grid after a race. Each operation keeps the tables in
agreement. Then what the agreement is good for: a racer is let in exactly when a member id is free, and no operation meets a
racer or an AI without a slot.
-/

namespace P5136

namespace ProtocolRoomState

open Arrangement Function ProtocolRoomMember

variable {room next : ProtocolRoomState} {userNo : UserNo} {id : MemberId} {slot : SlotIndex}

/-! ## Reading the tables -/

theorem not_taken_iff : ¬room.arrangement.Taken id ↔ room.vacant id = true := by
  unfold Arrangement.Taken arrangement aiTeams vacant
  simp [and_assoc]

theorem taken_iff : room.arrangement.Taken id ↔ room.vacant id = false := by
  rw [← Bool.not_eq_true, ← not_taken_iff, not_not]

/-- A user is there when a member says so. -/
theorem holds_iff : room.arrangement.Holds userNo ↔ (∃ id member, room.membersById id = some member ∧ member.userNo = userNo) ∨
    ∃ id member, room.observers id = some member ∧ member.userNo = userNo := by
  unfold Arrangement.Holds arrangement
  constructor
  · rintro (⟨id, seat, hseat, huser⟩ | ⟨id, watcher, hwatcher, huser⟩)
    · obtain ⟨member, hmember, rfl⟩ := Option.map_eq_some_iff.1 hseat
      exact .inl ⟨id, member, hmember, huser⟩
    · obtain ⟨member, hmember, rfl⟩ := Option.map_eq_some_iff.1 hwatcher
      exact .inr ⟨id, member, hmember, huser⟩
  · rintro (⟨id, member, hmember, huser⟩ | ⟨id, member, hmember, huser⟩)
    · exact .inl ⟨id, member.seat, by dsimp only; rw [hmember]; rfl, huser⟩
    · exact .inr ⟨id, member.watcher, by dsimp only; rw [hmember]; rfl, huser⟩

theorem memberId_eq_some (h : room.memberId userNo = some id) : ∃ member, room.membersById id = some member ∧ member.userNo = userNo := by
  have hany := firstIndex_eq_some h
  obtain ⟨member, hmember, huser⟩ := (Option.any_eq_true _ _).1 hany
  exact ⟨member, hmember, of_decide_eq_true huser⟩

theorem observerId_eq_some {id : ObserverId} (h : room.observerId userNo = some id) :
    ∃ member, room.observers id = some member ∧ member.userNo = userNo := by
  have hany := firstIndex_eq_some h
  obtain ⟨member, hmember, huser⟩ := (Option.any_eq_true _ _).1 hany
  exact ⟨member, hmember, of_decide_eq_true huser⟩

/-- The user is in the room when it has a member id or an observer id. -/
theorem holds_iff_id : room.arrangement.Holds userNo ↔ (room.memberId userNo).isSome ∨ (room.observerId userNo).isSome := by
  rw [holds_iff]
  constructor
  · rintro (⟨id, member, hmember, huser⟩ | ⟨id, member, hmember, huser⟩)
    · refine .inl (Option.isSome_iff_exists.2 (firstIndex_isSome (i := id) ?_))
      rw [hmember]
      simpa using huser
    · refine .inr (Option.isSome_iff_exists.2 (firstIndex_isSome (i := id) ?_))
      rw [hmember]
      simpa using huser
  · rintro (h | h)
    · obtain ⟨id, hid⟩ := Option.isSome_iff_exists.1 h
      obtain ⟨member, hmember, huser⟩ := memberId_eq_some hid
      exact .inl ⟨id, member, hmember, huser⟩
    · obtain ⟨id, hid⟩ := Option.isSome_iff_exists.1 h
      obtain ⟨member, hmember, huser⟩ := observerId_eq_some hid
      exact .inr ⟨id, member, hmember, huser⟩

/-- A player id is that of a human who is there when it is looked up. -/
theorem occupied_iff {playerId : Int} : room.arrangement.Occupied playerId ↔ (room.memberByPlayerId playerId).isSome := by
  unfold Arrangement.Occupied arrangement memberByPlayerId observerPlayerId
  simp only [Option.isSome_map]
  constructor
  · rintro (⟨id, rfl, hsome⟩ | ⟨id, rfl, hsome⟩)
    · have hrange : (0 : Int) ≤ id.val ∧ (id.val : Int) < 8 := Course.memberId_fits id
      rw [dif_pos hrange]
      exact hsome
    · have hid := id.isLt
      rw [dif_neg (by omega), dif_pos (by omega)]
      have heq : (⟨((8 : Int) + id.val - 8).toNat, by omega⟩ : ObserverId) = id := Fin.ext (by simp)
      rw [heq]
      exact hsome
  · intro h
    split at h
    · rename_i hrange
      refine .inl ⟨_, ?_, h⟩
      simp only
      omega
    · split at h
      · rename_i hrange
        refine .inr ⟨_, ?_, h⟩
        simp only
        omega
      · cases h

/-- Nobody is in a room when it is empty. -/
theorem isEmpty_iff : room.isEmpty = true ↔ ∀ userNo, ¬room.arrangement.Holds userNo := by
  have hmembers : room.members = [] ↔ ∀ id, room.membersById id = none := by
    constructor
    · intro hnil id
      rcases hmember : room.membersById id with _ | member
      · rfl
      · have hmem := mem_members.2 hmember
        rw [hnil] at hmem
        cases hmem
    · intro hnone
      refine List.eq_nil_iff_forall_not_mem.2 ?_
      rintro ⟨id, member⟩ hmem
      have hmember := mem_members.1 hmem
      rw [hnone] at hmember
      cases hmember
  have hwatchers : room.watchers = [] ↔ ∀ id, room.observers id = none := by
    unfold watchers
    rw [List.filterMap_eq_nil_iff]
    simp
  unfold isEmpty
  rw [Bool.and_eq_true, List.isEmpty_iff, List.isEmpty_iff, hmembers, hwatchers]
  constructor
  · rintro ⟨hhuman, hwatcher⟩ userNo hholds
    rcases holds_iff.1 hholds with ⟨id, member, hmember, -⟩ | ⟨id, member, hmember, -⟩
    · rw [hhuman] at hmember
      cases hmember
    · rw [hwatcher] at hmember
      cases hmember
  · intro hnobody
    refine ⟨fun id => ?_, fun id => ?_⟩
    · rcases hmember : room.membersById id with _ | member
      · rfl
      · exact absurd (holds_iff.2 (.inl ⟨id, member, hmember, rfl⟩)) (hnobody member.userNo)
    · rcases hmember : room.observers id with _ | member
      · rfl
      · exact absurd (holds_iff.2 (.inr ⟨id, member, hmember, rfl⟩)) (hnobody member.userNo)

/-- The member ids of the humans. -/
theorem mem_memberIds : id ∈ room.members.map Prod.fst ↔ (room.arrangement.humans id).isSome := by
  unfold arrangement
  rw [List.mem_map, Option.isSome_map, Option.isSome_iff_exists]
  constructor
  · rintro ⟨⟨i, member⟩, hmember, rfl⟩
    exact ⟨member, mem_members.1 hmember⟩
  · rintro ⟨member, hmember⟩
    exact ⟨(id, member), mem_members.2 hmember, rfl⟩

/-! ## Looks -/

/-- Members that look different but say the same. -/
theorem arrangement_mapMembers (room : ProtocolRoomState) {f : MemberId → ProtocolRoomMember → ProtocolRoomMember}
    (hf : ∀ id member, (f id member).seat = member.seat) :
    ({ room with membersById := fun id => (room.membersById id).map (f id) } : ProtocolRoomState).arrangement = room.arrangement := by
  unfold arrangement
  simp only [Arrangement.mk.injEq, true_and]
  refine ⟨funext fun id => ?_, rfl, trivial⟩
  rw [Option.map_map]
  exact congrArg (fun g => Option.map g (room.membersById id)) (funext fun member => hf id member)

@[simp] theorem arrangement_setPlayerType (room : ProtocolRoomState) (id : MemberId) (playerType : Int) :
    (room.setPlayerType id playerType).arrangement = room.arrangement := by
  refine arrangement_mapMembers room fun i member => ?_
  split
  · rfl
  · rfl

/-- A table with one entry changed in its look. -/
theorem map_update_look {κ α β : Type} [DecidableEq κ] (g : α → β) {f : α → α} (hf : ∀ a, g (f a) = g a) (table : κ → Option α) (k : κ) :
    (fun i => (update table k ((table k).map f) i).map g) = fun i => (table i).map g := by
  funext i
  rw [update_apply]
  split
  · rename_i hi
    rw [hi, Option.map_map]
    exact congrArg (fun h => Option.map h (table k)) (funext hf)
  · rfl

/-- A member that looks different but says the same. -/
theorem arrangement_updateMember (room : ProtocolRoomState) (id : MemberId) {f : ProtocolRoomMember → ProtocolRoomMember}
    (hf : ∀ member, (f member).seat = member.seat) :
    ({ room with membersById := update room.membersById id ((room.membersById id).map f) } : ProtocolRoomState).arrangement =
      room.arrangement := by
  unfold arrangement
  simp only [Arrangement.mk.injEq, true_and]
  exact ⟨map_update_look _ hf _ _, rfl, trivial⟩

theorem arrangement_updateObserver (room : ProtocolRoomState) (id : ObserverId) {f : ProtocolRoomMember → ProtocolRoomMember}
    (hf : ∀ member, (f member).watcher = member.watcher) :
    ({ room with observers := update room.observers id ((room.observers id).map f) } : ProtocolRoomState).arrangement =
      room.arrangement := by
  unfold arrangement
  simp only [Arrangement.mk.injEq, true_and]
  exact ⟨rfl, map_update_look _ hf _ _, trivial⟩

/-- A look of a member changes nothing. -/
theorem arrangement_mapMember {f : ProtocolRoomMember → ProtocolRoomMember} (h : room.mapMember userNo f = some next)
    (hseat : ∀ member, (f member).seat = member.seat) (hwatcher : ∀ member, (f member).watcher = member.watcher) :
    next.arrangement = room.arrangement := by
  unfold mapMember at h
  split at h
  · obtain rfl := Option.some.inj h
    exact arrangement_updateMember room _ hseat
  · obtain ⟨id, -, rfl⟩ := Option.map_eq_some_iff.1 h
    exact arrangement_updateObserver room id hwatcher

/-! ## Entering -/

/-- An empty room. -/
theorem sound_new (id : RoomId) (settings : RoomSettings) : (ProtocolRoomState.new id settings).arrangement.Sound where
  human := by
    rintro i ⟨⟩
  ai := by
    rintro i ⟨⟩
  placed := Placement.empty.of_iff fun i => by
    unfold Arrangement.Taken arrangement aiTeams ProtocolRoomState.new
    simp
  closed := by
    rintro i s ⟨⟩
  sides := by
    rintro s i team ⟨⟩
  racing := by
    rintro i j s t ⟨⟩
  watching := by
    rintro i j s t ⟨⟩
  apart := by
    rintro i j s t ⟨⟩
  shown := by
    rintro i s ⟨⟩
  shownWatcher := by
    rintro i s ⟨⟩
  grid := onGrid_empty
  led := by
    rintro ⟨userNo, ⟨i, s, ⟨⟩, -⟩ | ⟨i, s, ⟨⟩, -⟩⟩

/-- A free slot of a team is free, and on the side of the team. -/
theorem freeSlot_eq_some {team : Nat} (h : room.freeSlot team = some slot) :
    room.slotPositions slot = none ∧ teamSlot team slot = true := by
  have hfree := firstIndex_eq_some h
  simp only [Bool.and_eq_true, Option.isNone_iff_eq_none] at hfree
  exact ⟨hfree.2, hfree.1⟩

/-- Blue and red slots are on their sides. -/
theorem sides_of_teamSlot {team : Nat} (hteam : team = 1 ∨ team = 2) (h : teamSlot team slot = true) : Sides true team slot := by
  unfold teamSlot at h
  unfold Sides
  rw [if_pos rfl]
  rcases hteam with rfl | rfl
  · exact .inr ⟨rfl, by simpa using h⟩
  · exact .inl ⟨rfl, by simpa using h⟩

/-- Who is admitted gets a free slot on the side of its team. -/
theorem admissionSlotAndTeam_eq_some {team : Nat} (h : room.admissionSlotAndTeam = some (slot, team)) :
    room.slotPositions slot = none ∧ Sides room.settings.teamMode team slot := by
  unfold admissionSlotAndTeam at h
  rcases hmode : room.settings.teamMode with _ | _
  · rw [hmode] at h
    simp only [Bool.not_false, if_true] at h
    obtain ⟨slot', hslot, hpair⟩ := Option.map_eq_some_iff.1 h
    obtain ⟨rfl, rfl⟩ := Prod.mk.inj hpair
    exact ⟨(freeSlot_eq_some hslot).1, by simp [Sides]⟩
  · rw [hmode] at h
    simp only [Bool.not_true, Bool.false_eq_true, if_false] at h
    split at h
    · rename_i slot' hslot
      obtain ⟨rfl, rfl⟩ := Prod.mk.inj (Option.some.inj h)
      obtain ⟨hfree, hside⟩ := freeSlot_eq_some hslot
      refine ⟨hfree, sides_of_teamSlot ?_ hside⟩
      split
      · exact .inr rfl
      · exact .inl rfl
    · obtain ⟨slot', hslot, hpair⟩ := Option.map_eq_some_iff.1 h
      obtain ⟨rfl, rfl⟩ := Prod.mk.inj hpair
      obtain ⟨hfree, hside⟩ := freeSlot_eq_some hslot
      refine ⟨hfree, sides_of_teamSlot ?_ hside⟩
      split
      · exact .inl rfl
      · exact .inr rfl

/-- The humans of a room with another one. -/
theorem humans_update (membersById : MemberId → Option ProtocolRoomMember) (id : MemberId) (member : Option ProtocolRoomMember) :
    (fun i => (update membersById id member i).map seat) =
      update (fun i => (membersById i).map seat) id (member.map seat) :=
  comp_update (Option.map seat) membersById id member

theorem watchers_update (observers : ObserverId → Option ProtocolRoomMember) (id : ObserverId) (member : Option ProtocolRoomMember) :
    (fun i => (update observers id member i).map watcher) =
      update (fun i => (observers i).map watcher) id (member.map watcher) :=
  comp_update (Option.map watcher) observers id member

/-- A racer enters. -/
theorem sound_addRacer {participant : RoomParticipant} (h : room.arrangement.Sound) (hnew : ¬room.arrangement.Holds userNo)
    (hshown : participant.player.userNo = userNo.get) (hadd : room.addRacer userNo participant = some next) :
    next.arrangement.Sound := by
  unfold addRacer at hadd
  split at hadd
  · rename_i id slot team hid hteam
    obtain ⟨hfree, hside⟩ := admissionSlotAndTeam_eq_some hteam
    have hvacant := not_taken_iff.2 (firstIndex_eq_some hid)
    have hnone : room.arrangement.humans id = none := (not_taken hvacant).1
    dsimp only at hadd
    generalize hmember : (⟨userNo, { participant.player with playerType := 2, team := team, ranking := room.members.length },
      participant.floaterCodes⟩ : ProtocolRoomMember) = member at hadd
    have hseat : member.seat = ⟨userNo, team, room.members.length, userNo.get⟩ := by
      rw [← hmember, ← hshown]
      rfl
    obtain ⟨added, hadded⟩ : ∃ added, added = ({ room with
        membersById := update room.membersById id (some member)
        slotPositions := update room.slotPositions slot (some id) } : ProtocolRoomState) := ⟨_, rfl⟩
    have hnext : (if (added.memberByPlayerId added.roomMaster).isNone then { added with roomMaster := id.val } else added) = next := by
      rw [hadded]
      exact Option.some.inj hadd
    have harrangement : ∀ master, ({ added with roomMaster := master } : ProtocolRoomState).arrangement =
        { room.arrangement with
          humans := update room.arrangement.humans id (some member.seat)
          slots := update room.arrangement.slots slot (some id)
          master := master } := by
      intro master
      rw [hadded]
      unfold arrangement
      simp only [Arrangement.mk.injEq, true_and]
      exact ⟨humans_update room.membersById id (some member), rfl, trivial⟩
    have hsound : ∀ master, ({ added with roomMaster := master } : ProtocolRoomState).arrangement.Occupied master →
        ({ added with roomMaster := master } : ProtocolRoomState).arrangement.Sound := by
      intro master hmaster
      have hled : ({ added with roomMaster := master } : ProtocolRoomState).arrangement.Led := fun _ => .inl hmaster
      rw [harrangement] at hled ⊢
      have hrank : member.seat.ranking = (room.members.map Prod.fst).length := by
        rw [hseat, List.length_map]
      refine ⟨h.seated hvacant hfree (by rw [hseat]; exact hnew) (by rw [hseat]; exact hside) (by rw [hseat]) master, ?_, hled⟩
      exact h.grid.push hnone (nodup_occupied room.membersById) (fun i => mem_memberIds) hrank
    rw [← hnext]
    split
    · refine hsound id.val (.inl ⟨id, rfl, ?_⟩)
      rw [harrangement]
      dsimp only
      rw [update_self]
      rfl
    · rename_i hleads
      have hoccupied : added.arrangement.Occupied added.roomMaster := by
        rw [occupied_iff, Option.isSome_iff_ne_none]
        simpa using hleads
      exact hsound added.roomMaster hoccupied
  · cases hadd

/-- A watcher enters. -/
theorem sound_addObserver {participant : RoomParticipant} (h : room.arrangement.Sound) (hnew : ¬room.arrangement.Holds userNo)
    (hopened : (∃ user, room.arrangement.Holds user) ∨ room.roomMaster = 0) (hshown : participant.player.userNo = userNo.get) (hadd : room.addObserver userNo participant = some next) :
    next.arrangement.Sound := by
  obtain ⟨id, hid, rfl⟩ := Option.map_eq_some_iff.1 hadd
  have hfree : room.observers id = none := by
    have hnone := firstIndex_eq_some hid
    rwa [Option.isNone_iff_eq_none] at hnone
  generalize hmember : (⟨userNo, { participant.player with playerType := 4, team := 0 }, participant.floaterCodes⟩ :
    ProtocolRoomMember) = member
  have hwatcher : member.watcher = (userNo, userNo.get) := by
    rw [← hmember, ← hshown]
    rfl
  generalize hmaster : (if participant.observerMaster then observerPlayerId id else room.roomMaster) = master
  have harrangement : ({ room with
      observers := update room.observers id (some member), roomMaster := master } : ProtocolRoomState).arrangement =
      { room.arrangement with watchers := update room.arrangement.watchers id (some member.watcher), master := master } := by
    unfold arrangement
    simp only [Arrangement.mk.injEq, true_and]
    exact ⟨rfl, watchers_update room.observers id (some member), trivial⟩
  rw [harrangement]
  refine ⟨h.watched (by rw [hwatcher]; exact hnew) (by rw [hwatcher]) master, h.grid, ?_⟩
  intro _
  by_cases hleads : participant.observerMaster = true
  · rw [if_pos hleads] at hmaster
    refine .inl (.inr ⟨id, hmaster.symm, ?_⟩)
    dsimp only
    rw [update_self]
    rfl
  · rw [if_neg hleads] at hmaster
    obtain rfl : master = room.arrangement.master := hmaster.symm
    rcases hopened with hsomebody | hzero
    · rcases h.led hsomebody with (⟨i, hi, hsome⟩ | ⟨i, hi, hsome⟩) | hplaceholder
      · exact .inl (.inl ⟨i, hi, hsome⟩)
      · exact .inl (.inr ⟨i, hi, isSome_update.2 (.inr hsome)⟩)
      · exact .inr hplaceholder
    · by_cases hhuman : ∀ i, room.arrangement.humans i = none
      · exact .inr ⟨hhuman, hzero⟩
      · obtain ⟨i, hi⟩ := not_forall.1 hhuman
        obtain ⟨seat, hseat⟩ := Option.ne_none_iff_exists'.1 hi
        rcases h.led ⟨seat.userNo, .inl ⟨i, seat, hseat, rfl⟩⟩ with (⟨j, hj, hsome⟩ | ⟨j, hj, hsome⟩) | ⟨hnone, -⟩
        · exact .inl (.inl ⟨j, hj, hsome⟩)
        · exact .inl (.inr ⟨j, hj, isSome_update.2 (.inr hsome)⟩)
        · exact absurd (hnone i) hi

/-- A participant enters. -/
theorem sound_addParticipant {participant : RoomParticipant} (h : room.arrangement.Sound) (hnew : ¬room.arrangement.Holds userNo)
    (hopened : (∃ user, room.arrangement.Holds user) ∨ room.roomMaster = 0) (hshown : participant.player.userNo = userNo.get)
    (hadd : room.addParticipant userNo participant = some next) : next.arrangement.Sound := by
  unfold addParticipant at hadd
  split at hadd
  · exact sound_addObserver h hnew hopened hshown hadd
  · exact sound_addRacer h hnew hshown hadd

/-! ## Leaving -/

/-- A room whose humans say the same but for their places. -/
theorem sameHumans_rankBy (room : ProtocolRoomState) (order : List MemberId) :
    SameHumans room.arrangement.humans (room.rankBy order).arrangement.humans := by
  intro id
  unfold arrangement rankBy
  dsimp only
  rw [Option.map_map, Option.map_map, Option.map_map]
  refine congrArg (fun g => Option.map g (room.membersById id)) (funext fun member => ?_)
  unfold comp
  dsimp only
  split
  · rfl
  · rfl

/-- The humans are put on the grid in an order. -/
theorem onGrid_rankBy (room : ProtocolRoomState) {order : List MemberId} (hnodup : order.Nodup)
    (hall : ∀ id, id ∈ order ↔ (room.membersById id).isSome) : OnGrid (room.rankBy order).arrangement.humans := by
  refine ⟨order, hnodup, fun id => ?_, fun id seat hseat => ?_⟩
  · rw [hall, (sameHumans_rankBy room order).isSome]
    unfold arrangement
    dsimp only
    rw [Option.isSome_map]
  · unfold arrangement rankBy at hseat
    dsimp only at hseat
    rw [Option.map_map] at hseat
    obtain ⟨member, hmember, rfl⟩ := Option.map_eq_some_iff.1 hseat
    have hmem : id ∈ order := (hall id).2 (by rw [hmember]; rfl)
    unfold comp
    dsimp only
    rw [if_pos hmem]
    rfl

/-- Closing the gap in the places puts the humans on the grid. -/
theorem onGrid_closeRankings (room : ProtocolRoomState) : OnGrid room.closeRankings.arrangement.humans := by
  have hids : (room.members.map (fun entry => (entry.2.player.ranking, entry.1))).map Prod.snd = room.members.map Prod.fst := by
    rw [List.map_map]
    rfl
  have hperm : (inOrder (room.members.map (fun entry => (entry.2.player.ranking, entry.1)))).Perm (room.members.map Prod.fst) := by
    rw [inOrder_eq, ← hids]
    exact (Ranked.perm (fun entry => (toLex entry : ℤ ×ₗ MemberId)) _).map Prod.snd
  refine onGrid_rankBy room (hperm.nodup_iff.2 (nodup_occupied room.membersById)) fun id => ?_
  rw [hperm.mem_iff, mem_memberIds]
  unfold arrangement
  dsimp only
  rw [Option.isSome_map]

/-- The first racer leads, else the first watcher. -/
theorem led_assignNextRoomMaster (room : ProtocolRoomState) : room.assignNextRoomMaster.arrangement.Led ∧
    ∃ master, room.assignNextRoomMaster.arrangement = { room.arrangement with master := master } := by
  unfold assignNextRoomMaster
  split
  · rename_i id hid
    have hsome := firstIndex_eq_some hid
    have harrangement : ({ room.setPlayerType id PlayerSlotState.notReady.wire with roomMaster := id.val } :
        ProtocolRoomState).arrangement = { room.arrangement with master := (id.val : Int) } := by
      rw [← arrangement_setPlayerType room id PlayerSlotState.notReady.wire]
      rfl
    rw [harrangement]
    refine ⟨fun _ => .inl (.inl ⟨id, rfl, ?_⟩), _, rfl⟩
    unfold arrangement
    dsimp only
    rw [Option.isSome_map]
    exact hsome
  · rename_i hhumans
    have hnone : ∀ id, room.membersById id = none := by
      intro id
      have hid := firstIndex_eq_none.1 hhumans id
      rwa [Option.isSome_eq_false_iff, Option.isNone_iff_eq_none] at hid
    split
    · rename_i id hid
      have hsome := firstIndex_eq_some hid
      have harrangement : ({ room with
          observers := update room.observers id ((room.observers id).map (fun observer =>
            { observer with player := { observer.player with playerType := PlayerSlotState.observer.wire } }))
          roomMaster := observerPlayerId id } : ProtocolRoomState).arrangement =
          { room.arrangement with master := observerPlayerId id } := by
        rw [← arrangement_updateObserver room id (f := fun observer =>
          { observer with player := { observer.player with playerType := PlayerSlotState.observer.wire } }) fun _ => rfl]
        rfl
      rw [harrangement]
      refine ⟨fun _ => .inl (.inr ⟨id, rfl, ?_⟩), _, rfl⟩
      unfold arrangement
      dsimp only
      rw [Option.isSome_map]
      exact hsome
    · rename_i hwatchers
      refine ⟨?_, -1, rfl⟩
      rintro ⟨user, hholds⟩
      rcases holds_iff.1 hholds with ⟨id, member, hmember, -⟩ | ⟨id, member, hmember, -⟩
      · exact absurd (hmember.symm.trans (hnone id)) (by simp)
      · have hid := firstIndex_eq_none.1 hwatchers id
        rw [Option.isSome_eq_false_iff, Option.isNone_iff_eq_none] at hid
        exact absurd (hmember.symm.trans hid) (by simp)

/-- A racer has a slot. -/
theorem exists_slotOf (h : room.arrangement.Seated) (id : MemberId) (hid : room.vacant id = false) :
    ∃ slot, room.slotOf id = some slot ∧ room.slotPositions slot = some id := by
  obtain ⟨slot, hslot⟩ := h.placed.total id (taken_iff.2 hid)
  have hfound : room.slotPositions slot = some id := hslot
  obtain ⟨slot', hslot'⟩ := firstIndex_isSome (p := fun slot => room.slotPositions slot = some id) (i := slot) (by simpa using hfound)
  exact ⟨slot', hslot', of_decide_eq_true (firstIndex_eq_some hslot')⟩

/-- A watcher leaves. -/
theorem sound_withoutObserver (h : room.arrangement.Sound) (id : ObserverId) :
    (if room.roomMaster = observerPlayerId id then
        ({ room with observers := update room.observers id none } : ProtocolRoomState).assignNextRoomMaster
      else { room with observers := update room.observers id none }).arrangement.Sound := by
  have harrangement : ({ room with observers := update room.observers id none } : ProtocolRoomState).arrangement =
      { room.arrangement with watchers := update room.arrangement.watchers id none } := by
    unfold arrangement
    simp only [Arrangement.mk.injEq, true_and]
    exact ⟨rfl, watchers_update room.observers id none, trivial⟩
  split
  · obtain ⟨hled, master, hmaster⟩ :=
      led_assignNextRoomMaster { room with observers := update room.observers id none }
    rw [harrangement] at hmaster
    rw [hmaster] at hled ⊢
    exact ⟨h.unwatched id master, h.grid, hled⟩
  · rename_i hother
    rw [harrangement]
    refine ⟨h.unwatched id room.roomMaster, h.grid, ?_⟩
    rintro ⟨user, hholds⟩
    have hholds' : room.arrangement.Holds user := by
      rcases hholds with hhuman | ⟨i, watcher, hwatcher, huser⟩
      · exact .inl hhuman
      · rcases update_cases hwatcher with ⟨-, hnone⟩ | ⟨-, hold⟩
        · cases hnone
        · exact .inr ⟨i, watcher, hold, huser⟩
    rcases h.led ⟨user, hholds'⟩ with (hhuman | ⟨i, hi, hsome⟩) | hplaceholder
    · exact .inl (.inl hhuman)
    · refine .inl (.inr ⟨i, hi, isSome_update_none.2 ⟨hsome, ?_⟩⟩)
      rintro rfl
      exact hother hi
    · exact .inr hplaceholder

/-- A racer leaves. -/
theorem sound_withoutMember (h : room.arrangement.Sound) {member : ProtocolRoomMember} (hid : room.membersById id = some member)
    (hslot : room.slotPositions slot = some id) :
    (if room.roomMaster = id.val then
        ({ room with
          membersById := update room.membersById id none
          slotPositions := update room.slotPositions slot none } : ProtocolRoomState).assignNextRoomMaster
      else { room with
        membersById := update room.membersById id none
        slotPositions := update room.slotPositions slot none }).closeRankings.arrangement.Sound := by
  have harrangement : ({ room with
      membersById := update room.membersById id none
      slotPositions := update room.slotPositions slot none } : ProtocolRoomState).arrangement =
      { room.arrangement with
        humans := update room.arrangement.humans id none
        slots := update room.arrangement.slots slot none } := by
    unfold arrangement
    simp only [Arrangement.mk.injEq, true_and]
    exact ⟨humans_update room.membersById id none, rfl, trivial⟩
  have hseat : room.arrangement.humans id = some member.seat := by
    unfold arrangement
    dsimp only
    rw [hid]
    rfl
  have hslot' : room.arrangement.slots slot = some id := hslot
  have hclose : ∀ left : ProtocolRoomState, left.arrangement.Seated → left.arrangement.Led → left.closeRankings.arrangement.Sound := by
    intro left hseated hled
    refine ⟨?_, onGrid_closeRankings left, ?_⟩
    · exact hseated.regraded (sameHumans_rankBy left _) left.arrangement.master
    · exact hled.regraded (sameHumans_rankBy left _)
  split
  · obtain ⟨hled, master, hmaster⟩ := led_assignNextRoomMaster { room with
      membersById := update room.membersById id none
      slotPositions := update room.slotPositions slot none }
    rw [harrangement] at hmaster
    refine hclose _ ?_ hled
    rw [hmaster]
    exact h.unseated hseat hslot' master
  · rename_i hother
    refine hclose _ ?_ ?_
    · rw [harrangement]
      exact h.unseated hseat hslot' room.roomMaster
    · rw [harrangement]
      rintro ⟨user, hholds⟩
      have hholds' : room.arrangement.Holds user := by
        rcases hholds with ⟨i, seat, hold, huser⟩ | hwatcher
        · rcases update_cases hold with ⟨-, hnone⟩ | ⟨-, hold⟩
          · cases hnone
          · exact .inl ⟨i, seat, hold, huser⟩
        · exact .inr hwatcher
      rcases h.led ⟨user, hholds'⟩ with (⟨i, hi, hsome⟩ | hwatcher) | ⟨hnone, -⟩
      · refine .inl (.inl ⟨i, hi, isSome_update_none.2 ⟨hsome, ?_⟩⟩)
        rintro rfl
        exact hother hi
      · exact .inl (.inr hwatcher)
      · rw [hnone] at hseat
        cases hseat

/-- A user leaves. -/
theorem sound_removeUser (h : room.arrangement.Sound) (hremoved : room.removeUser userNo = some next) : next.arrangement.Sound := by
  unfold removeUser at hremoved
  split at hremoved
  · rename_i id _
    obtain rfl := Option.some.inj hremoved
    exact sound_withoutObserver h id
  · split at hremoved
    · cases hremoved
    · rename_i id hid
      obtain ⟨member, hmember, -⟩ := memberId_eq_some hid
      obtain ⟨slot, hslot, hposition⟩ := exists_slotOf h.toSeated id (by
        unfold vacant
        rw [hmember]
        rfl)
      have hfirst : firstIndex (fun slot => room.slotPositions slot = some id) = some slot := hslot
      dsimp only at hremoved
      rw [hfirst] at hremoved
      obtain rfl := Option.some.inj hremoved
      exact sound_withoutMember h hmember hposition

/-! ## Teams and masters -/

/-- A racer changes its team. -/
theorem sound_moveToTeam {current target : SlotIndex} {team : RoomTeam} {member : ProtocolRoomMember} (h : room.arrangement.Sound)
    (hmode : room.settings.teamMode = true) (hid : room.membersById id = some member) (hcurrent : room.slotOf id = some current)
    (hmove : room.moveToTeam id current team = some (next, target)) : next.arrangement.Sound := by
  unfold moveToTeam at hmove
  split at hmove
  · obtain ⟨rfl, -⟩ := Prod.mk.inj (Option.some.inj hmove)
    exact h
  · obtain ⟨slot, hslot, hpair⟩ := Option.map_eq_some_iff.1 hmove
    obtain ⟨rfl, rfl⟩ := Prod.mk.inj hpair
    have hposition : room.arrangement.slots current = some id := of_decide_eq_true (firstIndex_eq_some hcurrent)
    obtain ⟨hfree, hside⟩ := freeSlot_eq_some hslot
    have hteam : team.wire = 1 ∨ team.wire = 2 := by
      cases team with
      | red => exact .inl rfl
      | blue => exact .inr rfl
    have hseat : room.arrangement.humans id = some member.seat := by
      unfold arrangement
      dsimp only
      rw [hid]
      rfl
    have harrangement : ({ room.setTeam id team.wire PlayerSlotState.notReady.wire with
        slotPositions := update (update room.slotPositions current none) slot (some id) } :
          ProtocolRoomState).arrangement =
        { room.arrangement with
          humans := update room.arrangement.humans id (some { member.seat with team := team.wire })
          slots := update (update room.arrangement.slots current none) slot (some id) } := by
      unfold arrangement setTeam
      simp only [Arrangement.mk.injEq, true_and]
      refine ⟨funext fun i => ?_, rfl, trivial⟩
      rw [Option.map_map, update_apply]
      split
      · rename_i hi
        rw [hi, hid, Option.map_some]
        rfl
      · rfl
    have hmode' : room.arrangement.teamMode = true := hmode
    rw [harrangement]
    refine ⟨h.moved hseat hposition hfree ?_, ?_, ?_⟩
    · rw [hmode']
      exact sides_of_teamSlot hteam hside
    · refine h.grid.of_rankings fun i => ?_
      dsimp only
      rw [update_apply]
      split
      · rename_i hi
        rw [hi, hseat]
        rfl
      · rfl
    · rintro ⟨user, hholds⟩
      have hholds' : room.arrangement.Holds user := by
        rcases hholds with ⟨i, seat, hold, huser⟩ | hwatcher
        · rcases update_cases hold with ⟨rfl, heq⟩ | ⟨-, hold⟩
          · obtain rfl := Option.some.inj heq
            exact .inl ⟨i, member.seat, hseat, huser⟩
          · exact .inl ⟨i, seat, hold, huser⟩
        · exact .inr hwatcher
      rcases h.led ⟨user, hholds'⟩ with (⟨i, hi, hsome⟩ | hwatcher) | ⟨hnone, -⟩
      · exact .inl (.inl ⟨i, hi, isSome_update.2 (.inr hsome)⟩)
      · exact .inl (.inr hwatcher)
      · rw [hnone] at hseat
        cases hseat

/-- A human becomes the master. -/
theorem sound_crowned (h : room.arrangement.Sound) {playerId : Int} (hplayer : (room.memberByPlayerId playerId).isSome) :
    ({ room with roomMaster := playerId } : ProtocolRoomState).arrangement.Sound where
  toSeated := h.toSeated.regraded (fun _ => rfl) playerId
  grid := h.grid
  led := fun _ => .inl (occupied_iff.2 hplayer)

/-! ## AIs and closed slots -/

/-- The AIs of a room with another one, or without it. -/
theorem aiTeams_update (aisById : MemberId → Option RoomAi) (id : MemberId) (ai : Option RoomAi) :
    (fun i => (update aisById id ai i).map (fun ai : RoomAi => ai.team)) =
      update (fun i => (aisById i).map (fun ai : RoomAi => ai.team)) id (ai.map (·.team)) :=
  comp_update (Option.map (fun ai : RoomAi => ai.team)) aisById id ai

/-- An AI is removed. -/
theorem sound_removeAi {ε : Type} {playerId : Nat} {removed : Int} (h : room.arrangement.Sound)
    (hremove : (room.removeAi playerId : Except (Fault ε) _) = .ok (some (removed, next))) : next.arrangement.Sound := by
  unfold removeAi at hremove
  split at hremove
  · rename_i hlt
    dsimp only at hremove
    split at hremove
    · cases hremove
    · rename_i ai hai
      split at hremove
      · cases hremove
      · rename_i slot hslot
        obtain ⟨-, rfl⟩ := Prod.mk.inj (Option.some.inj (Except.ok.inj hremove))
        have hposition : room.arrangement.slots slot = some ⟨playerId, hlt⟩ := of_decide_eq_true (firstIndex_eq_some hslot)
        have hsome : (room.arrangement.ais ⟨playerId, hlt⟩).isSome := by
          unfold arrangement aiTeams
          dsimp only
          rw [hai]
          rfl
        have hseated := h.aiUnseated hsome hposition
        have harrangement : ({ room with
            aisById := update room.aisById ⟨playerId, hlt⟩ none
            slotPositions := update room.slotPositions slot none } : ProtocolRoomState).arrangement =
            { room.arrangement with
              ais := update room.arrangement.ais ⟨playerId, hlt⟩ none
              slots := update room.arrangement.slots slot none } := by
          unfold arrangement
          simp only [Arrangement.mk.injEq, true_and]
          exact ⟨aiTeams_update room.aisById _ none, trivial⟩
        rw [harrangement]
        exact ⟨hseated, h.grid, h.led⟩
  · cases hremove

/-- The slot of an AI is always found. -/
theorem removeAi_ok {ε : Type} (h : room.arrangement.Seated) (playerId : Nat) :
    ∃ removed, (room.removeAi playerId : Except (Fault ε) _) = .ok removed := by
  unfold removeAi
  split
  · rename_i hlt
    dsimp only
    split
    · exact ⟨none, rfl⟩
    · rename_i ai hai
      obtain ⟨slot, hslot, -⟩ := exists_slotOf h ⟨playerId, hlt⟩ (by
        unfold vacant
        rw [hai, Option.isNone_some, Bool.and_false, Bool.false_and])
      have hfirst : firstIndex (fun slot => room.slotPositions slot = some ⟨playerId, hlt⟩) = some slot := hslot
      rw [hfirst]
      exact ⟨_, rfl⟩
  · exact ⟨none, rfl⟩

/-- An AI is added. -/
theorem sound_addBasicAi {team : Nat} {ai : RoomAi} {added : Int × RoomAi} (h : room.arrangement.Sound)
    (hside : ∀ slot, teamSlot team slot = true → Sides room.settings.teamMode team slot)
    (hadd : room.addBasicAi team ai = some (added, next)) : next.arrangement.Sound ∧ next.settings = room.settings := by
  unfold addBasicAi at hadd
  split at hadd
  · cases hadd
  · rename_i id hid
    split at hadd
    · cases hadd
    · rename_i slot hslot
      obtain ⟨-, rfl⟩ := Prod.mk.inj (Option.some.inj hadd)
      obtain ⟨hfree, hteam⟩ := freeSlot_eq_some hslot
      have hseated := h.aiSeated (not_taken_iff.2 (firstIndex_eq_some hid)) hfree (hside slot hteam)
      have harrangement : ({ room with
          aisById := update room.aisById id (some { ai with team := team })
          slotPositions := update room.slotPositions slot (some id) } : ProtocolRoomState).arrangement =
          { room.arrangement with
            ais := update room.arrangement.ais id (some team)
            slots := update room.arrangement.slots slot (some id) } := by
        unfold arrangement
        simp only [Arrangement.mk.injEq, true_and]
        exact ⟨aiTeams_update room.aisById id _, trivial⟩
      rw [harrangement]
      exact ⟨⟨hseated, h.grid, h.led⟩, rfl⟩

/-- AIs are added. -/
theorem sound_addBasicAis {first second : RoomAi} {added : List (Int × RoomAi)} (h : room.arrangement.Sound)
    (hadd : room.addBasicAis first second = some (added, next)) : next.arrangement.Sound := by
  unfold addBasicAis at hadd
  split at hadd
  · rename_i hmode
    split at hadd
    · cases hadd
    · rename_i blue middle hblue
      split at hadd
      · cases hadd
      · rename_i red last hred
        obtain ⟨-, rfl⟩ := Prod.mk.inj (Option.some.inj hadd)
        obtain ⟨hmiddle, hsettings⟩ := sound_addBasicAi h (fun slot hslot => by
          rw [hmode]
          exact sides_of_teamSlot (.inr rfl) hslot) hblue
        refine (sound_addBasicAi hmiddle (fun slot hslot => ?_) hred).1
        rw [hsettings, hmode]
        exact sides_of_teamSlot (.inl rfl) hslot
  · rename_i hmode
    obtain ⟨⟨one, last⟩, hone, hpair⟩ := Option.map_eq_some_iff.1 hadd
    obtain ⟨-, rfl⟩ := Prod.mk.inj hpair
    refine (sound_addBasicAi h (fun slot _ => ?_) hone).1
    unfold Sides
    rw [if_neg hmode]

/-- A pair is closed or opened. -/
theorem sound_setClosed {operation : CloseSlotOperation} {pair : MemberId × SlotIndex} (h : room.arrangement.Sound)
    (hmay : room.mayClose operation pair = true) : (room.setClosed operation pair).arrangement.Sound := by
  unfold mayClose at hmay
  unfold setClosed
  split
  · rename_i hclose
    rw [if_pos hclose, Bool.and_eq_true, Option.isNone_iff_eq_none] at hmay
    exact ⟨h.closedUp (not_taken_iff.2 hmay.1) hmay.2, h.grid, h.led⟩
  · rename_i hopen
    rw [if_neg hopen, Bool.and_eq_true, decide_eq_true_eq] at hmay
    exact ⟨h.reopened hmay.1, h.grid, h.led⟩

/-- A pair may still be closed or opened after another one was. -/
theorem mayClose_setClosed {operation : CloseSlotOperation} {pair other : MemberId × SlotIndex} (hid : pair.1 ≠ other.1)
    (hslot : pair.2 ≠ other.2) : (room.setClosed operation other).mayClose operation pair = room.mayClose operation pair := by
  unfold mayClose setClosed vacant
  split
  · simp only [update_of_ne hid, update_of_ne hslot]
  · simp only [update_of_ne hid, update_of_ne hslot]

/-- Slots are closed or opened. -/
theorem sound_setCloseSlots {request : CloseSlotRequest} (h : room.arrangement.Sound)
    (hset : room.setCloseSlots request = some next) : next.arrangement.Sound := by
  unfold setCloseSlots at hset
  split at hset
  · cases hset
  · rename_i pairs hpairs
    split at hset
    · rename_i hall
      obtain rfl := Option.some.inj hset
      rw [List.all_eq_true] at hall
      unfold closePairs at hpairs
      split at hpairs
      · cases hpairs
      · rename_i first _
        split at hpairs
        · split at hpairs
          · cases hpairs
          · rename_i second _
            split at hpairs
            · cases hpairs
            · rename_i hapart
              obtain rfl := Option.some.inj hpairs
              rw [not_or] at hapart
              have hfirst := sound_setClosed h (hall first (by simp))
              refine sound_setClosed hfirst ?_
              rw [mayClose_setClosed (Ne.symm hapart.1) (Ne.symm hapart.2)]
              exact hall second (by simp)
        · obtain rfl := Option.some.inj hpairs
          exact sound_setClosed h (hall first (by simp))
    · cases hset

/-! ## The lobby after a race -/

theorem arrangement_backToLobby (room : ProtocolRoomState) : room.backToLobby.arrangement = room.arrangement :=
  arrangement_mapMembers room (f := fun _ member =>
    { member with player := { member.player with playerType := PlayerSlotState.notReady.wire } }) fun _ _ => rfl

/-- The master of the next lobby is a human who is there. -/
theorem seated_of_nextLobbyMaster {ranking : SettlementRanking} {master : Int} (h : room.nextLobbyMaster ranking = some master) :
    ∃ id : MemberId, master = id.val ∧ (room.membersById id).isSome := by
  rw [nextLobbyMaster_eq] at h
  obtain ⟨entry, hhead, rfl⟩ := Option.map_eq_some_iff.1 h
  obtain ⟨id, result, heligible, -, rfl⟩ := mem_leaders.1 (Ranked.head_le _ hhead).1
  exact ⟨id, rfl, heligible.1⟩

/-- The lobby that follows on a race in which everybody who is still there has a result. -/
theorem sound_nextLobby {ranking : SettlementRanking} (h : room.arrangement.Sound)
    (hseated : ∀ id, (room.membersById id).isSome → (ranking.byPlayerId.lookup (id.val : Int)).isSome) :
    (room.nextLobby ranking).arrangement.Sound := by
  have hgrid : (room.applyNextGridRanking ranking).arrangement.Sound := by
    refine ⟨?_, ?_, ?_⟩
    · exact h.toSeated.regraded (sameHumans_rankBy room _) room.arrangement.master
    · exact onGrid_rankBy room ((perm_grid hseated).nodup_iff.2 (nodup_occupied room.membersById)) fun id => mem_grid hseated
    · exact h.led.regraded (sameHumans_rankBy room _)
  unfold nextLobby
  rw [arrangement_backToLobby]
  unfold applyNextLobbyMaster
  split
  · exact hgrid
  · split
    · rename_i master hmaster
      obtain ⟨id, rfl, hid⟩ := seated_of_nextLobbyMaster hmaster
      refine sound_crowned hgrid (occupied_iff.1 (.inl ⟨id, rfl, ?_⟩))
      unfold arrangement
      dsimp only
      rw [Option.isSome_map]
      exact hid
    · exact hgrid

/-! ## What the agreement is good for -/

/-- A slot is free when a member id is. -/
theorem exists_freeSlot (h : room.arrangement.Seated) (hid : room.vacant id = true) : ∃ slot, room.slotPositions slot = none :=
  h.placed.exists_free (by rfl) (not_taken_iff.2 hid)

/-- A racer is let in exactly when a member id is free. -/
theorem addRacer_isSome_iff (h : room.arrangement.Seated) (userNo : UserNo) (participant : RoomParticipant) :
    (room.addRacer userNo participant).isSome ↔ ∃ id, room.vacant id = true := by
  constructor
  · intro hsome
    unfold addRacer at hsome
    split at hsome
    · rename_i id slot team hid _
      exact ⟨id, firstIndex_eq_some hid⟩
    · cases hsome
  · rintro ⟨id, hid⟩
    obtain ⟨slot, hslot⟩ := exists_freeSlot h hid
    obtain ⟨vacant, hvacant⟩ := firstIndex_isSome hid
    have hadmission : room.admissionSlotAndTeam.isSome := by
      have hteams : ∀ team, teamSlot team slot = true → (room.freeSlot team).isSome := by
        intro team hteam
        refine Option.isSome_iff_exists.2 (firstIndex_isSome (i := slot) ?_)
        rw [hteam, hslot]
        rfl
      unfold admissionSlotAndTeam
      split
      · rw [Option.isSome_map]
        exact hteams 0 (by simp [teamSlot])
      · dsimp only
        split
        · rfl
        · rename_i hpreferred
          rw [Option.isSome_map]
          refine hteams _ ?_
          -- the slot is on the side of the other team, as the preferred one has none
          have hnot : ¬teamSlot (if room.teamCount 2 ≤ room.teamCount 1 then 2 else 1) slot = true := by
            intro hteam
            have hsome := hteams _ hteam
            rw [hpreferred] at hsome
            cases hsome
          revert hnot
          split <;> simp [teamSlot]
    obtain ⟨⟨place, team⟩, hplace⟩ := Option.isSome_iff_exists.1 hadmission
    have hmember : room.vacantMemberId = some vacant := hvacant
    unfold addRacer
    rw [hmember, hplace]
    rfl

end ProtocolRoomState

end P5136
