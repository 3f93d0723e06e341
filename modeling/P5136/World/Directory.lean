import P5136.Room.Places
import P5136.World.NextLobbies
import P5136.World.RunStirs

/-!
# Who is in which room

The world keeps its rooms under their ids, an index that says in which room a user is, and the ids that may be used again. They
agree at every point of a run: the index lists exactly who has a place in a room, so nobody is in two of them, the tables of every
room agree, a room that races not yet or no more is not empty, and an id that may be used again is that of no room.
-/

namespace P5136

namespace ProtocolRoomState

theorem rest_setFinalization (room : ProtocolRoomState) (finalization : SettlementFinalization) :
    (room.setFinalization finalization).arrangement = room.arrangement ∧ (room.setFinalization finalization).id = room.id ∧
      (room.setFinalization finalization).phase = room.phase := ⟨rfl, rfl, rfl⟩

theorem rest_retainAsDeadLetter (room : ProtocolRoomState) (reason : RewardTerminalReason) (userNo : Option UserNo)
    (nickname : Option String) : (room.retainAsDeadLetter reason userNo nickname).arrangement = room.arrangement ∧
      (room.retainAsDeadLetter reason userNo nickname).id = room.id ∧
      (room.retainAsDeadLetter reason userNo nickname).phase = room.phase := by
  unfold retainAsDeadLetter
  split
  · exact rest_setFinalization room _
  · exact ⟨rfl, rfl, rfl⟩

end ProtocolRoomState

/-! ## Edits -/

namespace Edit

variable {calm : Bool}

/-- An edit leaves the tables of a room in agreement. -/
theorem sound (h : Edit calm room next) (hsound : room.arrangement.Sound) : next.arrangement.Sound := by
  cases h with
  | dressed hdressed => rw [hdressed.arrangement]; exact hsound
  | retold _ htype _ =>
    have hmode : ∀ settings : RoomSettings, settings.gameType = room.settings.gameType →
        ({ room with settings := settings } : ProtocolRoomState).arrangement = room.arrangement := by
      intro settings hsame
      unfold ProtocolRoomState.arrangement RoomSettings.teamMode
      dsimp only
      rw [hsame]
      rfl
    rw [hmode _ htype]
    exact hsound
  | moved _ hmode hmember hcurrent hmove => exact ProtocolRoomState.sound_moveToTeam hsound hmode hmember hcurrent hmove
  | @crowned _ _ id _ hmember =>
    refine ProtocolRoomState.sound_crowned hsound (ProtocolRoomState.occupied_iff.1 (.inl ⟨id, rfl, ?_⟩))
    change ((room.membersById id).map _).isSome
    rwa [Option.isSome_map]
  | aisAdded _ hadd => exact ProtocolRoomState.sound_addBasicAis hsound hadd
  | aiRemoved _ hremove => exact ProtocolRoomState.sound_removeAi hsound hremove
  | slotsSet _ hset => exact ProtocolRoomState.sound_setCloseSlots hsound hset
  | failed reason userNo nickname => rw [(ProtocolRoomState.rest_retainAsDeadLetter room reason userNo nickname).1]; exact hsound
  | orphaned _ _ _ =>
    rw [(ProtocolRoomState.rest_retainAsDeadLetter _ _ _ _).1]
    exact hsound
  | _ => exact hsound

/-- An edit keeps who is in a room, and its id. -/
theorem rest (h : Edit calm room next) : (∀ user, next.arrangement.Holds user ↔ room.arrangement.Holds user) ∧ next.id = room.id := by
  have hrearranged : ProtocolRoomState.Rearranged room next →
      (∀ user, next.arrangement.Holds user ↔ room.arrangement.Holds user) ∧ next.id = room.id :=
    fun h => ⟨fun _ => h.holds, congrArg Prod.fst h.race⟩
  cases h with
  | dressed hdressed =>
    refine ⟨fun _ => by rw [hdressed.arrangement], ?_⟩
    rw [hdressed.rest]
  | moved _ _ _ _ hmove => exact hrearranged (ProtocolRoomState.rearranged_moveToTeam hmove)
  | aisAdded _ hadd => exact hrearranged (ProtocolRoomState.rearranged_addBasicAis hadd)
  | aiRemoved _ hremove => exact hrearranged (ProtocolRoomState.rearranged_removeAi hremove)
  | slotsSet _ hset => exact hrearranged (ProtocolRoomState.rearranged_setCloseSlots hset)
  | failed reason userNo nickname =>
    obtain ⟨harrangement, hid, -⟩ := ProtocolRoomState.rest_retainAsDeadLetter room reason userNo nickname
    exact ⟨fun _ => by rw [harrangement], hid⟩
  | orphaned _ _ _ =>
    obtain ⟨harrangement, hid, -⟩ := ProtocolRoomState.rest_retainAsDeadLetter (room.setFinalization _) _ _ _
    exact ⟨fun _ => by rw [harrangement]; rfl, hid⟩
  | _ => exact ⟨fun _ => Iff.rfl, rfl⟩

/-- The phase of an edited room: that of before, or that of a race that begins to run. -/
theorem phase (h : Edit calm room next) : next.phase = room.phase ∨ room.phase = .loading ∧ next.phase = .running := by
  have hrearranged : ProtocolRoomState.Rearranged room next → next.phase = room.phase :=
    fun h => congrArg (fun race => race.2.1) h.race
  cases h with
  | dressed hdressed => exact .inl (by rw [hdressed.rest])
  | moved _ _ _ _ hmove => exact .inl (hrearranged (ProtocolRoomState.rearranged_moveToTeam hmove))
  | aisAdded _ hadd => exact .inl (hrearranged (ProtocolRoomState.rearranged_addBasicAis hadd))
  | aiRemoved _ hremove => exact .inl (hrearranged (ProtocolRoomState.rearranged_removeAi hremove))
  | slotsSet _ hset => exact .inl (hrearranged (ProtocolRoomState.rearranged_setCloseSlots hset))
  | began hphase _ => exact .inr ⟨hphase, rfl⟩
  | failed reason userNo nickname => exact .inl (ProtocolRoomState.rest_retainAsDeadLetter room reason userNo nickname).2.2
  | orphaned _ _ _ => exact .inl (ProtocolRoomState.rest_retainAsDeadLetter (room.setFinalization _) _ _ _).2.2
  | _ => exact .inl rfl

end Edit

namespace World

variable {calm : Bool} {w w' : World} {roomId : RoomId}

/-! ## The directory -/

/-- A room that races not yet or no more has somebody in it. -/
def Populated (room : ProtocolRoomState) : Prop :=
  room.phase = .lobby ∨ room.phase = .loading → ∃ userNo, room.arrangement.Holds userNo

/-- A room of the directory. -/
structure Listed (w : World) (roomId : RoomId) (room : ProtocolRoomState) : Prop where
  /-- It is kept under its own id, which has 16 bits and is not zero. -/
  id : room.id = roomId ∧ 0 < roomId.get ∧ roomId.get < 2 ^ 16
  /-- No room of another kind has its id. -/
  apart : roomId ∉ w.rooms
  /-- Its tables agree. -/
  sound : room.arrangement.Sound
  populated : Populated room

/-- The rooms, the index of their users and the ids that may be used again agree. -/
structure Directory (w : World) : Prop where
  rooms : ∀ roomId room, Found roomId room w → Listed w roomId room
  /-- The index says in which room a user is, and nothing else. -/
  members : ∀ userNo roomId, w.protocolRoomByUser.lookup userNo = some roomId ↔
    ∃ room, Found roomId room w ∧ room.arrangement.Holds userNo
  /-- An id that may be used again is that of no room. -/
  free : ∀ id ∈ w.freeProtocolRoomIds, (0 < id ∧ id < 2 ^ 16) ∧ w.roomIdFree id = true

/-- What a directory is made of. -/
def books (w : World) : FiniteMap RoomId ProtocolRoomState × FiniteMap UserNo RoomId × Finset Nat × Finset RoomId :=
  (w.protocolRooms, w.protocolRoomByUser, w.freeProtocolRoomIds, w.rooms)

theorem directory_initial : Directory World.initial where
  rooms := by
    rintro roomId room ⟨⟩
  members := by
    intro userNo roomId
    constructor
    · rintro ⟨⟩
    · rintro ⟨room, ⟨⟩, -⟩
  free := by
    intro id hid
    cases hid

theorem roomIdFree_iff {id : Nat} : w.roomIdFree id = true ↔ (⟨id⟩ : RoomId) ∉ w.rooms ∧ w.protocolRooms.lookup ⟨id⟩ = none := by
  unfold roomIdFree
  rw [Bool.and_eq_true, decide_eq_true_eq, Option.isNone_iff_eq_none]

theorem Directory.of_books (h : Directory w) (hbooks : w'.books = w.books) : Directory w' := by
  simp only [books, Prod.mk.injEq] at hbooks
  obtain ⟨hrooms, hmembers, hfree, hothers⟩ := hbooks
  have hfound : ∀ roomId room, Found roomId room w' ↔ Found roomId room w := by
    intro roomId room
    unfold Found
    rw [hrooms]
  refine ⟨fun roomId room hroom => ?_, fun userNo roomId => ?_, fun id hid => ?_⟩
  · have hlisted := h.rooms roomId room ((hfound roomId room).1 hroom)
    exact ⟨hlisted.id, by rw [hothers]; exact hlisted.apart, hlisted.sound, hlisted.populated⟩
  · rw [hmembers, h.members]
    simp only [hfound]
  · rw [hfree] at hid
    obtain ⟨hrange, hunused⟩ := h.free id hid
    refine ⟨hrange, ?_⟩
    rw [roomIdFree_iff] at hunused ⊢
    rw [hothers, hrooms]
    exact hunused

/-- What is under one id changes, and the index and the free ids with it. -/
theorem Directory.change (h : Directory w) (last : Option ProtocolRoomState) (hothers : w'.rooms = w.rooms)
    (hrooms : ∀ i, w'.protocolRooms.lookup i = if i = roomId then last else w.protocolRooms.lookup i)
    (hlisted : ∀ next, last = some next → Listed w roomId next)
    (hmembers : ∀ user i, w'.protocolRoomByUser.lookup user = some i ↔
      if i = roomId then ∃ next, last = some next ∧ next.arrangement.Holds user else w.protocolRoomByUser.lookup user = some i)
    (hfree : ∀ id ∈ w'.freeProtocolRoomIds, id ∈ w.freeProtocolRoomIds ∧ id ≠ roomId.get ∨
      id = roomId.get ∧ last = none ∧ (0 < id ∧ id < 2 ^ 16) ∧ roomId ∉ w.rooms) : Directory w' := by
  have hfound : ∀ i next, Found i next w' ↔ if i = roomId then last = some next else Found i next w := by
    intro i next
    unfold Found
    rw [hrooms]
    split
    · rfl
    · rfl
  refine ⟨fun i next hnext => ?_, fun user i => ?_, fun id hid => ?_⟩
  · have hkept : Listed w i next := by
      rw [hfound] at hnext
      split at hnext
      · rename_i hi
        exact hi ▸ hlisted next hnext
      · exact h.rooms i next hnext
    exact ⟨hkept.id, by rw [hothers]; exact hkept.apart, hkept.sound, hkept.populated⟩
  · rw [hmembers, h.members]
    simp only [hfound]
    split
    · rfl
    · rfl
  · rw [roomIdFree_iff, hothers, hrooms]
    rcases hfree id hid with ⟨hold, hne⟩ | ⟨rfl, hnone, hrange, hapart⟩
    · obtain ⟨hrange, hunused⟩ := h.free id hold
      rw [roomIdFree_iff] at hunused
      refine ⟨hrange, hunused.1, ?_⟩
      rw [if_neg]
      · exact hunused.2
      · rintro rfl
        exact hne rfl
    · exact ⟨hrange, hapart, by rw [if_pos rfl]; exact hnone⟩

/-- The id of a room is not free. -/
theorem Directory.not_free (h : Directory w) (hfound : Found roomId room w) {id : Nat} (hid : id ∈ w.freeProtocolRoomIds) :
    id ≠ roomId.get := by
  rintro rfl
  have hunused := (roomIdFree_iff.1 (h.free _ hid).2).2
  rw [show w.protocolRooms.lookup ⟨roomId.get⟩ = some room from hfound] at hunused
  cases hunused

/-- A room that changes and keeps its users. -/
theorem Directory.put (h : Directory w) (hfound : Found roomId room w) (hid : next.id = room.id) (hsound : next.arrangement.Sound)
    (hholds : ∀ user, next.arrangement.Holds user ↔ room.arrangement.Holds user) (hpopulated : Populated next) :
    Directory (w.withRoom roomId next) := by
  have hlisted := h.rooms roomId room hfound
  refine h.change (some next) rfl (lookup_withRoom w roomId · next) ?_ ?_ fun id hfree => .inl ⟨hfree, ?_⟩
  · rintro _ ⟨⟩
    exact ⟨⟨hid.trans hlisted.id.1, hlisted.id.2⟩, hlisted.apart, hsound, hpopulated⟩
  · intro user i
    change w.protocolRoomByUser.lookup user = some i ↔ _
    split
    · rename_i hi
      rw [hi, h.members]
      constructor
      · rintro ⟨last, hlast, huser⟩
        obtain rfl := Option.some.inj (hlast.symm.trans hfound)
        exact ⟨next, rfl, (hholds user).2 huser⟩
      · rintro ⟨_, ⟨⟩, huser⟩
        exact ⟨room, hfound, (hholds user).1 huser⟩
    · rfl
  · exact h.not_free hfound hfree

/-- Ids are taken, or go back. -/
theorem Directory.withIds (h : Directory w) {ids : Finset Nat} (nextRoomId : Nat)
    (hids : ∀ id ∈ ids, id ∈ w.freeProtocolRoomIds ∨ w.Spare id) : Directory (w.withIds ids nextRoomId) where
  rooms := by
    intro i room hroom
    have hlisted := h.rooms i room hroom
    exact ⟨hlisted.id, hlisted.apart, hlisted.sound, hlisted.populated⟩
  members := h.members
  free := by
    intro id hid
    rcases hids id hid with hfree | ⟨hunused, hfree | hrange⟩
    · exact h.free id hfree
    · exact h.free id hfree
    · exact ⟨hrange, hunused⟩

/-- Somebody who is in no room enters one, or opens it. -/
theorem Directory.join (h : Directory w) (hlisted : Listed w roomId next) (hnew : w.protocolRoomByUser.lookup userNo = none)
    (hfree : roomId.get ∉ w.freeProtocolRoomIds)
    (hholds : ∀ user, next.arrangement.Holds user ↔ w.protocolRoomByUser.lookup user = some roomId ∨ user = userNo) :
    Directory (w.withMember userNo roomId next) := by
  refine h.change (some next) rfl (lookup_withRoom w roomId · next) ?_ ?_ fun id hid => .inl ⟨hid, ?_⟩
  · rintro _ ⟨⟩
    exact hlisted
  · intro user i
    change AList.lookup user (w.protocolRoomByUser.insert userNo roomId) = some i ↔ _
    rw [FiniteMap.lookup_insert]
    by_cases huser : user = userNo
    · subst huser
      rw [if_pos rfl]
      split
      · rename_i hi
        subst hi
        simp only [true_iff]
        exact ⟨next, rfl, (hholds user).2 (.inr rfl)⟩
      · rename_i hi
        rw [hnew]
        simp only [Option.some.injEq, reduceCtorEq, iff_false]
        exact fun heq => hi heq.symm
    · rw [if_neg huser]
      split
      · rename_i hi
        subst hi
        constructor
        · exact fun hlookup => ⟨next, rfl, (hholds user).2 (.inl hlookup)⟩
        · rintro ⟨_, ⟨⟩, hthere⟩
          exact ((hholds user).1 hthere).resolve_right huser
      · rfl
  · rintro rfl
    exact hfree hid

/-- A room is removed that nobody is in. -/
theorem Directory.removed (h : Directory w) (hfound : Found roomId room w) (hempty : ∀ user, ¬room.arrangement.Holds user) :
    Directory (w.withoutRoom roomId) := by
  have hlisted := h.rooms roomId room hfound
  refine @Directory.change _ _ roomId h none rfl (fun i => ?_) ?_ ?_ fun id hid => ?_
  · change AList.lookup i (w.protocolRooms.erase roomId) = _
    rw [FiniteMap.lookup_erase]
  · rintro _ ⟨⟩
  · intro user i
    change w.protocolRoomByUser.lookup user = some i ↔ _
    split
    · rename_i hi
      subst hi
      rw [h.members]
      constructor
      · rintro ⟨last, hlast, huser⟩
        obtain rfl := Option.some.inj (hlast.symm.trans hfound)
        exact absurd huser (hempty user)
      · rintro ⟨_, ⟨⟩, -⟩
    · rfl
  · rcases Finset.mem_insert.1 hid with rfl | hold
    · exact .inr ⟨rfl, rfl, hlisted.id.2, hlisted.apart⟩
    · exact .inl ⟨hold, h.not_free hfound hold⟩

/-- A room is left: it stays without the user, or is removed when nobody is in it any more. -/
theorem Directory.leave (h : Directory w) (hfound : Found roomId room w) (hremoved : room.removeUser userNo = some next)
    {last : Option ProtocolRoomState}
    (hlast : last = some next ∧ Populated next ∨ last = none ∧ ∀ user, ¬next.arrangement.Holds user) (hothers : w'.rooms = w.rooms)
    (hrooms : ∀ i, w'.protocolRooms.lookup i = if i = roomId then last else w.protocolRooms.lookup i)
    (hindex : w'.protocolRoomByUser = w.protocolRoomByUser.erase userNo)
    (hfree : ∀ id ∈ w'.freeProtocolRoomIds, id ∈ w.freeProtocolRoomIds ∨ last = none ∧ id = roomId.get) : Directory w' := by
  have hlisted := h.rooms roomId room hfound
  have hholds : ∀ user, next.arrangement.Holds user ↔ room.arrangement.Holds user ∧ user ≠ userNo :=
    fun user => ProtocolRoomState.holds_removeUser hlisted.sound.toSeated hremoved
  have hthere : ∀ user, (∃ left, last = some left ∧ left.arrangement.Holds user) ↔ room.arrangement.Holds user ∧ user ≠ userNo := by
    intro user
    rcases hlast with ⟨rfl, -⟩ | ⟨rfl, hempty⟩
    · simp only [Option.some.injEq, exists_eq_left', hholds]
    · simp only [reduceCtorEq, false_and, exists_false, ← hholds, hempty]
  have hindexed : w.protocolRoomByUser.lookup userNo = some roomId :=
    (h.members userNo roomId).2 ⟨room, hfound, ProtocolRoomState.removeUser_isSome_iff.1 (by rw [hremoved]; rfl)⟩
  refine h.change _ hothers hrooms ?_ ?_ fun id hid => ?_
  · rintro left hleft
    rcases hlast with ⟨rfl, hpopulated⟩ | ⟨rfl, -⟩
    · obtain rfl := Option.some.inj hleft
      have hid : next.id = room.id := congrArg Prod.fst (ProtocolRoomState.raceState_removeUser hremoved)
      exact ⟨⟨hid.trans hlisted.id.1, hlisted.id.2⟩, hlisted.apart, ProtocolRoomState.sound_removeUser hlisted.sound hremoved,
        hpopulated⟩
    · cases hleft
  · intro user i
    rw [hindex, FiniteMap.lookup_erase, hthere]
    by_cases huser : user = userNo
    · subst huser
      rw [if_pos rfl]
      simp only [ne_eq, not_true_eq_false, and_false, reduceCtorEq, false_iff, hindexed, Option.some.injEq]
      split
      · exact not_false
      · rename_i hi
        exact fun heq => hi heq.symm
    · rw [if_neg huser]
      simp only [ne_eq, huser, not_false_eq_true, and_true]
      split
      · rename_i hi
        subst hi
        rw [h.members]
        constructor
        · rintro ⟨other, hother, hholdsUser⟩
          obtain rfl := Option.some.inj (hother.symm.trans hfound)
          exact hholdsUser
        · exact fun hholdsUser => ⟨room, hfound, hholdsUser⟩
      · rfl
  · rcases hfree id hid with hold | ⟨hnone, rfl⟩
    · exact .inl ⟨hold, h.not_free hfound hold⟩
    · exact .inr ⟨rfl, hnone, hlisted.id.2, hlisted.apart⟩

/-! ## Changes -/

/-- A room that is not removed is populated. -/
theorem populated_of_kept (hkept : removesRoom room = false) : Populated room := by
  intro hphase
  unfold removesRoom at hkept
  rw [Bool.and_eq_false_iff] at hkept
  rcases hkept with hnot | hnot
  · rw [← Bool.not_eq_true, ProtocolRoomState.isEmpty_iff] at hnot
    push Not at hnot
    exact hnot
  · exact absurd hphase (of_decide_eq_false hnot)

/-- An exit. -/
theorem Directory.afterExit (h : Directory w) (hfound : Found roomId room w) (hremoved : room.removeUser userNo = some next) :
    Directory (w.afterExit userNo roomId next) := by
  unfold World.afterExit
  dsimp only
  split
  · rename_i hremoves
    have hempty : ∀ user, ¬next.arrangement.Holds user := by
      unfold removesRoom at hremoves
      exact ProtocolRoomState.isEmpty_iff.1 (Bool.and_eq_true _ _ ▸ hremoves).1
    have hreleased : ∀ released : World, released.books = (w.withoutMembership userNo).books →
        Directory (released.withoutRoom roomId) := by
      intro released hbooks
      simp only [books, Prod.mk.injEq] at hbooks
      obtain ⟨hrooms, hindex, hfree, hothers⟩ := hbooks
      refine h.leave hfound hremoved (.inr ⟨rfl, hempty⟩) hothers (fun i => ?_) hindex fun id hid => ?_
      · change AList.lookup i (released.protocolRooms.erase roomId) = _
        rw [FiniteMap.lookup_erase, hrooms]
        rfl
      · change id ∈ insert roomId.get released.freeProtocolRoomIds at hid
        rw [hfree] at hid
        rcases Finset.mem_insert.1 hid with rfl | hold
        · exact .inr ⟨rfl, rfl⟩
        · exact .inl hold
    split
    · split
      · exact hreleased _ rfl
      · exact hreleased _ rfl
    · exact hreleased _ rfl
  · rename_i hkept
    exact h.leave hfound hremoved (.inl ⟨rfl, populated_of_kept (Bool.eq_false_of_not_eq_true hkept)⟩) rfl
      (fun i => lookup_withRoom _ roomId i next) rfl fun id hid => .inl hid

theorem Populated.of_phase (h : Populated room) (hphase : next.phase = .lobby ∨ next.phase = .loading →
      room.phase = .lobby ∨ room.phase = .loading)
    (hholds : ∀ user, next.arrangement.Holds user ↔ room.arrangement.Holds user) : Populated next := by
  intro hnext
  obtain ⟨user, huser⟩ := h (hphase hnext)
  exact ⟨user, (hholds user).2 huser⟩

theorem Directory.edits (h : Directory w) (hfound : Found roomId room w) (hedits : Edits calm room next) :
    Directory (w.withRoom roomId next) := by
  have hlisted := h.rooms roomId room hfound
  have hkeeps : next.arrangement.Sound ∧ (∀ user, next.arrangement.Holds user ↔ room.arrangement.Holds user) ∧ next.id = room.id ∧
      (next.phase = .lobby ∨ next.phase = .loading → room.phase = .lobby ∨ room.phase = .loading) := by
    induction hedits with
    | refl => exact ⟨hlisted.sound, fun _ => Iff.rfl, rfl, id⟩
    | tail _ hedit ih =>
      obtain ⟨hsound, hholds, hid, hphase⟩ := ih
      obtain ⟨hsame, hidSame⟩ := hedit.rest
      refine ⟨hedit.sound hsound, fun user => (hsame user).trans (hholds user), hidSame.trans hid, fun hlast => hphase ?_⟩
      rcases hedit.phase with heq | ⟨hload, -⟩
      · rwa [heq] at hlast
      · exact .inr hload
  obtain ⟨hsound, hholds, hid, hphase⟩ := hkeeps
  exact h.put hfound hid hsound hholds (hlisted.populated.of_phase hphase hholds)

/-- When the results are ready, everybody who is still there has one. -/
theorem Sound.ranked (h : Sound w) (hfound : Found roomId room w) {ranking : SettlementRanking}
    {rewards : List RewardPersistenceEntry} {packets : List Packet} (hready : room.finalization = some (.ready ranking rewards packets)) :
    ∀ id, (room.membersById id).isSome → (ranking.byPlayerId.lookup (id.val : Int)).isSome := by
  intro id hid
  have hcourse := h roomId room.course (course_of_found hfound)
  have houtcome := ProtocolRoomState.outcome_of_finalization hready
  have hphase : room.phase ≠ .lobby := by
    have hsettling : room.phase = .settling := hcourse.settling (by rw [houtcome]; simp [SettlementFinalization.outcome])
    rw [hsettling]
    simp
  obtain ⟨frozen, hfrozen, hrankable, -, hseated⟩ := h.roster hfound hphase
  have hranking : ranking = rankingOf room.settings.gameType frozen.racing room.raceProgress.finishTimes := by
    rw [← racing_field]
    refine hcourse.ranked ranking frozen.field (houtcome.trans rfl) ?_
    change room.frozenRace.map _ = _
    rw [hfrozen]
    rfl
  rw [hranking]
  exact Option.isSome_iff_exists.2 ((hrankable.law_racers (id.val : Int)).2 (hseated id hid))

/-- A race that is over. -/
theorem Directory.finalized (h : Directory w) (hsound : Sound w) (hfound : Found roomId room w) {ranking : SettlementRanking}
    {rewards : List RewardPersistenceEntry} {packets : List Packet}
    (hready : room.finalization = some (.ready ranking rewards packets)) : Directory (w.withFinalized roomId room ranking) := by
  have hlisted := h.rooms roomId room hfound
  have hkept : ∀ released : World, released.books = w.books → Directory (if room.isEmpty then released.withoutRoom roomId
      else released.withRoom roomId (room.nextLobby ranking)) := by
    intro released hbooks
    have hreleased := h.of_books hbooks
    have hfound' : Found roomId room released := (congrArg (AList.lookup roomId) (congrArg Prod.fst hbooks)).trans hfound
    split
    · rename_i hempty
      exact hreleased.removed hfound' (ProtocolRoomState.isEmpty_iff.1 hempty)
    · rename_i hnonempty
      have hholds : ∀ user, (room.nextLobby ranking).arrangement.Holds user ↔ room.arrangement.Holds user := by
        intro user
        rw [ProtocolRoomState.holds_iff_userAt, ProtocolRoomState.holds_iff_userAt, ProtocolRoomState.userAt_nextLobby]
      refine hreleased.put hfound' ?_ (ProtocolRoomState.sound_nextLobby hlisted.sound (hsound.ranked hfound hready)) hholds fun _ => ?_
      · exact ProtocolRoomState.id_nextLobby room ranking
      · rw [ProtocolRoomState.isEmpty_iff] at hnonempty
        push Not at hnonempty
        obtain ⟨user, huser⟩ := hnonempty
        exact ⟨user, (hholds user).2 huser⟩
  unfold withFinalized
  split
  · exact hkept _ rfl
  · exact hkept _ rfl

/-- What concerns no room. -/
theorem Directory.untouched (h : Directory w) (huntouched : Untouched w w') : Directory w' := by
  have hrooms : w'.protocolRooms = w.protocolRooms := congrArg Prod.fst huntouched.state
  have hindex : w'.protocolRoomByUser = w.protocolRoomByUser := congrArg (fun state => state.2.1) huntouched.state
  refine ⟨fun roomId room hroom => ?_, fun user roomId => ?_, fun id hid => ?_⟩
  · have hfound : Found roomId room w := (congrArg (AList.lookup roomId) hrooms).symm.trans hroom
    have hlisted := h.rooms roomId room hfound
    refine ⟨hlisted.id, fun hother => ?_, hlisted.sound, hlisted.populated⟩
    rcases huntouched.others roomId hother with hold | ⟨hnone, -⟩
    · exact hlisted.apart hold
    · rw [show w.protocolRooms.lookup roomId = some room from hfound] at hnone
      cases hnone
  · rw [hindex, h.members]
    unfold Found
    rw [hrooms]
  · obtain ⟨hrange, hunused⟩ := h.free id (huntouched.free hid)
    rw [roomIdFree_iff] at hunused
    rw [roomIdFree_iff, hrooms]
    refine ⟨hrange, fun hother => ?_, hunused.2⟩
    rcases huntouched.others ⟨id⟩ hother with hold | ⟨-, hnot⟩
    · exact hunused.1 hold
    · exact hnot hid

/-- A room is opened. -/
theorem Directory.opened (h : Directory w) {ids : Finset Nat} {nextRoomId : Nat} {settings : RoomSettings}
    {participant : RoomParticipant} (hspare : w.Spare roomId.get) (hids : ids ⊆ w.freeProtocolRoomIds) (hid : roomId.get ∉ ids)
    (hnew : w.protocolRoomByUser.lookup userNo = none) (hshown : participant.player.userNo = userNo.get)
    (hadd : (ProtocolRoomState.new roomId settings).addParticipant userNo participant = some room) :
    Directory ((w.withIds ids nextRoomId).withMember userNo roomId room) := by
  have hempty : ∀ user, ¬(ProtocolRoomState.new roomId settings).arrangement.Holds user :=
    ProtocolRoomState.isEmpty_iff.1 rfl
  have hholds : ∀ user, room.arrangement.Holds user ↔ user = userNo := by
    intro user
    rw [ProtocolRoomState.holds_addParticipant hadd]
    exact ⟨fun hthere => hthere.resolve_left (hempty user), .inr⟩
  have hrange : 0 < roomId.get ∧ roomId.get < 2 ^ 16 := by
    rcases hspare.2 with hfree | hrange
    · exact (h.free _ hfree).1
    · exact hrange
  have hunused := roomIdFree_iff.1 hspare.1
  have hrace := ProtocolRoomState.raceState_addParticipant hadd
  refine (h.withIds nextRoomId fun id hfree => .inl (hids hfree)).join ⟨⟨congrArg Prod.fst hrace, hrange⟩, hunused.1, ?_, ?_⟩ hnew hid ?_
  · exact ProtocolRoomState.sound_addParticipant (ProtocolRoomState.sound_new roomId settings) (hempty userNo) (.inr rfl) hshown hadd
  · exact fun _ => ⟨userNo, (hholds userNo).2 rfl⟩
  · intro user
    rw [hholds]
    refine ⟨.inr, fun hthere => hthere.resolve_left fun hindex => ?_⟩
    obtain ⟨other, hother, -⟩ := (h.members user roomId).1 hindex
    rw [show w.protocolRooms.lookup roomId = some other from hother] at hunused
    cases hunused.2

/-- A room is entered. -/
theorem Directory.entered (h : Directory w) (hfound : Found roomId room w) (hlobby : room.phase = .lobby)
    {participant : RoomParticipant} (hnew : w.protocolRoomByUser.lookup userNo = none)
    (hshown : participant.player.userNo = userNo.get) (hadd : room.addParticipant userNo participant = some next) :
    Directory (w.withMember userNo roomId next) := by
  have hlisted := h.rooms roomId room hfound
  have hthere : ∀ user, w.protocolRoomByUser.lookup user = some roomId ↔ room.arrangement.Holds user := by
    intro user
    rw [h.members]
    constructor
    · rintro ⟨other, hother, hholds⟩
      obtain rfl := Option.some.inj (hother.symm.trans hfound)
      exact hholds
    · exact fun hholds => ⟨room, hfound, hholds⟩
  have hnot : ¬room.arrangement.Holds userNo := by
    rw [← hthere, hnew]
    simp
  have hid : next.id = room.id := congrArg Prod.fst (ProtocolRoomState.raceState_addParticipant hadd)
  refine h.join ⟨⟨hid.trans hlisted.id.1, hlisted.id.2⟩, hlisted.apart, ?_, ?_⟩ hnew (fun hfree => h.not_free hfound hfree rfl) ?_
  · exact ProtocolRoomState.sound_addParticipant hlisted.sound hnot (.inl (hlisted.populated (.inl hlobby))) hshown hadd
  · exact fun _ => ⟨userNo, (ProtocolRoomState.holds_addParticipant hadd).2 (.inr rfl)⟩
  · intro user
    rw [ProtocolRoomState.holds_addParticipant hadd, hthere]

/-- A change of a race, at a room that keeps its tables. -/
theorem Directory.raced (h : Directory w) (hfound : Found roomId room w) (hid : next.id = room.id)
    (harrangement : next.arrangement = room.arrangement) (hphase : next.phase = .lobby ∨ next.phase = .loading →
      room.phase = .lobby ∨ room.phase = .loading)
    (hbooks : w'.books = (w.withRoom roomId next).books) : Directory w' := by
  have hlisted := h.rooms roomId room hfound
  have hholds : ∀ user, next.arrangement.Holds user ↔ room.arrangement.Holds user := fun user => by rw [harrangement]
  refine (h.put hfound hid ?_ hholds (hlisted.populated.of_phase hphase hholds)).of_books hbooks
  rw [harrangement]
  exact hlisted.sound

/-- Every change keeps the directory. -/
theorem Stir.directory (hstir : Stir calm w w') (hsound : Sound w) (h : Directory w) : Directory w' := by
  cases hstir with
  | still huntouched => exact h.untouched huntouched
  | spent _ => exact h.of_books rfl
  | freed ids nextRoomId hids => exact h.withIds nextRoomId hids
  | edited hfound hedits => exact h.edits hfound hedits
  | opened hspare hids hid hnew hshown hadd => exact h.opened hspare hids hid hnew hshown hadd
  | entered hfound hlobby hnew hshown hadd => exact h.entered hfound hlobby hnew hshown hadd
  | @left _ _ roomId userNo room hfound hthere =>
    have hholds : room.arrangement.Holds userNo := by
      rcases hthere with hindex | hremoves
      · obtain ⟨other, hother, hholds⟩ := (h.members userNo roomId).1 hindex
        obtain rfl := Option.some.inj (hother.symm.trans hfound)
        exact hholds
      · exact ProtocolRoomState.removeUser_isSome_iff.1 hremoves
    obtain ⟨next, hnext⟩ := Option.isSome_iff_exists.1 (ProtocolRoomState.removeUser_isSome_iff.2 hholds)
    rw [hnext]
    exact h.afterExit hfound hnext
  | @dropped _ _ roomId userNo hindex hnone =>
    obtain ⟨room, hfound, -⟩ := (h.members userNo roomId).1 hindex
    rw [show w.protocolRooms.lookup roomId = some room from hfound] at hnone
    cases hnone
  | @started _ roomId room roster pool used last hfound hstarts =>
    exact h.raced hfound (rfl : (startedRoom (retracked room pool used last) roster).id = room.id) rfl (fun _ => .inl hstarts.lobby) rfl
  | @aborted _ roomId room hfound hphase =>
    refine h.raced hfound (rfl : room.backToLobby.id = room.id) (ProtocolRoomState.arrangement_backToLobby room) (fun _ => .inr hphase) ?_
    unfold withAborted
    split <;> rfl
  | @finished _ _ roomId room playerId raceTime settlement fanout now hfound hfinishes =>
    refine h.raced hfound (rfl : (finishedRoom room playerId raceTime settlement fanout).id = room.id) rfl ?_ ?_
    · change (if settlement.isSome then RoomPhase.settling else room.phase) = .lobby ∨
        (if settlement.isSome then RoomPhase.settling else room.phase) = .loading → _
      split
      · simp
      · exact id
    · unfold withFinished
      split <;> rfl
  | @abandoned _ _ roomId room roster now endTick hfound hphase _ =>
    refine h.raced hfound (rfl : (abandonedRoom room now endTick).id = room.id) rfl (fun hlast => ?_) rfl
    rcases hlast with hlast | hlast
    · cases hlast
    · cases hlast
  | @flushed _ _ roomId room roster hfound _ _ => exact h.raced hfound (rfl : (flushedRoom room).id = room.id) rfl id rfl
  | @planned _ _ U roomId room ranking rewards now rolls hfound hawaiting hplan =>
    refine h.raced hfound (rfl : (room.setFinalization (.persisting ranking rewards)).id = room.id) rfl id ?_
    unfold withPlanned
    split <;> rfl
  | @issued _ _ roomId room ranking rewards reward attemptId dueAt failures lease hfound hpersisting _ _ _ =>
    exact h.raced hfound (rfl : (room.setFinalization (.persisting ranking
      (setRewardStatus reward.userNo (.inFlight attemptId failures lease) rewards))).id = room.id) rfl id rfl
  | finalized hfound _ _ hready =>
    refine (h.finalized hsound hfound hready).of_books ?_
    unfold loggedFinal
    split <;> rfl

/-- Every run of changes keeps the directory, and the rooms sound. -/
theorem Stirs.directory (hstirs : Stirs calm w w') (hsound : Sound w) (h : Directory w) : Sound w' ∧ Directory w' := by
  induction hstirs with
  | refl => exact ⟨hsound, h⟩
  | tail _ hstir ih => exact ⟨hstir.sound ih.1, hstir.directory ih.1 ih.2⟩

/-! ## Runs -/

/-- At every point of a run the rooms, the index of their users and the free ids agree. In each room there is a slot for exactly
who has a member id: a racer is let in when and only when a member id is free, and no operation misses the slot of an AI. -/
theorem directory_of_run {U : Unicode} {past : List Moment} (hrun : Run U past w)
    (hcontained : ∀ moment ∈ past, moment.2.Contained moment.1) : Directory w ∧ ∀ roomId room, Found roomId room w →
      (∀ userNo participant, (room.addRacer userNo participant).isSome ↔ ∃ id, room.vacant id = true) ∧
      (∀ playerId, ∃ removed, (room.removeAi playerId : Except (Fault LobbyError) _) = .ok removed) ∧
      ∀ id, room.vacant id = false → ∃ slot, room.slotOf id = some slot ∧ room.slotPositions slot = some id := by
  have hdirectory := ((hrun.stirs hcontained).directory (Run.start (U := U)).sound directory_initial).2
  refine ⟨hdirectory, fun roomId room hfound => ?_⟩
  have hseated := (hdirectory.rooms roomId room hfound).sound.toSeated
  refine ⟨ProtocolRoomState.addRacer_isSome_iff hseated, ProtocolRoomState.removeAi_ok hseated, fun id hid => ?_⟩
  exact ProtocolRoomState.exists_slotOf hseated _ hid

namespace DirectoryAux

open OpenedAux

/-- An AI comes into the room of two, a member id is closed, and the guest is kicked. -/
def edits : List Command :=
  [.lobby ⟨1⟩ (.basicAi ⟨2⟩ ⟨1, 1, 1, 1, 1, 1, 1⟩ ⟨1, 1, 1, 1, 1, 1, 1⟩), .lobby ⟨1⟩ (.closeSlot ⟨3, .closes, 3, 0, 0⟩),
    .lobby ⟨1⟩ (.kick 1)]

/-- The world behind that. -/
def edited : World := performAll .ascii lobby edits

theorem named_connected : (connected.effect World.initial).identities.Named := by
  intro userNo key found hname hfound
  by_cases hbazzi : userNo = bazzi.userNo
  · subst hbazzi
    obtain rfl := Option.some.inj hname
    obtain rfl := Option.some.inj hfound
    rfl
  · by_cases hdao : userNo = dao.userNo
    · subst hdao
      obtain rfl := Option.some.inj hname
      obtain rfl := Option.some.inj hfound
      rfl
    · have hnone : (connected.effect World.initial).identities.nameByUserNo.lookup userNo = none := by
        change (AList.insert bazzi.userNo "bazzi" (AList.insert dao.userNo "dao" (∅ : FiniteMap UserNo String))).lookup userNo = none
        rw [AList.lookup_insert_ne hbazzi, AList.lookup_insert_ne hdao]
        rfl
      rw [hnone] at hname
      cases hname

theorem contained : ∀ moment ∈ past ++ moments .ascii lobby edits, moment.2.Contained moment.1 := by
  have hconnected : Untouched World.initial (connected.effect World.initial) :=
    .of_eq rfl ⟨rfl, rfl⟩ rfl fun _ => named_connected
  intro moment hmoment
  rcases List.mem_append.1 hmoment with hpast | hedits
  · rcases List.mem_cons.1 hpast with rfl | hpast
    · exact hconnected
    · rcases List.mem_cons.1 hpast with rfl | hpast
      · trivial
      · obtain rfl := List.mem_singleton.1 hpast
        trivial
  · rcases List.mem_cons.1 hedits with rfl | hedits
    · trivial
    · rcases List.mem_cons.1 hedits with rfl | hedits
      · trivial
      · obtain rfl := List.mem_singleton.1 hedits
        trivial

end DirectoryAux

open OpenedAux DirectoryAux in
/-- In a room with its master, an AI and a closed member id, which a guest was kicked from, there is a place for another racer exactly
when a member id is free. -/
theorem directory_of_run_opened : Directory edited ∧ edited.protocolRoomByUser.lookup bazzi.userNo = none ∧
    ∃ room, Found ⟨1⟩ room edited ∧ (room.userNos, room.aiCount, room.closedSlotIds.length) = ([dao.userNo], 1, 1) ∧
      ∀ userNo participant, (room.addRacer userNo participant).isSome ↔ ∃ id, room.vacant id = true := by
  obtain ⟨hdirectory, hrooms⟩ := directory_of_run (run_lobby.performAll edits) contained
  have hfacts : (edited.protocolRooms.lookup ⟨1⟩).map (fun room => (room.userNos, room.aiCount, room.closedSlotIds.length)) =
    some ([dao.userNo], 1, 1) := by decide +kernel
  obtain ⟨room, hfound, hroom⟩ := Option.map_eq_some_iff.1 hfacts
  exact ⟨hdirectory, by decide +kernel, room, hfound, hroom, (hrooms ⟨1⟩ room hfound).1⟩

end World

end P5136
