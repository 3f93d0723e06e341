import P5136.World.Edits

/-!
# What changes do to the courses of rooms

A world is calm when each of its rooms goes on by turns of its course, and no race is started. Here is which changes are calm: all of
them but those that load a race.
-/

namespace P5136

open ProtocolRoomState

/-- The handshake of a race that loads may be any. -/
theorem Course.Sound.shaken {c : Course} (h : c.Sound) (hphase : c.phase = .loading) (handshake : LoadingHandshake) :
    Course.Sound { c with handshake := handshake } where
  teams := h.teams
  aiTeams := h.aiTeams
  apart := h.apart
  idle := h.idle
  racing := by
    intro hrace
    obtain ⟨field, hfield, hfence, hcarries⟩ := h.racing hrace
    exact ⟨field, hfield, hfence, hcarries.rankable, hcarries.human, hcarries.seated⟩
  settling := h.settling
  loading := fun _ => hphase
  ranked := h.ranked

/-! ## Edits -/

section Edits

variable {calm : Bool} {room next : ProtocolRoomState}

/-- Turns keep a room sound. -/
theorem World.sound_of_goes {o o' : Option Course} (h : Goes o o') (ho : ∀ c, o = some c → c.Sound) :
    ∀ c, o' = some c → c.Sound := by
  induction h with
  | refl => exact ho
  | tail _ hturn ih =>
    cases hturn with
    | opened gameType =>
      rintro c ⟨⟩
      exact Course.sound_fresh gameType
    | removed c =>
      rintro c ⟨⟩
    | quiet hquiet =>
      rintro c ⟨⟩
      exact (ih _ rfl).quiet hquiet

theorem Goes.sound (h : Goes (some room.course) (some next.course)) (hsound : room.course.Sound) : next.course.Sound := by
  refine World.sound_of_goes h ?_ _ rfl
  rintro c ⟨⟩
  exact hsound

/-- An edit takes turns, or it loads a race and is not calm. -/
theorem Edit.turns (h : Edit calm room next) :
    Goes (some room.course) (some next.course) ∨ calm = false ∧ (room.course.Sound → next.course.Sound) := by
  cases h with
  | armed hphase _ _ => exact .inr ⟨rfl, fun hsound => hsound.shaken hphase _⟩
  | marked hphase _ _ => exact .inr ⟨rfl, fun hsound => hsound.shaken hphase _⟩
  | checked active now hphase => exact .inr ⟨rfl, fun hsound => hsound.shaken hphase _⟩
  | began hphase hdue => exact .inr ⟨rfl, fun hsound => hsound.loads (.began hphase hdue)⟩
  | dressed hdressed => exact .inl (Goes.of_eq hdressed.course)
  | retold hlobby htype _ =>
    refine .inl (Goes.of_eq ?_)
    unfold course
    dsimp only
    rw [htype]
    rfl
  | moved hlobby _ _ _ hmove => exact .inl (goes_moveToTeam hlobby hmove)
  | aisAdded hlobby hadd => exact .inl (goes_addBasicAis hlobby hadd)
  | aiRemoved hlobby hremove => exact .inl (goes_removeAi hlobby hremove)
  | slotsSet _ hset => exact .inl (Goes.of_eq (course_setCloseSlots hset))
  | failed reason userNo nickname => exact .inl (goes_retainAsDeadLetter _ _ _ _)
  | requeued hpersisting _ _ =>
    exact .inl (Goes.of_eq (course_setFinalization_same
      (finalization_of_persisting hpersisting) rfl))
  | paid hpersisting _ _ _ _ =>
    refine .inl (Goes.of_eq ?_)
    rw [course_applyEconomy]
    exact course_setFinalization_same (finalization_of_persisting hpersisting) rfl
  | orphaned hpersisting _ _ =>
    refine .inl (Relation.ReflTransGen.trans (Goes.of_eq (course_setFinalization_same
      (finalization_of_persisting hpersisting) ?_)) (goes_retainAsDeadLetter _ _ _ _))
    rfl
  | readied hpersisting _ _ =>
    exact .inl (Goes.of_eq (course_setFinalization_same
      (finalization_of_persisting hpersisting) rfl))
  | retried hfinalization _ hranking _ =>
    refine .inl (Goes.of_eq (course_setFinalization_same hfinalization ?_))
    change Outcome.closed (some _) = Outcome.closed _
    rw [hranking]
  | _ => exact .inl .refl

theorem turns_of_edits (h : Edits calm room next) :
    Goes (some room.course) (some next.course) ∨ calm = false ∧ (room.course.Sound → next.course.Sound) := by
  induction h with
  | refl => exact .inl .refl
  | tail _ hedit ih =>
    rcases hedit.turns with hgoes | ⟨hcalm, hkeeps⟩
    · exact ih.imp (fun h => h.trans hgoes) fun h => ⟨h.1, fun hsound => hgoes.sound (h.2 hsound)⟩
    · exact .inr ⟨hcalm, fun hsound => hkeeps (ih.elim (fun h => h.sound hsound) fun h => h.2 hsound)⟩

end Edits

namespace World

/-- The course of the room at an id. -/
def course (w : World) (roomId : RoomId) : Option Course := (w.protocolRooms.lookup roomId).map (·.course)

/-- Every room goes on by turns of its course, and no race is started. -/
structure Calm (w w' : World) : Prop where
  goes : ∀ roomId, Goes (w.course roomId) (w'.course roomId)
  epoch : w'.nextRaceEpoch = w.nextRaceEpoch

/-- A room is at an id. -/
def Found (roomId : RoomId) (room : ProtocolRoomState) (w : World) : Prop := w.protocolRooms.lookup roomId = some room

theorem Calm.refl (w : World) : Calm w w := ⟨fun _ => .refl, rfl⟩

theorem Calm.trans (w w' w'' : World) (h : Calm w w') (h' : Calm w' w'') : Calm w w'' :=
  ⟨fun roomId => (h.goes roomId).trans (h'.goes roomId), h'.epoch.trans h.epoch⟩

variable {w w' : World} {roomId : RoomId} {room next : ProtocolRoomState}

/-- The same rooms. -/
theorem Calm.of_rooms (h : w'.protocolRooms = w.protocolRooms) (e : w'.nextRaceEpoch = w.nextRaceEpoch) :
    Calm w w' := by
  refine ⟨fun roomId => ?_, e⟩
  unfold course
  rw [h]

theorem course_of_found (h : Found roomId room w) : w.course roomId = some room.course := by
  unfold course
  rw [show w.protocolRooms.lookup roomId = some room from h]
  rfl

theorem course_withRoom (w : World) (roomId i : RoomId) (next : ProtocolRoomState) :
    (w.withRoom roomId next).course i = if i = roomId then some next.course else w.course i := by
  unfold course
  rw [lookup_withRoom]
  split
  · rfl
  · rfl

/-- A room that is put in its place. -/
theorem Calm.withRoom (h : Goes (w.course roomId) (some next.course)) : Calm w (w.withRoom roomId next) := by
  refine ⟨fun i => ?_, rfl⟩
  rw [course_withRoom]
  by_cases hi : i = roomId
  · rw [if_pos hi, hi]
    exact h
  · rw [if_neg hi]

theorem Calm.withFound (hfound : Found roomId room w) (h : Goes (some room.course) (some next.course)) :
    Calm w (w.withRoom roomId next) :=
  .withRoom (by rw [course_of_found hfound]; exact h)

/-- A room that is removed. -/
theorem Calm.withoutRoom (w : World) (roomId : RoomId) : Calm w (w.withoutRoom roomId) := by
  refine ⟨fun i => ?_, rfl⟩
  have herase : (w.withoutRoom roomId).course i = if i = roomId then none else w.course i := by
    unfold course World.withoutRoom
    rw [FiniteMap.lookup_erase]
    split
    · rfl
    · rfl
  rw [herase]
  by_cases hi : i = roomId
  · rw [if_pos hi]
    rcases w.course i with _ | c
    · exact .refl
    · exact .single (.removed c)
  · rw [if_neg hi]

/-- The courses of all rooms are sound. -/
def Sound (w : World) : Prop := ∀ i c, w.course i = some c → c.Sound

theorem Sound.of_rooms (h : Sound w) (hrooms : w'.protocolRooms = w.protocolRooms) : Sound w' := by
  intro i c hc
  refine h i c ?_
  unfold course at hc ⊢
  rwa [hrooms] at hc

theorem Sound.put (h : Sound w) (hnext : next.course.Sound) (hrooms : w'.protocolRooms = (w.withRoom roomId next).protocolRooms) :
    Sound w' := by
  refine Sound.of_rooms (w := w.withRoom roomId next) ?_ hrooms
  intro i c hc
  rw [course_withRoom] at hc
  split at hc
  · obtain rfl := Option.some.inj hc
    exact hnext
  · exact h i c hc

theorem Sound.calm (h : Sound w) (hcalm : Calm w w') : Sound w' := fun i => sound_of_goes (hcalm.goes i) (h i)

/-- The room at an id is sound. -/
theorem Sound.at (h : Sound w) (hfound : Found roomId room w) :
    room.course.Sound := h roomId room.course (course_of_found hfound)

/-! ## Changes that are calm -/

/-- The history is not read. -/
theorem Calm.logged (h : Calm w w') (event : RaceEvent) : Calm w (w'.logged event) := Calm.trans _ w' _ h (.of_rooms rfl rfl)

/-- A room without a user, when it was there. -/
theorem goes_getD_removeUser (room : ProtocolRoomState) (userNo : UserNo) :
    Goes (some room.course) (some ((room.removeUser userNo).getD room).course) := by
  rcases hremoved : room.removeUser userNo with _ | next
  · exact .refl
  · exact goes_removeUser hremoved

theorem calm_releaseRewardLanes (w : World) (fence : RaceFence) : Calm w (w.releaseRewardLanes fence) := .of_rooms rfl rfl

/-- A player that leaves a room takes its seat with it, and the room when nobody is left. -/
theorem Calm.afterExit (hfound : Found roomId room w) (userNo : UserNo) (h : Goes (some room.course) (some next.course)) :
    Calm w (w.afterExit userNo roomId next) := by
  have hfound' : Found roomId room (w.withoutMembership userNo) := hfound
  have hwithout : Calm w (w.withoutMembership userNo) := .of_rooms rfl rfl
  unfold World.afterExit
  dsimp only
  split
  · refine hwithout.trans _ _ _ (Calm.trans _ _ _ ?_ (Calm.withoutRoom _ roomId))
    split
    · split
      · exact calm_releaseRewardLanes _ _
      · exact Calm.refl _
    · exact Calm.refl _
  · exact hwithout.trans _ _ _ (Calm.withFound hfound' h)

theorem calm_withMember (userNo : UserNo) (h : Goes (w.course roomId) (some next.course)) :
    Calm w (w.withMember userNo roomId next) := by
  have hroom : Calm w (w.withRoom roomId next) := Calm.withRoom h
  exact Calm.trans _ (w.withRoom roomId next) _ hroom (.of_rooms rfl rfl)

/-- A room that is opened with a participant. -/
theorem goes_opened {settings : RoomSettings} {userNo : UserNo} {participant : RoomParticipant}
    (h : (new roomId settings).addParticipant userNo participant = some next) :
    Goes none (some next.course) := by
  have hopened : Turn none (some (new roomId settings).course) := .opened settings.gameType
  exact (Relation.ReflTransGen.single hopened).trans (goes_addParticipant rfl h)

/-- A finish is recorded in a room whose race is on. -/
theorem calm_withFinished (hfound : Found roomId room w) (h : Goes (some room.course) (some next.course))
    (fanout : PendingRaceFanout) (now : Instant) : Calm w (w.withFinished roomId next fanout now) := by
  have hroom : Calm w (w.withRoom roomId next) := Calm.withFound hfound h
  unfold withFinished
  split
  · exact hroom.logged _
  · exact hroom

/-- A plan makes the ranking of the race. -/
theorem planRewardPersistence_ranking {U : Unicode} {now : Instant} {rolls : Int → Nat × Nat} {ranking : SettlementRanking}
    {rewards : List RewardPersistenceEntry} (h : planRewardPersistence U room now rolls = .ok (ranking, rewards)) :
    settlementRanking room = .ok ranking := by
  unfold planRewardPersistence at h
  obtain ⟨ranking', hranking, hrest⟩ := Checks.bind_eq_ok.1 h
  obtain ⟨_, -, hrest⟩ := Checks.bind_eq_ok.1 hrest
  obtain ⟨_, -, hrest⟩ := Checks.bind_eq_ok.1 hrest
  obtain ⟨_, -, hrest⟩ := Checks.bind_eq_ok.1 hrest
  obtain ⟨rfl, -⟩ := Prod.mk.inj (Except.ok.inj hrest)
  exact hranking

theorem goes_planned {U : Unicode} {now : Instant} {rolls : Int → Nat × Nat} {ranking : SettlementRanking}
    {rewards : List RewardPersistenceEntry} (hawaiting : room.finalization = some .awaitingDeadline)
    (h : planRewardPersistence U room now rolls = .ok (ranking, rewards)) :
    Goes (some room.course) (some (room.setFinalization (.persisting ranking rewards)).course) := by
  rw [course_setFinalization room hawaiting]
  refine Goes.quiet (.planned (outcome_of_finalization hawaiting) fun field hfield hrankable => ?_)
  obtain ⟨frozen, hfrozen, rfl⟩ := Option.map_eq_some_iff.1 hfield
  rw [racing_field] at hrankable ⊢
  have hranking := settlementRanking_eq hfrozen hrankable
  rw [planRewardPersistence_ranking h] at hranking
  exact Except.ok.inj hranking

/-- A race whose results are ready is over. -/
theorem calm_withFinalized {ranking : SettlementRanking} {rewards : List RewardPersistenceEntry} {packets : List Packet}
    (hfound : Found roomId room w) (h : room.finalization = some (.ready ranking rewards packets)) :
    Calm w (w.withFinalized roomId room ranking) := by
  have hreleased : ∀ released : World, released.protocolRooms = w.protocolRooms → released.nextRaceEpoch = w.nextRaceEpoch →
      Calm w (if room.isEmpty then released.withoutRoom roomId
        else released.withRoom roomId ((room.applyNextGridRanking ranking).applyNextLobbyMaster ranking).backToLobby) := by
    intro released hrooms hepoch
    refine Calm.trans _ _ _ (Calm.of_rooms hrooms hepoch) ?_
    split
    · exact Calm.withoutRoom released roomId
    · have hfound' : Found roomId room released := (congrArg (AList.lookup roomId) hrooms).trans hfound
      refine Calm.withFound hfound' ?_
      rw [course_backToLobby, course_applyNextLobbyMaster,
        course_applyNextGridRanking]
      exact Goes.quiet (.finalized (outcome_of_finalization h))
  unfold withFinalized
  rcases room.raceFence with _ | fence
  · exact hreleased w rfl rfl
  · exact hreleased (w.releaseRewardLanes fence) rfl rfl

end World

end P5136
