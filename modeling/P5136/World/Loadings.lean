import P5136.World.Heartbeats

/-!
# How the loading of a race goes on

A start freezes a race, a participant arms its handshake, and participants get ready: each is one event in the course of one room,
and the world has a reason for it.
-/

namespace P5136

namespace World

open Act Checks ProtocolRoomState

variable {w w' : World} {roomId : RoomId} {room next : ProtocolRoomState}

/-- An event of the loading of a race took place at a room, and the other rooms are as before. -/
def Moved (event : Course.LoadingEvent) (roomId : RoomId) (w w' : World) : Prop :=
  ∃ c c', w.course roomId = some c ∧ Course.Loads event c c' ∧ ∀ i, w'.course i = if i = roomId then some c' else w.course i

/-- The courses of all rooms are as before. -/
def SameCourses (w w' : World) : Prop := ∀ i, w'.course i = w.course i

theorem moved_withRoom {event : Course.LoadingEvent} (hfound : Found roomId room w)
    (h : Course.Loads event room.course next.course) : Moved event roomId w (w.withRoom roomId next) :=
  ⟨room.course, next.course, course_of_found hfound, h, fun i => course_withRoom w roomId i next⟩

/-- An event took place when the rooms are those after it. -/
theorem Moved.of_rooms {event : Course.LoadingEvent} {w'' : World} (h : Moved event roomId w w')
    (hrooms : w''.protocolRooms = w'.protocolRooms) : Moved event roomId w w'' := by
  obtain ⟨c, c', hcourse, hloads, hothers⟩ := h
  refine ⟨c, c', hcourse, hloads, fun i => ?_⟩
  rw [← hothers i]
  unfold World.course
  rw [hrooms]

/-! ## Starting -/

/-- The room of a start, with its race frozen. -/
theorem loads_started {activeIdentity : UserNo → Option IdentityBinding} {fence : RaceFence} {concreteTrack track : Nat}
    {candidates : List Nat} {draw : Nat} {frozen : FrozenRaceRoster} (hlobby : room.phase = .lobby) (hmembers : room.members ≠ [])
    (hselected : room.selectConcreteTrack candidates draw = .ok (track, next))
    (hfrozen : room.freezeRaceRoster activeIdentity fence concreteTrack = .ok frozen) :
    Course.Loads (.started frozen.field) room.course (startedRoom next frozen).course := by
  obtain ⟨hcourse, -, -, -⟩ := sameButTracks_selectConcreteTrack hselected
  have hstarted : (startedRoom next frozen).course = { next.course with
      phase := .loading, fence := some frozen.field.fence, field := some frozen.field, finishTimes := ∅, outcome := .none,
      handshake := .dormant } := rfl
  rw [hstarted, hcourse]
  exact .started hlobby (freezes_freezeRaceRoster hmembers hfrozen).1

/-- What a start that is accepted does. -/
theorem moved_startRoom {identity : IdentityBinding} {plan : StartRoomPlan} {draw : Nat} {outcome : LobbyCommandOutcome}
    (h : startRoom identity plan draw w = (.ok outcome, w')) :
    ∃ roomId, ∃ field : RaceField, Moved (.started field) roomId w w' ∧ field.fence.roomId = roomId ∧
      w.nextRaceEpoch = some field.fence.raceEpoch ∧ w'.nextRaceEpoch = field.fence.raceEpoch.following := by
  obtain ⟨s, _, hget, h⟩ := Act.bind_eq_ok.1 h
  obtain ⟨rfl, rfl⟩ := Act.get_eq_ok.1 hget
  obtain ⟨_, _, hopen, h⟩ := Act.bind_eq_ok.1 h
  rw [(readOnly_require _ _).eq_of hopen] at h
  obtain ⟨roomId, _, hroomId, h⟩ := Act.bind_eq_ok.1 h
  rw [(readOnly_protocolRoomId _).eq_of hroomId] at h
  obtain ⟨room, _, hroom, h⟩ := Act.bind_eq_ok.1 h
  rw [(readOnly_memberRoom _).eq_of hroom] at h
  have hfound : Found roomId room w := orElse_eq_ok.1 (Act.reads_eq_ok.1 hroom).1
  obtain ⟨requester, _, hmaster, h⟩ := Act.bind_eq_ok.1 h
  rw [(readOnly_requireLobbyMaster _ _).eq_of hmaster] at h
  obtain ⟨_, _, hlobby, -⟩ := Act.bind_eq_ok.1 hmaster
  have hphase : room.phase = .lobby := (Act.require_eq_ok.1 hlobby).1
  obtain ⟨_, _, hais, h⟩ := Act.bind_eq_ok.1 h
  rw [(readOnly_require _ _).eq_of hais] at h
  obtain ⟨count, _, hcount, h⟩ := Act.bind_eq_ok.1 h
  rw [(readOnly_ofExcept _).eq_of hcount] at h
  obtain ⟨epoch, _, hepoch, h⟩ := Act.bind_eq_ok.1 h
  rw [(readOnly_orFail _ _).eq_of hepoch] at h
  obtain ⟨selected, _, hselected, h⟩ := Act.bind_eq_ok.1 h
  rw [(readOnly_ofExcept _).eq_of hselected] at h
  obtain ⟨frozen, _, hfrozen, h⟩ := Act.bind_eq_ok.1 h
  rw [(readOnly_ofExcept _).eq_of hfrozen] at h
  obtain ⟨ds, _, hds, h⟩ := Act.bind_eq_ok.1 h
  rw [(readOnly_ofExcept _).eq_of hds] at h
  obtain ⟨_, _, hreserve, h⟩ := Act.bind_eq_ok.1 h
  rw [(readOnly_reserveOutbound _).eq_of hreserve] at h
  obtain ⟨_, w₁, hstarted, h⟩ := Act.bind_eq_ok.1 h
  obtain ⟨_, w₂, hpublished, h⟩ := Act.bind_eq_ok.1 h
  obtain ⟨-, rfl⟩ := Act.pure_eq_ok.1 h
  obtain rfl := Act.modify_eq_ok.1 hstarted
  obtain rfl := Act.modify_eq_ok.1 hpublished
  have hracers := mapError_eq_ok.1 (Act.ofExcept_eq_ok.1 hcount).1
  have htrack := mapError_eq_ok.1 (Act.ofExcept_eq_ok.1 hselected).1
  have hfreeze := mapError_eq_ok.1 (Act.ofExcept_eq_ok.1 hfrozen).1
  have hfence := (freezes_freezeRaceRoster (members_of_validateStartRacers hracers) hfreeze).2
  have hnext : w.nextRaceEpoch = some epoch := orElse_eq_ok.1 (Act.ofExcept_eq_ok.1 hepoch).1
  have hloads := loads_started hphase (members_of_validateStartRacers hracers) htrack hfreeze
  refine ⟨roomId, frozen.field, (moved_withRoom hfound hloads).of_rooms rfl, ?_, ?_, ?_⟩
  · change frozen.fence.roomId = roomId
    rw [hfence]
  · change _ = some frozen.fence.raceEpoch
    rw [hfence]
    exact hnext
  · rfl

/-- A start freezes one race, or is calm: a rejection only tells the requester. -/
theorem startCommand_moves (session : SessionId) (identity : IdentityBinding) (plan : StartRoomPlan) (draw : Nat) (w : World) :
    Calm w (startCommand session identity plan draw w).2 ∨
      ∃ roomId, ∃ field : RaceField, Moved (.started field) roomId w (startCommand session identity plan draw w).2 ∧
        field.fence.roomId = roomId ∧ w.nextRaceEpoch = some field.fence.raceEpoch ∧
        (startCommand session identity plan draw w).2.nextRaceEpoch = field.fence.raceEpoch.following := by
  unfold startCommand Act.recover
  rcases hstart : startRoom identity plan draw w with ⟨r, w'⟩
  cases r with
  | ok outcome => exact .inr (moved_startRoom hstart)
  | error e =>
    obtain rfl := atomic_startRoom identity plan draw w e w' hstart
    refine .inl ?_
    have hreject : Leads (Stirs true) (publishStartRejection session) :=
      stirs_bind ((readOnly_reserveOutbound _).leads stirs_refl) fun _ => stirs_publishReserved _
    refine calm_of_stirs ((?_ : Leads (Stirs true) _) w')
    split
    · exact stirs_fail _
    · exact stirs_bind hreject fun _ => stirs_fail _
    · exact stirs_fail _

/-! ## Arming -/

theorem mem_identities {frozen : FrozenRaceRoster} {identity : IdentityBinding} {participant : FrozenRaceParticipant}
    (h : frozen.participantOf identity = some participant) : identity ∈ frozen.field.entrants.map (·.identity) := by
  unfold FrozenRaceRoster.participantOf at h
  have hmem := List.mem_of_find?_eq_some h
  have hidentity : participant.identity = identity := by simpa using List.find?_some h
  refine List.mem_map.2 ⟨participant.entrant, List.mem_map_of_mem hmem, hidentity⟩

/-- A participant that asks for it arms the handshake once. -/
theorem armLoading_moves (roomId : RoomId) (identity : IdentityBinding) (now : Instant) (w : World) :
    (armLoading roomId identity now w).2.nextRaceEpoch = w.nextRaceEpoch ∧
      ((armLoading roomId identity now w).2 = w ∨ ∃ deadline, Instant.checkedAdd now loadingReadyTimeout = some deadline ∧
        Moved (.armed identity deadline) roomId w (armLoading roomId identity now w).2) := by
  rcases h : armLoading roomId identity now w with ⟨r, w'⟩
  cases r with
  | error e =>
    obtain rfl := atomic_armLoading roomId identity now w e w' h
    exact ⟨rfl, .inl rfl⟩
  | ok outcome =>
    obtain ⟨room, _, hroom, h⟩ := Act.bind_eq_ok.1 h
    rw [(readOnly_memberRoom _).eq_of hroom] at h
    have hfound : Found roomId room w := orElse_eq_ok.1 (Act.reads_eq_ok.1 hroom).1
    obtain ⟨_, _, hphase, h⟩ := Act.bind_eq_ok.1 h
    rw [(readOnly_require _ _).eq_of hphase] at h
    obtain ⟨frozen, _, hfrozen, h⟩ := Act.bind_eq_ok.1 h
    rw [(readOnly_orFail _ _).eq_of hfrozen] at h
    obtain ⟨participant, _, hparticipant, h⟩ := Act.bind_eq_ok.1 h
    rw [(readOnly_orFail _ _).eq_of hparticipant] at h
    split at h
    · obtain ⟨-, rfl⟩ := Act.pure_eq_ok.1 h
      exact ⟨rfl, .inl rfl⟩
    · rename_i harmed
      obtain ⟨deadline, _, hdeadline, h⟩ := Act.bind_eq_ok.1 h
      rw [(readOnly_orFail _ _).eq_of hdeadline] at h
      obtain ⟨_, w₁, hput, h⟩ := Act.bind_eq_ok.1 h
      obtain ⟨-, rfl⟩ := Act.pure_eq_ok.1 h
      obtain rfl := Act.modify_eq_ok.1 hput
      refine ⟨rfl, .inr ⟨deadline, orElse_eq_ok.1 (Act.ofExcept_eq_ok.1 hdeadline).1, moved_withRoom hfound ?_⟩⟩
      have hroster : room.frozenRace = some frozen := orElse_eq_ok.1 (Act.ofExcept_eq_ok.1 hfrozen).1
      have hfield : room.course.field = some frozen.field := by
        change room.frozenRace.map _ = _
        rw [hroster]
        rfl
      have hdormant : room.course.handshake = .dormant := by
        change room.loadingHandshake = _
        rcases hhandshake : room.loadingHandshake with _ | _ | _
        · rfl
        · rw [hhandshake] at harmed
          exact absurd rfl harmed
        · rw [hhandshake] at harmed
          exact absurd rfl harmed
      have hmem := mem_identities (orElse_eq_ok.1 (Act.ofExcept_eq_ok.1 hparticipant).1)
      have harms : Course.Loads (.armed identity deadline) room.course
          { room.course with handshake := .awaiting frozen.field.stamps ∅ deadline } :=
        .armed (Act.require_eq_ok.1 hphase).1 hfield hmem hdormant
      rw [stamps_field] at harms
      exact harms

/-! ## Getting ready -/

/-- A candidate is marked when it is the exact active identity of a participant of the race that still waits for it. -/
theorem readyRoom_loads {candidate : LoadingReadinessCandidate} (h : w.readyRoom candidate = some next) :
    ∃ room identity, Found candidate.roomId room w ∧ FrozenParticipantStamp.of identity = candidate.participant ∧
      w.identities.activeIdentityByUserNo identity.userNo = some identity ∧
      Course.Loads (.marked identity candidate.raceEpoch) room.course next.course := by
  unfold readyRoom at h
  obtain ⟨active, hactive, h⟩ := Option.bind_eq_some_iff.1 h
  obtain ⟨_, hstamp, h⟩ := Option.bind_eq_some_iff.1 h
  obtain ⟨room, hfound, h⟩ := Option.bind_eq_some_iff.1 h
  obtain ⟨_, hroom, h⟩ := Option.bind_eq_some_iff.1 h
  obtain ⟨frozen, hfrozen, h⟩ := Option.bind_eq_some_iff.1 h
  obtain ⟨_, hrace, h⟩ := Option.bind_eq_some_iff.1 h
  have hsame : FrozenParticipantStamp.of active = candidate.participant := by simpa [guard] using hstamp
  obtain ⟨hphase, hepoch⟩ : room.phase = .loading ∧ room.raceFence.map (·.raceEpoch) = some candidate.raceEpoch := by
    simpa [guard] using hroom
  obtain ⟨hfence, hmem⟩ : frozen.fence.raceEpoch = candidate.raceEpoch ∧ active ∈ frozen.participants.map (·.identity) := by
    simpa [guard] using hrace
  have hfield : room.course.field = some frozen.field := by
    change room.frozenRace.map _ = _
    rw [hfrozen]
    rfl
  rcases hhandshake : room.loadingHandshake with _ | ⟨expected, ready, deadline⟩ | _
  · simp only [hhandshake] at h
    exact absurd h (by simp)
  · simp only [hhandshake] at h
    split at h
    · rename_i hexpected
      obtain rfl := Option.some.inj h
      have huser : active.userNo = candidate.participant.userNo := congrArg FrozenParticipantStamp.userNo hsame
      refine ⟨room, active, hfound, hsame, by rw [huser]; exact hactive, ?_⟩
      have hmem' : active ∈ frozen.field.entrants.map (·.identity) := by
        have hmap : frozen.field.entrants.map (·.identity) = frozen.participants.map (·.identity) := by
          unfold FrozenRaceRoster.field
          rw [List.map_map]
          rfl
        rw [hmap]
        exact hmem
      have hmarks := Course.Loads.marked (c := room.course) hphase hfield hepoch hfence hmem' hhandshake
        (by rw [hsame]; exact hexpected)
      rw [hsame] at hmarks
      exact hmarks
    · exact absurd h (by simp)
  · simp only [hhandshake] at h
    exact absurd h (by simp)

/-- A candidate marks one participant, or nothing happens. -/
theorem markLoadingReady_moves (candidate : LoadingReadinessCandidate) (w : World) :
    (markLoadingReady candidate w).2.nextRaceEpoch = w.nextRaceEpoch ∧
      ((markLoadingReady candidate w).2 = w ∨ ∃ identity, FrozenParticipantStamp.of identity = candidate.participant ∧
        w.identities.activeIdentityByUserNo identity.userNo = some identity ∧
        Moved (.marked identity candidate.raceEpoch) candidate.roomId w (markLoadingReady candidate w).2) := by
  unfold markLoadingReady Act.modify
  dsimp only
  rcases hready : w.readyRoom candidate with _ | next
  · exact ⟨rfl, .inl rfl⟩
  · obtain ⟨room, identity, hfound, hstamp, hactive, hloads⟩ := readyRoom_loads hready
    exact ⟨rfl, .inr ⟨identity, hstamp, hactive, moved_withRoom hfound hloads⟩⟩

/-- A look that keeps the course of a room keeps all courses. -/
theorem sameCourses_withLook (userNo : UserNo) {edit : ProtocolRoomState → Option ProtocolRoomState}
    (h : ∀ room next, edit room = some next → next.course = room.course) : SameCourses w (w.withLook userNo edit) := by
  intro i
  unfold withLook
  split
  · rfl
  · rename_i roomId _
    split
    · rfl
    · rename_i next hnext
      obtain ⟨room, hfound, hedit⟩ := Option.bind_eq_some_iff.1 hnext
      rw [course_withRoom]
      by_cases hi : i = roomId
      · rw [if_pos hi, hi, course_of_found hfound, h room next hedit]
      · rw [if_neg hi]

/-- A look of a member keeps the identities and the epoch of the next race. -/
theorem withLook_rest (w : World) (userNo : UserNo) (edit : ProtocolRoomState → Option ProtocolRoomState) :
    (w.withLook userNo edit).identities = w.identities ∧ (w.withLook userNo edit).nextRaceEpoch = w.nextRaceEpoch := by
  unfold withLook
  split
  · exact ⟨rfl, rfl⟩
  · split
    · exact ⟨rfl, rfl⟩
    · exact ⟨rfl, rfl⟩

/-- The port of a datagram is only noted. -/
theorem recordObservedP2pPort_eq (identity : IdentityBinding) (port : UInt16) (w : World) :
    ∃ w', recordObservedP2pPort identity port w = (.ok ⟨⟩, w') ∧ SameCourses w w' ∧ w'.identities = w.identities ∧
      w'.nextRaceEpoch = w.nextRaceEpoch := by
  unfold recordObservedP2pPort Act.modify
  dsimp only
  split
  · let observed : World := { w with observedP2pPorts := w.observedP2pPorts.insert identity.userNo (identity, port) }
    obtain ⟨hidentities, hepoch⟩ := withLook_rest observed identity.userNo
      (·.setP2pEndpoint identity.userNo (legacyP2pEndpoint identity.sourceIp port).1 (legacyP2pEndpoint identity.sourceIp port).2)
    refine ⟨_, rfl, ?_, hidentities, hepoch⟩
    intro i
    refine sameCourses_withLook (w := observed) identity.userNo ?_ i
    exact fun _ _ h => course_setP2pEndpoint h
  · exact ⟨w, rfl, fun _ => rfl, rfl, rfl⟩

/-- The candidate that a datagram may make ready. -/
def udpCandidate (w : World) (identity : IdentityBinding) (timeSync answered : Bool) : Option LoadingReadinessCandidate :=
  if timeSync && answered then w.loadingReadinessCandidate identity else none

/-- A datagram is a note of its port and perhaps the mark of a candidate. -/
theorem dispatchUdpIngress_eq (identity : IdentityBinding) (observedPort : Option UInt16) (timeSync answered : Bool) (w : World) :
    ∃ w₁, SameCourses w w₁ ∧ w₁.identities = w.identities ∧ w₁.nextRaceEpoch = w.nextRaceEpoch ∧
      (dispatchUdpIngress identity observedPort timeSync answered w).2 =
        match w.udpCandidate identity timeSync answered with
        | some candidate => (markLoadingReady candidate w₁).2
        | none => w₁ := by
  have hmark : ∀ w₁ : World, ((match if timeSync = true then w.loadingReadinessCandidate identity else none with
      | some candidate => if answered = true then markLoadingReady candidate else pure ()
      | none => pure () : WorldAct Unit) w₁).2 =
        match w.udpCandidate identity timeSync answered with
        | some candidate => (markLoadingReady candidate w₁).2
        | none => w₁ := by
    intro w₁
    unfold udpCandidate
    rcases timeSync with _ | _
    · rfl
    · rcases answered with _ | _
      · rcases w.loadingReadinessCandidate identity with _ | candidate
        · rfl
        · rfl
      · rcases w.loadingReadinessCandidate identity with _ | candidate
        · rfl
        · rfl
  unfold dispatchUdpIngress
  rw [Act.bind_of_ok (Act.get_eq_ok.2 ⟨rfl, rfl⟩)]
  rcases observedPort with _ | port
  · exact ⟨w, fun _ => rfl, rfl, rfl, hmark w⟩
  · obtain ⟨w₁, hport, hcourses, hidentities, hepoch⟩ := recordObservedP2pPort_eq identity port w
    refine ⟨w₁, hcourses, hidentities, hepoch, ?_⟩
    dsimp only
    rw [Act.bind_of_ok hport]
    exact hmark w₁

end World

end P5136
