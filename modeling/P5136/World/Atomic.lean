import P5136.World.Race

/-!
# Commands that fail change nothing

Every check, every packet and every reservation of a command comes before its first change, and what follows cannot fail.
-/

namespace P5136

namespace World

open Act

/-! ## Calls that change nothing -/

section

variable {ε α : Type}

theorem readOnly_orFail (o : Option α) (e : Fault ε) : ReadOnly (orFail o e) := readOnly_ofExcept _
theorem readOnly_protocolRoomId (identity : IdentityBinding) : ReadOnly (protocolRoomId identity) := readOnly_reads _
theorem readOnly_memberRoom (roomId : RoomId) : ReadOnly (memberRoom roomId : Act World (Fault ε) _) := readOnly_reads _
theorem readOnly_requireLobby (room : ProtocolRoomState) : ReadOnly (requireLobby room) := readOnly_require _ _
theorem readOnly_lobbyPacket (packet : Except LobbyProtocolError Packet) : ReadOnly (lobbyPacket packet) := readOnly_ofExcept _
theorem readOnly_slotDataPacket (room : ProtocolRoomState) : ReadOnly (slotDataPacket room) := readOnly_ofExcept _
theorem readOnly_roomSessions (room : ProtocolRoomState) : ReadOnly (roomSessions room) := readOnly_reads _
theorem readOnly_reserveOutbound (ds : List OutboundDelivery) : ReadOnly (reserveOutbound ds) := readOnly_reserve _ _
theorem readOnly_reserveRaceOutbound (ds : List OutboundDelivery) : ReadOnly (reserveRaceOutbound ds) := readOnly_reserve _ _
theorem readOnly_gameSlotCheck (r : Except RaceError α) : ReadOnly (gameSlotCheck r) := readOnly_ofExcept _
theorem readOnly_gameSlotRoom (roomId : RoomId) (detail : String) : ReadOnly (gameSlotRoom roomId detail) := readOnly_reads _
theorem readOnly_authorizedIdentity (U : Unicode) (session : SessionId) : ReadOnly (authorizedIdentity U session) :=
  readOnly_reads _

theorem readOnly_requireActiveRace (room : ProtocolRoomState) : ReadOnly (requireActiveRace room) := readOnly_require _ _

/-- The master of a lobby is only looked up. -/
theorem readOnly_requireLobbyMaster (room : ProtocolRoomState) (userNo : UserNo) :
    ReadOnly (requireLobbyMaster room userNo) :=
  (readOnly_requireLobby room).andThen fun _ =>
    (readOnly_orFail _ _).andThen fun _ => (readOnly_require _ _).andThen fun _ => readOnly_pure _

/-- A batch for a room is only made. -/
theorem readOnly_sameBatchForRoom (room : ProtocolRoomState) (batch : OutboundBatch) :
    ReadOnly (sameBatchForRoom room batch) :=
  (readOnly_roomSessions room).andThen fun _ => readOnly_pure _

/-- The batches of a requester and its room are only made. -/
theorem readOnly_requesterThenRoomSnapshot (room : ProtocolRoomState) (requester : UserNo) (p q : Packet) :
    ReadOnly (requesterThenRoomSnapshot room requester p q) :=
  (readOnly_roomSessions room).andThen fun _ => readOnly_pure _

/-- A change of the AIs is only made. -/
theorem readOnly_basicAiChange (room : ProtocolRoomState) (request : BasicAiRequest) (first second : RoomAi) :
    ReadOnly (basicAiChange room request first second) := by
  refine (readOnly_ofExcept _).andThen fun removed => ?_
  cases removed with
  | some change => exact (readOnly_lobbyPacket _).andThen fun _ => readOnly_pure _
  | none =>
    dsimp only
    split
    · exact readOnly_pure _
    · exact (readOnly_lobbyPacket _).andThen fun _ => readOnly_pure _

/-! ## Commits -/

theorem total_putRoom (roomId : RoomId) (room : ProtocolRoomState) : Total (putRoom roomId room : Act World (Fault ε) Unit) :=
  total_modify _

/-- A change of the world, the publication of a fan-out and a result do not fail. -/
theorem total_commit (f : World → World) (ds : List OutboundDelivery) (a : α) :
    Total (Act.modify f >>= fun _ => (publishReserved ds >>= fun _ => pure a) : Act World (Fault ε) α) :=
  (total_modify f).andThen fun _ => (total_publishReserved ds).andThen fun _ => total_pure a

/-- Nothing is changed before the reservation, and what follows it does not fail. -/
theorem atomic_reserveCommit (e : SessionId → ε) (f : World → World) (ds : List OutboundDelivery) (a : α) :
    Atomic (reserve e ds >>= fun _ => (Act.modify f >>= fun _ => (publishReserved ds >>= fun _ => pure a))) :=
  (readOnly_reserve e ds).bind_atomic fun _ => (total_commit f ds a).atomic

/-- A relay changes no room. -/
theorem atomic_reserveRelay (e : SessionId → ε) (ds : List OutboundDelivery) (a : α) :
    Atomic (reserve e ds >>= fun _ => (publishReserved ds >>= fun _ => pure a)) :=
  (readOnly_reserve e ds).bind_atomic fun _ =>
    ((total_publishReserved ds).andThen fun _ => total_pure a).atomic

end

/-! ## Lobby commands -/

theorem atomic_setSlotState (identity : IdentityBinding) (state : PlayerSlotState) : Atomic (setSlotState identity state) := by
  refine (readOnly_protocolRoomId identity).bind_atomic fun roomId => ?_
  refine (readOnly_memberRoom roomId).bind_atomic fun room => ?_
  refine (readOnly_requireLobby room).bind_atomic fun _ => ?_
  refine (readOnly_require _ _).bind_atomic fun _ => ?_
  refine (readOnly_require _ _).bind_atomic fun _ => ?_
  refine (readOnly_require _ _).bind_atomic fun _ => ?_
  refine (readOnly_orFail _ _).bind_atomic fun memberId => ?_
  refine (readOnly_lobbyPacket _).bind_atomic fun _ => ?_
  refine (readOnly_lobbyPacket _).bind_atomic fun _ => ?_
  refine (readOnly_slotDataPacket _).bind_atomic fun _ => ?_
  refine (readOnly_sameBatchForRoom _ _).bind_atomic fun deliveries => ?_
  exact atomic_reserveCommit _ _ deliveries _

theorem atomic_changeTeam (identity : IdentityBinding) (team : RoomTeam) : Atomic (changeTeam identity team) := by
  refine (readOnly_protocolRoomId identity).bind_atomic fun roomId => ?_
  refine (readOnly_memberRoom roomId).bind_atomic fun room => ?_
  refine (readOnly_requireLobby room).bind_atomic fun _ => ?_
  refine (readOnly_require _ _).bind_atomic fun _ => ?_
  refine (readOnly_orFail _ _).bind_atomic fun memberId => ?_
  refine (readOnly_orFail _ _).bind_atomic fun currentSlot => ?_
  refine (readOnly_orFail _ _).bind_atomic fun moved => ?_
  refine (readOnly_lobbyPacket _).bind_atomic fun _ => ?_
  refine (readOnly_slotDataPacket _).bind_atomic fun _ => ?_
  refine (readOnly_requesterThenRoomSnapshot _ _ _ _).bind_atomic fun deliveries => ?_
  exact atomic_reserveCommit _ _ deliveries _

theorem atomic_changeMaster (U : Unicode) (identity : IdentityBinding) (nickname : String) :
    Atomic (changeMaster U identity nickname) := by
  refine (readOnly_protocolRoomId identity).bind_atomic fun roomId => ?_
  refine (readOnly_memberRoom roomId).bind_atomic fun room => ?_
  refine (readOnly_requireLobby room).bind_atomic fun _ => ?_
  refine (readOnly_orFail _ _).bind_atomic fun requesterId => ?_
  refine (readOnly_require _ _).bind_atomic fun _ => ?_
  refine (readOnly_orFail _ _).bind_atomic fun targetId => ?_
  refine (readOnly_slotDataPacket _).bind_atomic fun _ => ?_
  refine (readOnly_sameBatchForRoom _ _).bind_atomic fun deliveries => ?_
  exact atomic_reserveCommit _ _ deliveries _

/-- What a master does to a room is atomic when what follows the check of the master is. -/
theorem atomic_ofMaster (identity : IdentityBinding) {k : RoomId → ProtocolRoomState → Int → LobbyAct LobbyCommandOutcome}
    (hk : ∀ roomId room playerId, Atomic (k roomId room playerId)) :
    Atomic (protocolRoomId identity >>= fun roomId => (memberRoom roomId >>= fun room =>
      (requireLobbyMaster room identity.userNo >>= fun playerId => k roomId room playerId))) := by
  refine (readOnly_protocolRoomId identity).bind_atomic fun roomId => ?_
  refine (readOnly_memberRoom roomId).bind_atomic fun room => ?_
  exact (readOnly_requireLobbyMaster room _).bind_atomic fun playerId => hk roomId room playerId

theorem atomic_changeTrack (identity : IdentityBinding) (request : ChangeTrackRequest) :
    Atomic (changeTrack identity request) := by
  refine atomic_ofMaster identity fun roomId room _ => ?_
  refine (readOnly_slotDataPacket _).bind_atomic fun _ => ?_
  refine (readOnly_sameBatchForRoom _ _).bind_atomic fun deliveries => ?_
  exact atomic_reserveCommit _ _ deliveries _

theorem atomic_changeBasicAi (identity : IdentityBinding) (request : BasicAiRequest) (first second : RoomAi) :
    Atomic (changeBasicAi identity request first second) := by
  refine atomic_ofMaster identity fun roomId room _ => ?_
  refine (readOnly_basicAiChange _ _ _ _).bind_atomic fun change => ?_
  refine (readOnly_sameBatchForRoom _ _).bind_atomic fun deliveries => ?_
  exact atomic_reserveCommit _ _ deliveries _

theorem atomic_changeClosedSlots (identity : IdentityBinding) (request : CloseSlotRequest) :
    Atomic (changeClosedSlots identity request) := by
  refine atomic_ofMaster identity fun roomId room _ => ?_
  refine (readOnly_lobbyPacket _).bind_atomic fun _ => ?_
  refine (readOnly_sameBatchForRoom _ _).bind_atomic fun deliveries => ?_
  exact atomic_reserveCommit _ _ deliveries _

theorem atomic_changeRoomInfo (identity : IdentityBinding) (request : ChangeRoomInfoRequest) :
    Atomic (changeRoomInfo identity request) := by
  refine atomic_ofMaster identity fun roomId room _ => ?_
  refine (readOnly_lobbyPacket _).bind_atomic fun _ => ?_
  refine (readOnly_sameBatchForRoom _ _).bind_atomic fun deliveries => ?_
  exact atomic_reserveCommit _ _ deliveries _

theorem atomic_kickPlayer (identity : IdentityBinding) (targetPlayerId : Int) :
    Atomic (kickPlayer identity targetPlayerId) := by
  refine atomic_ofMaster identity fun roomId room _ => ?_
  refine (readOnly_orFail _ _).bind_atomic fun target => ?_
  refine (readOnly_reads _).bind_atomic fun targetIdentity => ?_
  refine (readOnly_lobbyPacket _).bind_atomic fun _ => ?_
  refine (readOnly_slotDataPacket _).bind_atomic fun _ => ?_
  refine (readOnly_roomSessions _).bind_atomic fun sessions => ?_
  refine (readOnly_reserveOutbound _).bind_atomic fun _ => ?_
  refine (readOnly_require _ _).bind_atomic fun _ => ?_
  exact (total_commit _ _ _).atomic

theorem atomic_relayRiderTalk (identity : IdentityBinding) (message : String) : Atomic (relayRiderTalk identity message) := by
  refine (readOnly_protocolRoomId identity).bind_atomic fun roomId => ?_
  refine (readOnly_memberRoom roomId).bind_atomic fun room => ?_
  refine (readOnly_orFail _ _).bind_atomic fun playerId => ?_
  refine (readOnly_lobbyPacket _).bind_atomic fun _ => ?_
  refine (readOnly_roomSessions _).bind_atomic fun sessions => ?_
  exact atomic_reserveRelay _ _ _

theorem atomic_relayMacroChat (identity : IdentityBinding) (request : MacroChatRequest) (message : String) :
    Atomic (relayMacroChat identity request message) := by
  refine (readOnly_protocolRoomId identity).bind_atomic fun roomId => ?_
  refine (readOnly_memberRoom roomId).bind_atomic fun room => ?_
  refine (readOnly_orFail _ _).bind_atomic fun sender => ?_
  refine (readOnly_lobbyPacket _).bind_atomic fun _ => ?_
  refine (readOnly_roomSessions _).bind_atomic fun sessions => ?_
  exact atomic_reserveRelay _ _ _

theorem atomic_startRoom (identity : IdentityBinding) (plan : StartRoomPlan) (draw : Nat) :
    Atomic (startRoom identity plan draw) := by
  refine readOnly_get.bind_atomic fun w => ?_
  refine (readOnly_require _ _).bind_atomic fun _ => ?_
  refine (readOnly_protocolRoomId identity).bind_atomic fun roomId => ?_
  refine (readOnly_memberRoom roomId).bind_atomic fun room => ?_
  refine (readOnly_requireLobbyMaster room _).bind_atomic fun requester => ?_
  refine (readOnly_require _ _).bind_atomic fun _ => ?_
  refine (readOnly_ofExcept _).bind_atomic fun racerCount => ?_
  refine (readOnly_orFail _ _).bind_atomic fun raceEpoch => ?_
  refine (readOnly_ofExcept _).bind_atomic fun selected => ?_
  refine (readOnly_ofExcept _).bind_atomic fun frozen => ?_
  refine (readOnly_ofExcept _).bind_atomic fun deliveries => ?_
  exact atomic_reserveCommit _ _ deliveries _

/-! ## Race commands -/

theorem atomic_armLoading (roomId : RoomId) (identity : IdentityBinding) (now : Instant) :
    Atomic (armLoading roomId identity now) := by
  refine (readOnly_memberRoom roomId).bind_atomic fun room => ?_
  refine (readOnly_require _ _).bind_atomic fun _ => ?_
  refine (readOnly_orFail _ _).bind_atomic fun frozen => ?_
  refine (readOnly_orFail _ _).bind_atomic fun _ => ?_
  split
  · exact (total_pure _).atomic
  · refine (readOnly_orFail _ _).bind_atomic fun deadline => ?_
    exact ((total_putRoom _ _).andThen fun _ => total_pure _).atomic

/-- A flush returns when the room is there with its roster: a missing queue is no failure of it. -/
theorem tryFlushPendingRaceFanouts_ok {ε : Type} {w : World} {roomId : RoomId} {room : ProtocolRoomState}
    {frozen : FrozenRaceRoster} (hroom : w.protocolRooms.lookup roomId = some room) (hfrozen : room.frozenRace = some frozen) :
    ∃ flushed w', (tryFlushPendingRaceFanouts roomId : Act World (Fault ε) Bool) w = (.ok flushed, w') := by
  unfold tryFlushPendingRaceFanouts
  simp only [bind_eq_ok, reads_eq_ok, Checks.orElse_eq_ok, hroom]
  by_cases hp : room.raceProgress.pendingFanouts = []
  · exact ⟨true, w, room, w, ⟨rfl, rfl⟩, by rw [if_pos hp]; rfl⟩
  · cases hr : reserveFrom w.sessions [] (flushDeliveries room.raceProgress.pendingFanouts
        (w.activeFrozenRecipientSessions room frozen)) with
    | error session =>
      refine ⟨false, w, room, w, ⟨rfl, rfl⟩, ?_⟩
      rw [if_neg hp]
      simp [bind_eq_ok, orFail, hfrozen, hr]
    | ok x =>
      refine ⟨true, (w.withFlushed roomId room frozen (w.activeFrozenRecipientSessions room frozen)).published
        (flushDeliveries room.raceProgress.pendingFanouts (w.activeFrozenRecipientSessions room frozen)), room, w,
        ⟨rfl, rfl⟩, ?_⟩
      rw [if_neg hp]
      simp [bind_eq_ok, orFail, hfrozen, hr, publishReserved]

/-- `record_finish` leaves everything as it was when it fails, in a room with a roster. The source looks the roster up again
after the finish is recorded; it is still there. -/
theorem recordFinish_error {w w' : World} {roomId : RoomId} {playerId : Int} {raceTime : Nat} {user : Option UserNo}
    {now : Instant} {tick : Nat} {e : Fault RaceError} {room : ProtocolRoomState} {frozen : FrozenRaceRoster}
    (hroom : w.protocolRooms.lookup roomId = some room) (hfrozen : room.frozenRace = some frozen)
    (h : recordFinish roomId playerId raceTime user now tick w = (.error e, w')) : w' = w := by
  unfold recordFinish at h
  rw [bind_eq_error] at h
  rcases h with h | ⟨_, _, ha, h⟩
  · exact (readOnly_memberRoom roomId).atomic _ _ _ h
  obtain ⟨hr, rfl⟩ := reads_eq_ok.1 ha
  rw [Checks.orElse_eq_ok, hroom] at hr
  cases hr
  rw [bind_eq_error] at h
  rcases h with h | ⟨_, _, ha, h⟩
  · exact (readOnly_require _ _).atomic _ _ _ h
  obtain ⟨-, rfl⟩ := require_eq_ok.1 ha
  split at h
  · exact ((readOnly_orFail _ _).bind_atomic fun _ => (total_pure _).atomic) _ _ _ h
  rw [bind_eq_error] at h
  rcases h with h | ⟨settlement, _, ha, h⟩
  · split at h
    · exact (readOnly_orFail _ _).atomic _ _ _ h
    · exact (readOnly_pure _).atomic _ _ _ h
  have hsame : ∀ {s t : World} {a : Option SettlementState},
      (if room.phase = .running then
          (orFail ((SettlementState.begun now tick).map some) (.error .settlementDeadlineOverflow) : RaceAct _)
        else pure none) s = (.ok a, t) → s = t := by
    intro s t a hs
    split at hs
    · exact (ofExcept_eq_ok.1 hs).2
    · exact (pure_eq_ok.1 hs).2
  cases hsame ha
  rw [bind_eq_error] at h
  rcases h with h | ⟨packet, _, ha, h⟩
  · exact (readOnly_ofExcept _).atomic _ _ _ h
  obtain ⟨-, rfl⟩ := ofExcept_eq_ok.1 ha
  rw [bind_eq_error] at h
  rcases h with h | ⟨_, _, ha, h⟩
  · exact (readOnly_require _ _).atomic _ _ _ h
  obtain ⟨-, rfl⟩ := require_eq_ok.1 ha
  -- Nothing fails from here on: the roster and the room are there.
  rw [bind_eq_error] at h
  rcases h with h | ⟨_, _, ha, h⟩
  · cases h
  cases modify_eq_ok.1 ha
  rw [bind_eq_error] at h
  rcases h with h | ⟨_, _, ha, h⟩
  · simp [orFail, Act.ofExcept, hfrozen, Checks.orElse] at h
  obtain ⟨-, rfl⟩ := ofExcept_eq_ok.1 ha
  rw [bind_eq_error] at h
  rcases h with h | ⟨_, _, ha, h⟩
  · have hnext : (finishedRoom room playerId raceTime settlement
        (finishFanout playerId raceTime packet settlement user)).frozenRace = some frozen := hfrozen
    have hlook := lookup_withRoom_self w roomId (finishedRoom room playerId raceTime settlement
      (finishFanout playerId raceTime packet settlement user))
    rw [← withFinished_protocolRooms w roomId _ (finishFanout playerId raceTime packet settlement user) now] at hlook
    obtain ⟨flushed, v, hok⟩ := tryFlushPendingRaceFanouts_ok hlook hnext
    rw [hok] at h
    cases h
  · cases h

/-- A finish that is recorded for a participant of the roster is atomic. -/
theorem atomic_ofRoster {roomId : RoomId} {k : ProtocolRoomState → FrozenRaceRoster → RaceAct RaceCommandOutcome}
    {e : Fault RaceError}
    (hk : ∀ w w' room frozen e', w.protocolRooms.lookup roomId = some room → room.frozenRace = some frozen →
      k room frozen w = (.error e', w') → w' = w) :
    Atomic (memberRoom roomId >>= fun room => (requireActiveRace room >>= fun _ =>
      (orFail room.frozenRace e >>= fun frozen => k room frozen))) := by
  refine (readOnly_memberRoom roomId).bind fun w room hroom => ?_
  obtain ⟨hr, -⟩ := reads_eq_ok.1 hroom
  rw [Checks.orElse_eq_ok] at hr
  intro e' w' h
  rw [bind_eq_error] at h
  rcases h with h | ⟨_, _, ha, h⟩
  · exact (readOnly_requireActiveRace room).atomic _ _ _ h
  obtain ⟨-, rfl⟩ := require_eq_ok.1 ha
  rw [bind_eq_error] at h
  rcases h with h | ⟨frozen, _, ha, h⟩
  · exact (readOnly_orFail _ _).atomic _ _ _ h
  obtain ⟨hf, rfl⟩ := ofExcept_eq_ok.1 ha
  exact hk w w' room frozen e' hr (Checks.orElse_eq_ok.1 hf) h

theorem atomic_recordHumanFinish (roomId : RoomId) (identity : IdentityBinding) (raceTime : Nat) (now : Instant)
    (tick : Nat) : Atomic (recordHumanFinish roomId identity raceTime now tick) := by
  refine atomic_ofRoster fun w w' room frozen e hroom hfrozen h => ?_
  rw [bind_eq_error] at h
  rcases h with h | ⟨participant, _, ha, h⟩
  · exact (readOnly_orFail _ _).atomic _ _ _ h
  obtain ⟨-, rfl⟩ := ofExcept_eq_ok.1 ha
  rw [bind_eq_error] at h
  rcases h with h | ⟨_, _, ha, h⟩
  · exact (readOnly_require _ _).atomic _ _ _ h
  obtain ⟨-, rfl⟩ := require_eq_ok.1 ha
  exact recordFinish_error hroom hfrozen h

theorem atomic_recordAiFinish (roomId : RoomId) (identity : IdentityBinding) (request : AiGoalInRequest) (now : Instant)
    (tick : Nat) : Atomic (recordAiFinish roomId identity request now tick) := by
  refine atomic_ofRoster fun w w' room frozen e hroom hfrozen h => ?_
  rw [bind_eq_error] at h
  rcases h with h | ⟨_, _, ha, h⟩
  · exact (readOnly_orFail _ _).atomic _ _ _ h
  obtain ⟨-, rfl⟩ := ofExcept_eq_ok.1 ha
  rw [bind_eq_error] at h
  rcases h with h | ⟨_, _, ha, h⟩
  · exact (readOnly_require _ _).atomic _ _ _ h
  obtain ⟨-, rfl⟩ := require_eq_ok.1 ha
  exact recordFinish_error hroom hfrozen h

theorem atomic_updateTeamBooster (roomId : RoomId) (identity : IdentityBinding) (request : TeamBoosterGaugeRequest) :
    Atomic (updateTeamBooster roomId identity request) := by
  refine (readOnly_memberRoom roomId).bind_atomic fun room => ?_
  refine (readOnly_require _ _).bind_atomic fun _ => ?_
  refine (readOnly_require _ _).bind_atomic fun _ => ?_
  refine (readOnly_orFail _ _).bind_atomic fun frozen => ?_
  refine (readOnly_orFail _ _).bind_atomic fun sender => ?_
  refine (readOnly_require _ _).bind_atomic fun _ => ?_
  refine (readOnly_ofExcept _).bind_atomic fun senderTeam => ?_
  refine (readOnly_require _ _).bind_atomic fun _ => ?_
  refine (readOnly_ofExcept _).bind_atomic fun packet => ?_
  refine readOnly_get.bind_atomic fun w => ?_
  exact atomic_reserveCommit _ _ _ _

/-- A commit of race objects is atomic. -/
theorem atomic_commitObjects (roomId : RoomId) (room : ProtocolRoomState) (mutation : Option RaceObjectMutation) :
    Atomic (commitObjects roomId room mutation) := by
  cases mutation with
  | none => exact (total_pure _).atomic
  | some m =>
    unfold commitObjects
    dsimp only
    split
    · exact (readOnly_fail _).atomic
    · exact (total_putRoom _ _).atomic

/-- `publish_game_slot_relay` is atomic: the commit of the objects fails before anything is queued. -/
theorem atomic_publishGameSlotRelay (roomId : RoomId) (identity : IdentityBinding) (audience : GameSlotRelayAudience)
    (mask : Nat) (raw : List UInt8) (mutation : Option RaceObjectMutation) :
    Atomic (publishGameSlotRelay roomId identity audience mask raw mutation) := by
  refine (readOnly_gameSlotRoom _ _).bind_atomic fun room => ?_
  refine (readOnly_orFail _ _).bind_atomic fun frozen => ?_
  refine readOnly_get.bind_atomic fun w => ?_
  refine (readOnly_gameSlotCheck _).bind_atomic fun deliveries => ?_
  refine (readOnly_reserveRaceOutbound _).bind_atomic fun _ => ?_
  refine (atomic_commitObjects roomId room mutation).bind_total fun _ => ?_
  exact (total_publishReserved deliveries).andThen fun _ => total_pure _

theorem atomic_synthesizeItemPickup (items : ItemService) (roomId : RoomId) (identity : IdentityBinding)
    (senderPlayerId : Int) (packet : ParsedGameSlotPacket) (now : Instant) :
    Atomic (synthesizeItemPickup items roomId identity senderPlayerId packet now) := by
  refine (readOnly_gameSlotCheck _).bind_atomic fun pickup => ?_
  refine (readOnly_gameSlotRoom _ _).bind_atomic fun room => ?_
  refine (readOnly_gameSlotCheck _).bind_atomic fun teamMode => ?_
  refine (readOnly_orFail _ _).bind_atomic fun frozen => ?_
  refine (readOnly_orFail _ _).bind_atomic fun sender => ?_
  refine (readOnly_require _ _).bind_atomic fun _ => ?_
  refine (readOnly_orFail _ _).bind_atomic fun loadout => ?_
  refine (readOnly_gameSlotCheck _).bind_atomic fun admission => ?_
  refine (readOnly_gameSlotCheck _).bind_atomic fun award => ?_
  refine (readOnly_gameSlotCheck _).bind_atomic fun raw => ?_
  refine readOnly_get.bind_atomic fun w => ?_
  exact atomic_reserveCommit _ _ _ _

theorem atomic_relayGameSlot (items : ItemService) (roomId : RoomId) (identity : IdentityBinding)
    (packet : ParsedGameSlotPacket) (now : Instant) : Atomic (relayGameSlot items roomId identity packet now) := by
  refine (readOnly_gameSlotRoom _ _).bind_atomic fun room => ?_
  refine (readOnly_gameSlotCheck _).bind_atomic fun _ => ?_
  refine (readOnly_gameSlotCheck _).bind_atomic fun active => ?_
  refine (readOnly_gameSlotCheck _).bind_atomic fun admission => ?_
  cases packet.action with
  | consumeNoReply => exact (total_pure _).atomic
  | synthesizeItemPickup => exact atomic_synthesizeItemPickup items _ identity _ packet now
  | evidencePending reason => exact (total_pure _).atomic
  | relayOriginal audience =>
    refine readOnly_get.bind_atomic fun w => ?_
    refine (readOnly_gameSlotCheck _).bind_atomic fun expected => ?_
    refine (readOnly_require _ _).bind_atomic fun _ => ?_
    split
    · exact (total_pure _).atomic
    · exact (atomic_publishGameSlotRelay _ _ _ _ _ _).bind_total fun _ => total_pure _
    · exact (atomic_publishGameSlotRelay _ _ _ _ _ _).bind_total fun _ => total_pure _

/-! ## The commands together -/

/-- A race command is atomic. -/
theorem atomic_raceCommand (U : Unicode) (items : ItemService) (session : SessionId) (payload : RaceCommandPayload)
    (now : Instant) (tick : Nat) : Atomic (raceCommand U items session payload now tick) := by
  refine (readOnly_authorizedIdentity U session).bind_atomic fun identity => ?_
  refine (readOnly_reads _).bind_atomic fun roomId => ?_
  refine Atomic.mapError ?_
  cases payload with
  | gameControl request =>
    unfold raceDispatch
    dsimp only
    split
    · exact atomic_armLoading roomId identity now
    · split
      · exact atomic_recordHumanFinish roomId identity request.value0 now tick
      · exact (readOnly_fail _).atomic
  | aiGoalIn request => exact atomic_recordAiFinish roomId identity request now tick
  | teamBoosterGauge request => exact atomic_updateTeamBooster roomId identity request
  | gameSlot packet => exact atomic_relayGameSlot items roomId identity packet now

/-- A lobby command that is no start is atomic. -/
theorem atomic_lobbyDispatch (U : Unicode) (session : SessionId) (identity : IdentityBinding)
    (payload : LobbyCommandPayload) (h : ∀ plan draw, payload ≠ .startRoom plan draw) :
    Atomic (lobbyDispatch U session identity payload) := by
  cases payload with
  | setSlotState state => exact atomic_setSlotState identity state
  | changeTeam team => exact atomic_changeTeam identity team
  | changeMaster nickname => exact atomic_changeMaster U identity nickname
  | startRoom plan draw => exact absurd rfl (h plan draw)
  | changeTrack request => exact atomic_changeTrack identity request
  | basicAi request first second => exact atomic_changeBasicAi identity request first second
  | closeSlot request => exact atomic_changeClosedSlots identity request
  | riderTalk message => exact atomic_relayRiderTalk identity message
  | macroChat request message => exact atomic_relayMacroChat identity request message
  | changeRoomInfo request => exact atomic_changeRoomInfo identity request
  | kick targetPlayerId => exact atomic_kickPlayer identity targetPlayerId

end World

end P5136
