import P5136.World.RoomStirs

/-!
# How rooms change as races load, run and settle

The race commands, the rewards of a settlement and heartbeats change the rooms in the listed ways only.
-/

namespace P5136

namespace World

open Act LeadsFrom

variable {calm : Bool} {w w' : World} {roomId : RoomId} {room next : ProtocolRoomState}

/-! ## Loading -/

/-- A candidate that is marked is one that its race still waits for. -/
theorem edit_readyRoom {candidate : LoadingReadinessCandidate} (h : w.readyRoom candidate = some next) :
    ∃ room, Found candidate.roomId room w ∧ Edit false room next := by
  unfold readyRoom at h
  obtain ⟨active, -, h⟩ := Option.bind_eq_some_iff.1 h
  obtain ⟨_, -, h⟩ := Option.bind_eq_some_iff.1 h
  obtain ⟨room, hfound, h⟩ := Option.bind_eq_some_iff.1 h
  obtain ⟨_, hroom, h⟩ := Option.bind_eq_some_iff.1 h
  obtain ⟨frozen, -, h⟩ := Option.bind_eq_some_iff.1 h
  obtain ⟨_, -, h⟩ := Option.bind_eq_some_iff.1 h
  obtain ⟨hphase, -⟩ : room.phase = .loading ∧ room.raceFence.map (·.raceEpoch) = some candidate.raceEpoch := by
    simpa [guard] using hroom
  rcases hhandshake : room.loadingHandshake with _ | ⟨expected, ready, deadline⟩ | _
  · simp only [hhandshake] at h
    cases h
  · simp only [hhandshake] at h
    split at h
    · rename_i hexpected
      obtain rfl := Option.some.inj h
      exact ⟨room, hfound, .marked hphase hhandshake hexpected⟩
    · cases h
  · simp only [hhandshake] at h
    cases h

theorem stirs_markLoadingReady (candidate : LoadingReadinessCandidate) :
    Leads (Stirs false) (markLoadingReady candidate) := by
  refine Act.leads_modify fun w => ?_
  split
  · rename_i next hready
    obtain ⟨room, hfound, hedit⟩ := edit_readyRoom hready
    exact Stirs.edit1 hfound hedit
  · exact stirs_refl w

theorem stirs_dispatchUdpIngress (identity : IdentityBinding) (observedPort : Option UInt16) (timeSync answered : Bool) :
    Leads (Stirs false) (dispatchUdpIngress identity observedPort timeSync answered) := by
  refine leads (behindGet fun w _ => Leads.from ?_)
  have hmark : ∀ candidate, Leads (Stirs false) (if answered = true then markLoadingReady candidate
      else pure () : WorldAct Unit) := by
    intro candidate
    split
    · exact stirs_markLoadingReady candidate
    · exact stirs_pure _
  rcases observedPort with _ | port
  · dsimp only
    split
    · exact hmark _
    · exact stirs_pure _
  · refine stirs_bind (stirs_recordObservedP2pPort identity port) fun _ => ?_
    split
    · exact hmark _
    · exact stirs_pure _

theorem stirs_armLoading (roomId : RoomId) (identity : IdentityBinding) (now : Instant) :
    Leads (Stirs false) (armLoading roomId identity now) := by
  refine leads (withMemberRoom fun room => behindGuard fun hphase => ?_)
  refine behindSome fun frozen hfrozen => pass (readOnly_orFail _ _) fun _ => ?_
  split
  · exact (stirs_pure _).from
  · rename_i harmed
    have hdormant : room.loadingHandshake = .dormant := by
      rcases hhandshake : room.loadingHandshake with _ | _ | _
      · rfl
      · rw [hhandshake] at harmed
        exact absurd rfl harmed
      · rw [hhandshake] at harmed
        exact absurd rfl harmed
    refine pass (readOnly_orFail _ _) fun deadline => bind stirs_trans ?_ fun _ => stirs_pure _
    exact Act.leadsFrom_modify fun w hw => Stirs.edit1 hw (.armed hphase hfrozen hdormant)

/-! ## Pending fan-outs -/

theorem stirs_tryFlushPendingRaceFanouts {ε : Type} (roomId : RoomId) :
    Leads (Stirs calm) (tryFlushPendingRaceFanouts roomId : Act World (Fault ε) Bool) := by
  refine leads ((readOnly_reads _).leadsFrom stirs_refl fun room => ?_)
  refine mono (Q := Found roomId room) ?_ (fun w hw => Checks.orElse_eq_ok.1 (Act.reads_eq_ok.1 hw.2).1)
  split
  · exact (stirs_pure _).from
  · rename_i hpending
    refine behindSome fun frozen hfrozen => behindGet fun w hfound => ?_
    dsimp only
    split
    · exact (stirs_pure _).from
    · refine bind stirs_trans (Act.leadsFrom_modify fun s hs => ?_) fun _ => ?_
      · subst hs
        exact .single (.flushed hfound hfrozen hpending)
      · exact stirs_bind (stirs_publishReserved _) fun _ => stirs_pure _

/-- Once everything pending is told, nothing is pending. -/
theorem nothing_pending {ε : Type} (h : (tryFlushPendingRaceFanouts roomId : Act World (Fault ε) Bool) w = (.ok true, w'))
    (hfound : Found roomId room w') : room.raceProgress.pendingFanouts = [] := by
  obtain ⟨before, _, hread, h⟩ := Act.bind_eq_ok.1 h
  obtain ⟨hbefore, rfl⟩ := Act.reads_eq_ok.1 hread
  have hfoundBefore : Found roomId before w := Checks.orElse_eq_ok.1 hbefore
  split at h
  · rename_i hnone
    obtain ⟨-, rfl⟩ := Act.pure_eq_ok.1 h
    obtain rfl := Option.some.inj (hfound.symm.trans hfoundBefore)
    exact hnone
  · obtain ⟨frozen, _, hfrozen, h⟩ := Act.bind_eq_ok.1 h
    rw [(readOnly_orFail _ _).eq_of hfrozen] at h
    obtain ⟨s, _, hget, h⟩ := Act.bind_eq_ok.1 h
    obtain ⟨rfl, rfl⟩ := Act.get_eq_ok.1 hget
    rcases hreserve : reserveFrom w.sessions [] (flushDeliveries before.raceProgress.pendingFanouts
      (w.activeFrozenRecipientSessions before frozen)) with _ | _
    · simp only [hreserve] at h
      obtain ⟨htrue, -⟩ := Act.pure_eq_ok.1 h
      cases htrue
    · simp only [hreserve] at h
      obtain ⟨_, w₁, hflushed, h⟩ := Act.bind_eq_ok.1 h
      obtain ⟨_, w₂, hpublished, h⟩ := Act.bind_eq_ok.1 h
      obtain ⟨-, rfl⟩ := Act.pure_eq_ok.1 h
      obtain rfl := Act.modify_eq_ok.1 hflushed
      obtain rfl := Act.modify_eq_ok.1 hpublished
      have hself : Found roomId (flushedRoom before) (w.withRoom roomId (flushedRoom before)) := lookup_withRoom_self w roomId _
      obtain rfl := Option.some.inj (hfound.symm.trans hself)
      rfl

/-! ## Finishes -/

/-- A value is passed on. -/
theorem passPure {ε α β : Type} {P : World → Prop} {a : α} {k : α → Act World (Fault ε) β}
    (hk : LeadsFrom P (Stirs calm) (k a)) : LeadsFrom P (Stirs calm) (pure a >>= k) := hk

/-- The end of a finish: it is recorded, and what is pending is flushed. -/
theorem stirs_finish {playerId : Int} {raceTime : Nat} {settlement : Option SettlementState} {fanout : PendingRaceFanout}
    {now : Instant} {outcome : FrozenRaceRoster → RaceCommandOutcome} {e : Fault RaceError}
    (h : Finishes room playerId raceTime settlement fanout now) :
    LeadsFrom (Found roomId room) (Stirs calm) (do
      Act.modify (fun w => w.withFinished roomId (finishedRoom room playerId raceTime settlement fanout) fanout now)
      let frozen ← orFail room.frozenRace e
      let _ ← tryFlushPendingRaceFanouts roomId
      pure (outcome frozen) : RaceAct RaceCommandOutcome) := by
  refine bind stirs_trans (Act.leadsFrom_modify fun w hw => .single (.finished hw h)) fun _ => ?_
  refine stirs_bind ((readOnly_orFail _ _).leads stirs_refl) fun _ => ?_
  exact stirs_bind (stirs_tryFlushPendingRaceFanouts roomId) fun _ => stirs_pure _

theorem stirs_recordFinish (roomId : RoomId) (playerId : Int) (raceTime : Nat) (excludeBeginFor : Option UserNo)
    (now : Instant) (tick : Nat) (hphase : room.phase = .running ∨ room.phase = .settling)
    (hracer : ∃ roster, room.frozenRace = some roster ∧ playerId ∈ roster.racerIds) :
    LeadsFrom (Found roomId room) (Stirs calm) (recordFinish roomId playerId raceTime excludeBeginFor now tick) := by
  refine (readOnly_memberRoom roomId).leadsFrom stirs_refl fun room' w hw => ?_
  obtain ⟨hfound, hroom⟩ := hw
  obtain rfl : room' = room := by
    have hsame := Checks.orElse_eq_ok.1 (Act.reads_eq_ok.1 hroom).1
    rw [show w.protocolRooms.lookup roomId = some room from hfound] at hsame
    exact (Option.some.inj hsame).symm
  refine (behindGuard fun hopen => ?_ : LeadsFrom (Found roomId room') (Stirs calm) _) w hfound
  split
  · exact pass (readOnly_orFail _ _) fun _ => (stirs_pure _).from
  · rename_i hnew
    rw [Bool.not_eq_true, Option.isSome_eq_false_iff, Option.isNone_iff_eq_none] at hnew
    split
    · rename_i hrun
      refine behindSome fun settlement hsettlement => behindOk fun packet hpacket => ?_
      refine behindGuard fun hplace => stirs_finish ⟨hphase, hopen, hracer, hnew, ?_, hplace, ?_⟩
      · obtain ⟨begun, hbegun, rfl⟩ := Option.map_eq_some_iff.1 hsettlement
        rw [if_pos hrun]
        exact ⟨tick, begun, hbegun, rfl⟩
      · exact ⟨packet, excludeBeginFor, Checks.mapError_eq_ok.1 hpacket, rfl⟩
    · rename_i hrun
      refine passPure (behindOk fun packet hpacket => ?_)
      refine behindGuard fun hplace => stirs_finish ⟨hphase, hopen, hracer, hnew, ?_, hplace, ?_⟩
      · rw [if_neg hrun]
      · exact ⟨packet, excludeBeginFor, Checks.mapError_eq_ok.1 hpacket, rfl⟩

/-- Behind the check of a race it is on. -/
theorem behindActive {β : Type} {P : World → Prop} {k : Unit → RaceAct β}
    (hk : (room.phase = .running ∨ room.phase = .settling) → LeadsFrom P (Stirs calm) (k ())) :
    LeadsFrom P (Stirs calm) (requireActiveRace room >>= k) := behindGuard hk

/-- A participant that races is one of the racers. -/
theorem mem_racerIds_of_participantOf {roster : FrozenRaceRoster} {identity : IdentityBinding}
    {participant : FrozenRaceParticipant} (h : roster.participantOf identity = some participant)
    (hracer : participant.observer = false) : participant.playerId ∈ roster.racerIds := by
  unfold FrozenRaceRoster.racerIds FrozenRaceRoster.racers
  refine List.mem_append_left _ (List.mem_map_of_mem (List.mem_filter.2 ⟨List.mem_of_find?_eq_some h, ?_⟩))
  rw [hracer]
  rfl

theorem stirs_recordHumanFinish (roomId : RoomId) (identity : IdentityBinding) (raceTime : Nat) (now : Instant) (tick : Nat) :
    Leads (Stirs calm) (recordHumanFinish roomId identity raceTime now tick) := by
  refine leads (withMemberRoom fun room => behindActive fun hphase => ?_)
  refine behindSome fun frozen hfrozen => behindSome fun participant hparticipant => ?_
  refine behindGuard fun hracer => ?_
  exact stirs_recordFinish roomId participant.playerId raceTime _ now tick hphase
    ⟨frozen, hfrozen, mem_racerIds_of_participantOf hparticipant hracer⟩

theorem stirs_recordAiFinish (roomId : RoomId) (identity : IdentityBinding) (request : AiGoalInRequest) (now : Instant)
    (tick : Nat) : Leads (Stirs calm) (recordAiFinish roomId identity request now tick) := by
  refine leads (withMemberRoom fun room => behindActive fun hphase => ?_)
  refine behindSome fun frozen hfrozen => pass (readOnly_orFail _ _) fun _ => behindGuard fun hai => ?_
  exact stirs_recordFinish roomId request.playerId request.raceTime _ now tick hphase
    ⟨frozen, hfrozen, List.mem_append_right _ hai⟩

/-! ## Gauges and game slots -/

theorem stirs_updateTeamBooster (roomId : RoomId) (identity : IdentityBinding) (request : TeamBoosterGaugeRequest) :
    Leads (Stirs calm) (updateTeamBooster roomId identity request) := by
  refine leads (withMemberRoom fun room => behindGuard fun hphase => ?_)
  refine pass (readOnly_require _ _) fun _ => pass (readOnly_orFail _ _) fun frozen => ?_
  refine pass (readOnly_orFail _ _) fun sender => pass (readOnly_require _ _) fun _ => ?_
  refine pass (readOnly_ofExcept _) fun _ => pass (readOnly_require _ _) fun _ => ?_
  refine pass (readOnly_ofExcept _) fun _ => pass readOnly_get fun _ => ?_
  refine pass (readOnly_reserveRaceOutbound _) fun _ => ?_
  exact commit (.single (.gauged request.team _ hphase))

/-- The room of a game-slot packet, once it is looked up. -/
theorem withGameSlotRoom {β : Type} {P : World → Prop} {detail : String} {k : ProtocolRoomState → RaceAct β}
    (hk : ∀ room, LeadsFrom (Found roomId room) (Stirs calm) (k room)) :
    LeadsFrom P (Stirs calm) (gameSlotRoom roomId detail >>= k) := by
  refine (readOnly_gameSlotRoom roomId detail).leadsFrom stirs_refl fun room => (hk room).mono ?_
  rintro w ⟨-, hw⟩
  exact Checks.orElse_eq_ok.1 (Act.reads_eq_ok.1 hw).1

theorem stirs_commitObjects (roomId : RoomId) (room : ProtocolRoomState) (mutation : Option RaceObjectMutation) :
    LeadsFrom (Found roomId room) (Stirs calm) (commitObjects roomId room mutation) := by
  unfold commitObjects
  split
  · exact (stirs_pure _).from
  · dsimp only
    split
    · exact (stirs_fail _).from
    · exact Act.leadsFrom_modify fun w hw => Stirs.edit1 hw (.objects _)

theorem stirs_publishGameSlotRelay (roomId : RoomId) (identity : IdentityBinding) (audience : GameSlotRelayAudience)
    (mask : Nat) (raw : List UInt8) (mutation : Option RaceObjectMutation) :
    Leads (Stirs calm) (publishGameSlotRelay roomId identity audience mask raw mutation) := by
  refine leads (withGameSlotRoom fun room => pass (readOnly_orFail _ _) fun frozen => ?_)
  refine pass readOnly_get fun _ => pass (readOnly_gameSlotCheck _) fun _ => ?_
  refine pass (readOnly_reserveRaceOutbound _) fun _ => ?_
  refine bind stirs_trans (stirs_commitObjects roomId room mutation) fun _ => ?_
  exact stirs_bind (stirs_publishReserved _) fun _ => stirs_pure _

theorem stirs_synthesizeItemPickup (items : ItemService) (roomId : RoomId) (identity : IdentityBinding)
    (senderPlayerId : Int) (packet : ParsedGameSlotPacket) (now : Instant) :
    Leads (Stirs calm) (synthesizeItemPickup items roomId identity senderPlayerId packet now) := by
  refine leads (pass (readOnly_gameSlotCheck _) fun pickup => withGameSlotRoom fun room => ?_)
  refine pass (readOnly_gameSlotCheck _) fun teamMode => pass (readOnly_orFail _ _) fun frozen => ?_
  refine pass (readOnly_orFail _ _) fun sender => pass (readOnly_require _ _) fun _ => ?_
  refine pass (readOnly_orFail _ _) fun loadout => pass (readOnly_gameSlotCheck _) fun admission => ?_
  refine pass (readOnly_gameSlotCheck _) fun award => pass (readOnly_gameSlotCheck _) fun raw => ?_
  refine pass readOnly_get fun _ => pass (readOnly_reserveRaceOutbound _) fun _ => ?_
  exact commit (.single (.picked _))

theorem stirs_relayOriginal (roomId : RoomId) (room : ProtocolRoomState) (frozen : FrozenRaceRoster)
    (identity : IdentityBinding) (packet : ParsedGameSlotPacket) (admission : Option RaceObjectAdmission)
    (audience : GameSlotRelayAudience) :
    Leads (Stirs calm) (relayOriginal roomId room frozen identity packet admission audience) := by
  refine leads (pass readOnly_get fun w => pass (readOnly_gameSlotCheck _) fun _ => ?_)
  refine pass (readOnly_require _ _) fun _ => ?_
  split
  · exact (stirs_pure _).from
  · exact Leads.from (stirs_bind (stirs_publishGameSlotRelay _ _ _ _ _ _) fun _ => stirs_pure _)
  · exact Leads.from (stirs_bind (stirs_publishGameSlotRelay _ _ _ _ _ _) fun _ => stirs_pure _)

theorem stirs_relayGameSlot (items : ItemService) (roomId : RoomId) (identity : IdentityBinding) (packet : ParsedGameSlotPacket)
    (now : Instant) : Leads (Stirs calm) (relayGameSlot items roomId identity packet now) := by
  refine leads (pass (readOnly_gameSlotRoom _ _) fun room => pass (readOnly_gameSlotCheck _) fun _ => ?_)
  refine pass (readOnly_gameSlotCheck _) fun active => pass (readOnly_gameSlotCheck _) fun admission => ?_
  split
  · exact (stirs_pure _).from
  · exact Leads.from (stirs_synthesizeItemPickup items _ identity _ packet now)
  · exact (stirs_pure _).from
  · exact Leads.from (stirs_relayOriginal _ _ _ identity packet admission _)

theorem stirs_raceDispatch (items : ItemService) (roomId : RoomId) (identity : IdentityBinding) (now : Instant) (tick : Nat)
    (payload : RaceCommandPayload) : Leads (Stirs false) (raceDispatch items roomId identity now tick payload) := by
  cases payload with
  | gameControl request =>
    unfold raceDispatch
    dsimp only
    split
    · exact stirs_armLoading roomId identity now
    · split
      · exact stirs_recordHumanFinish roomId identity request.value0 now tick
      · exact stirs_fail _
  | aiGoalIn request => exact stirs_recordAiFinish roomId identity request now tick
  | teamBoosterGauge request => exact stirs_updateTeamBooster roomId identity request
  | gameSlot packet => exact stirs_relayGameSlot items roomId identity packet now

theorem stirs_raceCommand (U : Unicode) (items : ItemService) (session : SessionId) (payload : RaceCommandPayload)
    (now : Instant) (tick : Nat) : Leads (Stirs false) (raceCommand U items session payload now tick) := by
  refine leads (pass (readOnly_authorizedIdentity U session) fun identity => ?_)
  refine pass (readOnly_reads _) fun roomId => Leads.from ?_
  exact Leads.mapError (stirs_raceDispatch items roomId identity now tick payload)

end World

end P5136
