import P5136.World.Runs

/-!
# The lobbies after the races of a run

At every point of a run the rooms are sound. So the rewards of every race can be planned, and every race whose results are told
leaves the next lobby of its own ranking.
-/

namespace P5136

namespace World

open Act ProtocolRoomState

variable {U : Unicode} {w w' : World} {roomId : RoomId} {room next : ProtocolRoomState}

/-! ## The points of a run -/

/-- A world at some point of a run, between its commands or inside one. -/
inductive Reached (U : Unicode) : World → Prop where
  /-- Between two commands. -/
  | between {past : List Moment} {w : World} : Run U past w → Reached U w
  /-- After a part of a command that loads no race. -/
  | inside {w w' : World} : Reached U w → Calm w w' → Reached U w'
  /-- After a heartbeat visited a room whose race loads. -/
  | visited {w : World} {roomId : RoomId} {room : ProtocolRoomState} (items : ItemService) (now : Instant) (tick : Nat) :
      Reached U w → Found roomId room w → room.phase = .loading → Reached U (advanceLoadingRoom items now tick roomId w).2

/-- The rooms are sound at every point of a run. -/
theorem Reached.sound (h : Reached U w) : Sound w := by
  induction h with
  | between hrun => exact hrun.sound
  | inside _ hcalm ih => exact fun i => sound_of_goes (hcalm.goes i) (ih i)
  | @visited w roomId room items now tick _ hfound hphase ih =>
    have hsound := ih roomId room.course (course_of_found hfound)
    obtain ⟨next, w₁, hvisit, hvisited⟩ := visited_advanceLoadingRoom items now tick hfound hphase hsound
    obtain ⟨frozen, hfrozen, -, -⟩ := frozen_of_sound (by rw [hphase]; simp) hsound
    rw [hvisit]
    intro i c hc
    by_cases hi : i = roomId
    · subst hi
      obtain rfl := Option.some.inj ((course_of_found hvisited.found).symm.trans hc)
      exact (hvisited.beat frozen hfrozen).sound hphase hsound
    · unfold course at hc
      rw [hvisited.touches.others i hi] at hc
      exact ih i c hc

/-- The roster of a race can be ranked, has a human racer, and everybody who is still there is in it. -/
theorem Sound.roster (h : Sound w) (hfound : Found roomId room w) (hphase : room.phase ≠ .lobby) :
    ∃ frozen, room.frozenRace = some frozen ∧ Rankable room.settings.gameType frozen.racing ∧ frozen.racers ≠ [] ∧
      ∀ id, (room.membersById id).isSome → (id.val : Int) ∈ frozen.racing.map Prod.fst := by
  obtain ⟨frozen, hfrozen, -, hcarries⟩ := frozen_of_sound hphase (h roomId room.course (course_of_found hfound))
  refine ⟨frozen, hfrozen, racing_field frozen ▸ hcarries.rankable, ?_, ?_⟩
  · intro hnil
    exact hcarries.human (by rw [racers_field, hnil]; rfl)
  · intro id hid
    obtain ⟨member, hmember⟩ := Option.isSome_iff_exists.1 hid
    obtain ⟨entrant, hentrant, hplayer, -⟩ := hcarries.seated id (member.userNo, member.player.team) (by
      change room.seats id = _
      unfold seats
      rw [hmember]
      rfl)
    rw [← racing_field, ← hplayer]
    refine List.mem_map.2 ⟨(entrant.playerId, entrant.team), List.mem_append_left _ ?_, rfl⟩
    exact List.mem_map_of_mem hentrant

/-- The rewards of every race can be planned. -/
theorem Sound.planned (h : Sound w) (hfound : Found roomId room w) (hphase : room.phase ≠ .lobby) (now : Instant)
    {rolls : Int → Nat × Nat} (hrolls : RollsFit rolls) : ∃ planned, planRewardPersistence U room now rolls = .ok planned := by
  obtain ⟨frozen, hfrozen, hrankable, hhuman, -⟩ := h.roster hfound hphase
  obtain ⟨rewards, hrewards⟩ := planRewardPersistence_isOk U now hfrozen hrankable hhuman hrolls
  exact ⟨_, hrewards⟩

/-! ## What the end of a settlement does to a room -/

/-- A step of `try_finalize_settlement` at its room. -/
inductive Concludes : Option ProtocolRoomState → Option ProtocolRoomState → Prop where
  /-- The pending fan-outs are told. -/
  | flushed (room : ProtocolRoomState) : Concludes (some room) (some (flushedRoom room))
  /-- The results are told. -/
  | finalized {room : ProtocolRoomState} {ranking : SettlementRanking} {rewards : List RewardPersistenceEntry}
      {packets : List Packet} : room.finalization = some (.ready ranking rewards packets) →
      Concludes (some room) (some (room.nextLobby ranking))
  /-- Nobody is there any more. -/
  | removed (room : ProtocolRoomState) : Concludes (some room) none

/-- The room at an id takes steps of `try_finalize_settlement`. -/
def Settles (roomId : RoomId) (w w' : World) : Prop :=
  Relation.ReflTransGen Concludes (w.protocolRooms.lookup roomId) (w'.protocolRooms.lookup roomId)

theorem Settles.refl (roomId : RoomId) (w : World) : Settles roomId w w := Relation.ReflTransGen.refl

theorem Settles.trans (roomId : RoomId) (w w' w'' : World) (h : Settles roomId w w') (h' : Settles roomId w' w'') :
    Settles roomId w w'' := Relation.ReflTransGen.trans h h'

theorem Settles.of_rooms (h : w'.protocolRooms = w.protocolRooms) : Settles roomId w w' := by
  unfold Settles
  rw [h]

theorem Settles.step (hfound : Found roomId room w) (h : Concludes (some room) (w'.protocolRooms.lookup roomId)) :
    Settles roomId w w' := by
  refine .single ?_
  rw [show w.protocolRooms.lookup roomId = some room from hfound]
  exact h

theorem settles_tryFlushPendingRaceFanouts {ε : Type} (roomId : RoomId) :
    Leads (Settles roomId) (tryFlushPendingRaceFanouts roomId : Act World (Fault ε) Bool) := by
  have hrefl := Settles.refl roomId
  have htrans := Settles.trans roomId
  refine LeadsFrom.leads ((readOnly_reads _).leadsFrom hrefl fun room => ?_)
  refine LeadsFrom.mono (Q := Found roomId room) ?_ (fun w hw => Checks.orElse_eq_ok.1 (Act.reads_eq_ok.1 hw.2).1)
  split
  · exact ((readOnly_pure _).leads hrefl).from
  · refine (readOnly_orFail _ _).skip hrefl fun frozen => readOnly_get.skip hrefl fun w => ?_
    dsimp only
    split
    · exact ((readOnly_pure _).leads hrefl).from
    · refine LeadsFrom.bind htrans (Act.leadsFrom_modify fun s hs => .step hs ?_) fun _ => ?_
      · change Concludes _ ((s.withRoom roomId (flushedRoom room)).protocolRooms.lookup roomId)
        rw [lookup_withRoom_self]
        exact .flushed room
      · exact Leads.bind htrans (Act.leads_modify fun s => .of_rooms rfl) fun _ => (readOnly_pure _).leads hrefl

/-- The room at its id is removed, or in its next lobby. -/
theorem settles_withFinalized {ranking : SettlementRanking} {rewards : List RewardPersistenceEntry} {packets : List Packet}
    (hfound : Found roomId room w) (h : room.finalization = some (.ready ranking rewards packets)) :
    Settles roomId w (w.withFinalized roomId room ranking) := by
  have hreleased : ∀ released : World, Concludes (some room) ((if room.isEmpty then released.withoutRoom roomId
      else released.withRoom roomId ((room.applyNextGridRanking ranking).applyNextLobbyMaster ranking).backToLobby).protocolRooms.lookup
        roomId) := by
    intro released
    split
    · have hgone : (released.withoutRoom roomId).protocolRooms.lookup roomId = none := by
        unfold withoutRoom
        rw [FiniteMap.lookup_erase, if_pos rfl]
      rw [hgone]
      exact .removed room
    · rw [lookup_withRoom_self]
      exact .finalized h
  refine .step hfound ?_
  unfold withFinalized
  rcases room.raceFence with _ | fence
  · exact hreleased w
  · exact hreleased (w.releaseRewardLanes fence)

theorem settles_tryFinalizeSettlement (roomId : RoomId) : Leads (Settles roomId) (tryFinalizeSettlement roomId) := by
  have hrefl := Settles.refl roomId
  have htrans := Settles.trans roomId
  refine Leads.bind htrans (settles_tryFlushPendingRaceFanouts roomId) fun flushed => ?_
  split
  · exact (readOnly_pure _).leads hrefl
  · refine LeadsFrom.leads (readOnly_get.leadsFrom hrefl fun w => ?_)
    split
    · exact ((readOnly_pure _).leads hrefl).from
    · rename_i room hfound
      split
      · rename_i ranking rewards packets hready
        refine (readOnly_orFail _ _).skip hrefl fun frozen => ?_
        dsimp only
        split
        · exact ((readOnly_pure _).leads hrefl).from
        · refine (readOnly_require _ _).skip hrefl fun _ => LeadsFrom.bind htrans (Act.leadsFrom_modify fun s hs => ?_) fun _ =>
            Act.leads_modify fun s => .of_rooms rfl
          obtain rfl := (Act.get_eq_ok.1 hs.2).1
          have hfinal := settles_withFinalized hfound hready
          unfold loggedFinal
          split
          · exact htrans _ _ _ hfinal (.of_rooms rfl)
          · exact hfinal
      · exact ((readOnly_pure _).leads hrefl).from

/-- A room with other pending fan-outs. -/
def withFanouts (room : ProtocolRoomState) (fanouts : List PendingRaceFanout) : ProtocolRoomState :=
  { room with raceProgress := { room.raceProgress with pendingFanouts := fanouts } }

theorem nextLobby_withFanouts (room : ProtocolRoomState) (fanouts : List PendingRaceFanout) (ranking : SettlementRanking) :
    (withFanouts room fanouts).nextLobby ranking = room.nextLobby ranking := by
  have hmaster : ((withFanouts (room.applyNextGridRanking ranking) fanouts).applyNextLobbyMaster ranking).roomMaster =
      ((room.applyNextGridRanking ranking).applyNextLobbyMaster ranking).roomMaster := by
    rw [roomMaster_applyNextLobbyMaster, roomMaster_applyNextLobbyMaster]
    rfl
  change ((withFanouts (room.applyNextGridRanking ranking) fanouts).applyNextLobbyMaster ranking).backToLobby =
    ((room.applyNextGridRanking ranking).applyNextLobbyMaster ranking).backToLobby
  have hrest : (room.applyNextGridRanking ranking).applyNextLobbyMaster ranking = _ := applyNextLobbyMaster_eq
  rw [applyNextLobbyMaster_eq, hmaster, hrest]
  rfl

/-- What is left of a room: it only told fan-outs, or it told its results and is in its next lobby. -/
theorem concludes_run {o : Option ProtocolRoomState} (h : Relation.ReflTransGen Concludes (some room) o) :
    ∀ next, o = some next → (∃ fanouts, next = withFanouts room fanouts) ∨
      ∃ ranking rewards packets fanouts, room.finalization = some (.ready ranking rewards packets) ∧
        next = withFanouts (room.nextLobby ranking) fanouts := by
  induction h with
  | refl =>
    rintro next ⟨⟩
    exact .inl ⟨room.raceProgress.pendingFanouts, rfl⟩
  | tail _ hstep ih =>
    cases hstep with
    | flushed last =>
      rintro next ⟨⟩
      rcases ih last rfl with ⟨fanouts, rfl⟩ | ⟨ranking, rewards, packets, fanouts, hready, rfl⟩
      · exact .inl ⟨[], rfl⟩
      · exact .inr ⟨ranking, rewards, packets, [], hready, rfl⟩
    | @finalized last ranking rewards packets hfinal =>
      rintro next ⟨⟩
      rcases ih last rfl with ⟨fanouts, rfl⟩ | ⟨ranking', rewards', packets', fanouts, hready, rfl⟩
      · exact .inr ⟨ranking, rewards, packets, [], hfinal, nextLobby_withFanouts room fanouts ranking⟩
      · -- a lobby settles nothing
        cases hfinal
    | removed last =>
      rintro next ⟨⟩

/-- A race that is over leaves the next lobby of its ranking. -/
theorem Sound.nextLobby (h : Sound w) (hfound : Found roomId room w) (hphase : room.phase ≠ .lobby)
    (hnext : Found roomId next (tryFinalizeSettlement roomId w).2) (hlobby : next.phase = .lobby) :
    ∃ frozen, room.frozenRace = some frozen ∧
      room.NextLobby (rankingOf room.settings.gameType frozen.racing room.raceProgress.finishTimes) next := by
  obtain ⟨frozen, hfrozen, hrankable, -, hseated⟩ := h.roster hfound hphase
  refine ⟨frozen, hfrozen, ?_⟩
  have hsettles := settles_tryFinalizeSettlement roomId w
  unfold Settles at hsettles
  rw [show w.protocolRooms.lookup roomId = some room from hfound] at hsettles
  rcases concludes_run hsettles next hnext with ⟨fanouts, rfl⟩ | ⟨ranking, rewards, packets, fanouts, hready, rfl⟩
  · exact absurd hlobby hphase
  · have hcourse := h roomId room.course (course_of_found hfound)
    have hranking : ranking = rankingOf room.settings.gameType frozen.racing room.raceProgress.finishTimes := by
      rw [← racing_field]
      refine hcourse.ranked ranking frozen.field ((outcome_of_finalization hready).trans rfl) ?_
      change room.frozenRace.map _ = _
      rw [hfrozen]
      rfl
    rw [hranking]
    have hresults : ∀ id, (room.membersById id).isSome →
        ((rankingOf room.settings.gameType frozen.racing room.raceProgress.finishTimes).byPlayerId.lookup (id.val : Int)).isSome :=
      fun id hid => Option.isSome_iff_exists.2 ((hrankable.law_racers (id.val : Int)).2 (hseated id hid))
    have hfollows := nextLobby_follows hresults hrankable.distinct
    exact ⟨hfollows.members, hfollows.grid, hfollows.order, hfollows.observer, hfollows.master, hfollows.unchanged⟩

/-! ## The law of settlements -/

/-- What a settlement is. -/
structure SettlementLaw (U : Unicode) : Prop where
  /-- Racers that can be ranked are ranked, by the law of rankings. -/
  ranked : ∀ (room : ProtocolRoomState) (frozen : FrozenRaceRoster), room.frozenRace = some frozen →
    Rankable room.settings.gameType frozen.racing → TimesFit room.raceProgress.finishTimes →
    ∃ ranking, settlementRanking room = .ok ranking ∧
      RankingLaw room.settings.gameType frozen.racing room.raceProgress.finishTimes ranking
  /-- The order of the participants and of the AIs in the roster does not matter. -/
  unordered : ∀ (room : ProtocolRoomState) (frozen : FrozenRaceRoster) (participants : List FrozenRaceParticipant)
    (ais : List FrozenAiRaceParticipant), room.frozenRace = some frozen → Rankable room.settings.gameType frozen.racing →
    frozen.participants.Perm participants → frozen.ais.Perm ais →
    settlementRanking { room with frozenRace := some { frozen with participants := participants, ais := ais } } =
      settlementRanking room
  /-- The rooms are sound at every point of a run. -/
  sound : ∀ w, Reached U w → Sound w
  /-- Where they are, the rewards of every race can be planned. -/
  planned : ∀ (w : World) (roomId : RoomId) (room : ProtocolRoomState), Sound w → Found roomId room w → room.phase ≠ .lobby →
    ∀ (now : Instant) (rolls : Int → Nat × Nat), RollsFit rolls → ∃ planned, planRewardPersistence U room now rolls = .ok planned
  /-- There, a race that is over leaves the next lobby of its ranking. -/
  nextLobby : ∀ (w : World) (roomId : RoomId) (room next : ProtocolRoomState), Sound w → Found roomId room w → room.phase ≠ .lobby →
    Found roomId next (tryFinalizeSettlement roomId w).2 → next.phase = .lobby →
    ∃ ranking, settlementRanking room = .ok ranking ∧ room.NextLobby ranking next

/-- Settlements obey their law. -/
theorem settlement_law (U : Unicode) : SettlementLaw U where
  ranked room frozen hfrozen hrankable hfit := ⟨_, settlementRanking_eq hfrozen hrankable, hrankable.law hfit⟩
  unordered room frozen participants ais hfrozen hrankable hparticipants hais := by
    have hperm : frozen.racing.Perm ({ frozen with participants := participants, ais := ais } : FrozenRaceRoster).racing :=
      ((hparticipants.filter _).map _).append (hais.map _)
    rw [settlementRanking_eq hfrozen hrankable]
    generalize hother : ({ room with frozenRace := some { frozen with participants := participants, ais := ais } } :
      ProtocolRoomState) = other
    have hranked : settlementRanking other = .ok (rankingOf room.settings.gameType
        ({ frozen with participants := participants, ais := ais } : FrozenRaceRoster).racing room.raceProgress.finishTimes) := by
      subst hother
      exact settlementRanking_eq rfl (hrankable.perm hperm)
    rw [hranked]
    exact congrArg Except.ok (hrankable.rankingOf_congr hperm).symm
  sound _ h := h.sound
  planned _ _ _ h hfound hphase now _ hrolls := h.planned hfound hphase now hrolls
  nextLobby w roomId room next h hfound hphase hnext hlobby := by
    obtain ⟨frozen, hfrozen, hfollows⟩ := h.nextLobby hfound hphase hnext hlobby
    obtain ⟨frozen', hfrozen', hrankable, -⟩ := h.roster hfound hphase
    obtain rfl := Option.some.inj (hfrozen.symm.trans hfrozen')
    exact ⟨_, settlementRanking_eq hfrozen hrankable, hfollows⟩

/-! ## A settlement -/

namespace NextLobbiesAux

/-- A racer of a team. -/
def racer (playerId : Int) (team : Nat) : FrozenRaceParticipant where
  identity := ⟨"dao", ⟨1, Nat.one_ne_zero, NonZero.one_lt_32⟩, ⟨1⟩, ⟨1⟩, .unspecified, none⟩
  nickname := "dao"
  playerId := playerId
  observer := false
  team := team
  result := none

/-- Two racers, one in each team. -/
def roster : FrozenRaceRoster where
  fence := ⟨⟨1⟩, ⟨1, Nat.one_ne_zero, NonZero.one_lt_64⟩⟩
  concreteTrack := 0
  participants := [racer 0 1, racer 1 2]
  ais := []

/-- The times of the racers: none of the first, and this one of the second. -/
def times (time : Nat) : FiniteMap Int Nat := (∅ : FiniteMap Int Nat).insert 1 time

/-- The second racer, who is still there. -/
def member : ProtocolRoomMember where
  userNo := ⟨1, Nat.one_ne_zero, NonZero.one_lt_32⟩
  player := ⟨2, 1, 0, 0, "dao", 0, 0, 0, Vector.replicate 65 0, "", 0, 2, 0, 0, "", 0⟩
  floaterCodes := Vector.replicate 3 0

/-- A speed race in teams whose results are ready. -/
def settledRoom (time : Nat) : ProtocolRoomState :=
  { new ⟨1⟩ ⟨⟨0, 0⟩, "", "", 3, 0, 0, 0, Vector.replicate 32 0⟩ with
    phase := .settling
    raceFence := some roster.fence
    frozenRace := some roster
    raceProgress :=
      { RaceProgress.fresh with
        finishTimes := times time
        settlement := some ⟨0, 0, .ready (rankingOf 3 roster.racing (times time)) [] []⟩ }
    membersById := Function.update (fun _ => none) 1 (some member) }

/-- The world with that room. -/
def world (time : Nat) : World := World.initial.withRoom ⟨1⟩ (settledRoom time)

theorem rankable : Rankable 3 roster.racing where
  nonempty := by decide
  nodup := by decide
  ids := by decide
  teams := by
    intro racer hracer _
    revert racer
    decide

theorem sound (time : Nat) : World.Sound (world time) := by
  intro i c hc
  unfold world at hc
  rw [course_withRoom] at hc
  split at hc
  · obtain rfl := Option.some.inj hc
    have hseat : ∀ id user, (settledRoom time).course.seats id = some user → id = 1 ∧ user.2 = 2 := by
      intro id user huser
      obtain ⟨there, hthere, rfl⟩ := Option.map_eq_some_iff.1 huser
      by_cases hid : id = 1
      · subst hid
        rw [show there = member from (Option.some.inj hthere).symm]
        exact ⟨rfl, rfl⟩
      · have hnone : (settledRoom time).membersById id = none := by
          change Function.update (fun _ => none) 1 (some member) id = none
          rw [Function.update_of_ne hid]
        rw [hnone] at hthere
        cases hthere
    refine ⟨?_, ?_, ?_, ?_, ?_, ?_, ?_, ?_⟩
    · intro id user huser _
      exact .inr (hseat id user huser).2
    · rintro id team ⟨⟩
    · intro id user _
      rfl
    · rintro ⟨⟩
    · intro _
      refine ⟨roster.field, rfl, rfl, racing_field roster ▸ rankable, by decide, fun id user huser => ?_⟩
      obtain ⟨rfl, hteam⟩ := hseat id user huser
      exact ⟨(racer 1 2).entrant, by decide, rfl, hteam.symm⟩
    · intro _
      rfl
    · intro hhandshake
      exact absurd rfl hhandshake
    · rintro ranking field hranking hfield
      cases hranking
      cases hfield
      rw [racing_field]
      rfl
  · cases hc

end NextLobbiesAux

open NextLobbiesAux in
/-- The second racer is alone in the next lobby. -/
theorem settlement_law_alone :
    (∃ ranking, settlementRanking (settledRoom 60000) = .ok ranking ∧ RankingLaw 3 roster.racing (times 60000) ranking) ∧
      settlementRanking { settledRoom 60000 with frozenRace := some { roster with participants := [racer 1 2, racer 0 1] } } =
        settlementRanking (settledRoom 60000) ∧
      Sound World.initial ∧
      (∃ planned, planRewardPersistence .ascii (settledRoom 60000) 0 (fun _ => (0, 0)) = .ok planned) ∧
      ∃ next ranking, (tryFinalizeSettlement ⟨1⟩ (world 60000)).2.protocolRooms.lookup ⟨1⟩ = some next ∧
        (settledRoom 60000).NextLobby ranking next := by
  have hlaw := settlement_law .ascii
  have hfound : Found ⟨1⟩ (settledRoom 60000) (world 60000) := lookup_withRoom_self _ _ _
  have hphase : (settledRoom 60000).phase ≠ .lobby := by
    rintro ⟨⟩
  have hfit : TimesFit (times 60000) := by
    intro id time htime
    by_cases hid : id = 1
    · subst hid
      rw [show time = 60000 from (Option.some.inj htime).symm]
      decide
    · have hnone : (times 60000).lookup id = none := by
        unfold times
        rw [AList.lookup_insert_ne hid]
        rfl
      rw [hnone] at htime
      cases htime
  refine ⟨hlaw.ranked (settledRoom 60000) roster rfl rankable hfit,
    hlaw.unordered (settledRoom 60000) roster [racer 1 2, racer 0 1] [] rfl rankable (List.Perm.swap _ _ _) (List.Perm.refl _),
    hlaw.sound _ (.between .start),
    hlaw.planned (world 60000) ⟨1⟩ (settledRoom 60000) (sound 60000) hfound hphase 0 (fun _ => (0, 0))
      (fun _ => ⟨Nat.zero_le _, Nat.zero_le _⟩), ?_⟩
  obtain ⟨next, hlookup, hlobby⟩ : ∃ next, (tryFinalizeSettlement ⟨1⟩ (world 60000)).2.protocolRooms.lookup ⟨1⟩ = some next ∧
      next.phase = .lobby := ⟨_, rfl, rfl⟩
  obtain ⟨ranking, -, hfollows⟩ := hlaw.nextLobby (world 60000) ⟨1⟩ (settledRoom 60000) next (sound 60000) hfound hphase hlookup
    hlobby
  exact ⟨next, ranking, hlookup, hfollows⟩

open NextLobbiesAux in
/-- A racer whose recorded time is the largest 32-bit number can rank behind one without a recorded time. -/
theorem settlement_law_false :
    ¬∀ (room : ProtocolRoomState) (frozen : FrozenRaceRoster), room.frozenRace = some frozen →
      Rankable room.settings.gameType frozen.racing → TimesFit room.raceProgress.finishTimes →
      ∃ ranking, settlementRanking room = .ok ranking ∧ ∀ a b ra rb, ranking.byPlayerId.lookup a = some ra →
        ranking.byPlayerId.lookup b = some rb → (room.raceProgress.finishTimes.lookup a).isSome →
        room.raceProgress.finishTimes.lookup b = none → ra.rank < rb.rank := by
  intro h
  have hlookup : ∀ id, id ≠ 1 → (times noFinishTime).lookup id = none := by
    intro id hid
    unfold times
    rw [AList.lookup_insert_ne hid]
    rfl
  have hone : (times noFinishTime).lookup 1 = some noFinishTime := AList.lookup_insert _
  have hfit : TimesFit (times noFinishTime) := by
    intro id time htime
    by_cases hid : id = 1
    · subst hid
      exact le_of_eq (Option.some.inj (htime.symm.trans hone))
    · rw [hlookup id hid] at htime
      cases htime
  obtain ⟨ranking, hranking, hlast⟩ := h (settledRoom noFinishTime) roster rfl rankable hfit
  obtain rfl := Except.ok.inj ((settlementRanking_eq rfl rankable).symm.trans hranking)
  have hresults : ∀ id, (∃ result, (rankingOf 3 roster.racing (times noFinishTime)).byPlayerId.lookup id = some result) ↔
      id ∈ roster.racing.map Prod.fst := rankable.law_racers
  obtain ⟨ra, ha⟩ := (hresults 1).2 (by decide)
  obtain ⟨rb, hb⟩ := (hresults 0).2 (by decide)
  have hlt := hlast 1 0 ra rb ha hb (Option.isSome_iff_exists.2 ⟨_, hone⟩) (hlookup 0 (by decide))
  have htimeA := rankable.law_times ha
  have htimeB := rankable.law_times hb
  rw [hone] at htimeA
  rw [hlookup 0 (by decide)] at htimeB
  rcases (rankable.law_order ha hb).1 hlt with hless | ⟨-, hid⟩
  · rw [htimeA, htimeB] at hless
    exact absurd hless (lt_irrefl _)
  · exact absurd hid (by decide)

end World

end P5136
