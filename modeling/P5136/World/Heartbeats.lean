import P5136.World.RewardStirs

/-!
# What a heartbeat does to the courses of rooms

A heartbeat finds out which participants of a race are still there. A race that loads takes one beat: it is called off when no racer
is there, and otherwise its handshake is reconciled and its start is taken when that is due. Every other room goes on by turns.
-/

namespace P5136

namespace World

open Act LeadsFrom List

variable {calm : Bool} {w w' : World} {roomId : RoomId} {room next : ProtocolRoomState}

/-! ## Who is there -/

/-- An identity is still exactly active, with its user in a room. -/
def Present (w : World) (roomId : RoomId) (identity : IdentityBinding) : Prop :=
  (w.exactIdentityInProtocolRoom roomId identity).isSome = true

instance (w : World) (roomId : RoomId) (identity : IdentityBinding) : Decidable (w.Present roomId identity) :=
  inferInstanceAs (Decidable (_ = _))

/-- The stamps of the participants of a race that are present. -/
def presentStamps (w : World) (roomId : RoomId) (field : RaceField) : Finset FrozenParticipantStamp :=
  ((field.entrants.filter (fun entrant => w.Present roomId entrant.identity)).map (fun entrant =>
    FrozenParticipantStamp.of entrant.identity)).toFinset

/-- A racer of a race is present. -/
def RacerPresent (w : World) (roomId : RoomId) (field : RaceField) : Prop :=
  ∃ entrant ∈ field.racers, w.Present roomId entrant.identity

/-- The same users are in the same rooms with the same identities, and no race was started. -/
structure SameUsers (w w' : World) : Prop where
  identities : w'.identities = w.identities
  members : w'.protocolRoomByUser = w.protocolRoomByUser
  epoch : w'.nextRaceEpoch = w.nextRaceEpoch

theorem SameUsers.refl (w : World) : SameUsers w w := ⟨rfl, rfl, rfl⟩

theorem SameUsers.trans {w w' w'' : World} (h : SameUsers w w') (h' : SameUsers w' w'') : SameUsers w w'' :=
  ⟨h'.identities.trans h.identities, h'.members.trans h.members, h'.epoch.trans h.epoch⟩

theorem SameUsers.exact (h : SameUsers w w') (roomId : RoomId) (identity : IdentityBinding) :
    w'.exactIdentityInProtocolRoom roomId identity = w.exactIdentityInProtocolRoom roomId identity := by
  unfold exactIdentityInProtocolRoom
  rw [h.members, h.identities]

theorem SameUsers.present (h : SameUsers w w') (roomId : RoomId) (identity : IdentityBinding) :
    w'.Present roomId identity ↔ w.Present roomId identity := by
  unfold Present
  rw [h.exact]

theorem SameUsers.presentStamps (h : SameUsers w w') (roomId : RoomId) (field : RaceField) :
    w'.presentStamps roomId field = w.presentStamps roomId field := by
  unfold World.presentStamps
  simp only [h.present roomId]

theorem SameUsers.racerPresent (h : SameUsers w w') (roomId : RoomId) (field : RaceField) :
    w'.RacerPresent roomId field ↔ w.RacerPresent roomId field := by
  unfold RacerPresent
  simp only [h.present roomId]

/-- The participants that a heartbeat finds. -/
theorem stamps_activeFrozenParticipants (w : World) (roomId : RoomId) (roster : FrozenRaceRoster) :
    ((w.activeFrozenParticipants roomId roster).map (fun participant => FrozenParticipantStamp.of participant.identity)).toFinset =
      w.presentStamps roomId roster.field := by
  unfold activeFrozenParticipants presentStamps FrozenRaceRoster.field
  rw [filter_map, map_map]
  congr 1
  exact congrArg _ (filter_congr fun participant _ => (Bool.decide_coe _).symm)

/-- Only observers are found when no racer is present. -/
theorem all_observer_iff (w : World) (roomId : RoomId) (roster : FrozenRaceRoster) :
    (w.activeFrozenParticipants roomId roster).all (·.observer) = true ↔ ¬w.RacerPresent roomId roster.field := by
  unfold activeFrozenParticipants RacerPresent
  rw [racers_field, all_eq_true]
  constructor
  · rintro hall ⟨entrant, hentrant, hpresent⟩
    obtain ⟨participant, hparticipant, rfl⟩ := mem_map.1 hentrant
    unfold FrozenRaceRoster.racers at hparticipant
    obtain ⟨hmem, hracer⟩ := mem_filter.1 hparticipant
    have hobserver := hall participant (mem_filter.2 ⟨hmem, hpresent⟩)
    rw [hobserver] at hracer
    exact absurd hracer (by simp)
  · intro hnone participant hparticipant
    obtain ⟨hmem, hpresent⟩ := mem_filter.1 hparticipant
    by_contra hracer
    refine hnone ⟨participant.entrant, mem_map_of_mem ?_, hpresent⟩
    exact mem_filter.2 ⟨hmem, by simpa using hracer⟩

/-! ## What a heartbeat does to a race that loads -/

/-- A heartbeat at a room whose race loads, with who is there: the race is called off, or the handshake is reconciled and the
start is taken when it is due and fits. -/
inductive Beat (present : Finset FrozenParticipantStamp) (racerPresent : Prop) (now : Instant) : Course → Course → Prop where
  | aborted {c : Course} : ¬racerPresent → Beat present racerPresent now c c.inLobby
  | checked {c : Course} : racerPresent →
      Beat present racerPresent now c { c with handshake := c.handshake.reconciled present now }
  | began {c : Course} : racerPresent → (c.handshake.reconciled present now).startDue now = true →
      Beat present racerPresent now c { c with phase := .running, handshake := .dormant }

/-- A beat is an event of the loading, or two. -/
theorem Beat.sound {present : Finset FrozenParticipantStamp} {racerPresent : Prop} {now : Instant} {c c' : Course}
    (h : Beat present racerPresent now c c') (hphase : c.phase = .loading) (hsound : c.Sound) : c'.Sound := by
  cases h with
  | aborted _ => exact hsound.loads (.aborted hphase)
  | checked _ => exact hsound.loads (.checked hphase)
  | began _ hdue =>
    have hchecked : Course.Sound { c with handshake := c.handshake.reconciled present now } := hsound.loads (.checked hphase)
    exact hchecked.loads (.began hphase hdue)

/-- What a visit of a room leaves alone: the other rooms, the users, and the lanes that nobody had. -/
structure Touches (roomId : RoomId) (w w' : World) : Prop where
  users : SameUsers w w'
  others : ∀ i, i ≠ roomId → w'.protocolRooms.lookup i = w.protocolRooms.lookup i
  lanes : ∀ userNo fence, w'.rewardLanes.lookup userNo = some fence → w.rewardLanes.lookup userNo = some fence

theorem Touches.refl (roomId : RoomId) (w : World) : Touches roomId w w := ⟨.refl w, fun _ _ => rfl, fun _ _ h => h⟩

theorem Touches.trans (roomId : RoomId) (w w' w'' : World) (h : Touches roomId w w') (h' : Touches roomId w' w'') :
    Touches roomId w w'' where
  users := h.users.trans h'.users
  others := fun i hi => (h'.others i hi).trans (h.others i hi)
  lanes := fun userNo fence hlane => h.lanes userNo fence (h'.lanes userNo fence hlane)

theorem touches_withRoom (w : World) (roomId : RoomId) (next : ProtocolRoomState) : Touches roomId w (w.withRoom roomId next) where
  users := ⟨rfl, rfl, rfl⟩
  others := fun i hi => by rw [lookup_withRoom, if_neg hi]
  lanes := fun _ _ h => h

theorem touches_withoutRoom (w : World) (roomId : RoomId) : Touches roomId w (w.withoutRoom roomId) where
  users := ⟨rfl, rfl, rfl⟩
  others := fun i hi => by
    unfold withoutRoom
    rw [FiniteMap.lookup_erase, if_neg hi]
  lanes := fun _ _ h => h

theorem touches_releaseRewardLanes (w : World) (roomId : RoomId) (fence : RaceFence) :
    Touches roomId w (w.releaseRewardLanes fence) where
  users := ⟨rfl, rfl, rfl⟩
  others := fun _ _ => rfl
  lanes := fun userNo fence' h => by
    unfold releaseRewardLanes at h
    rw [FiniteMap.lookup_retain] at h
    exact (Option.filter_eq_some_iff.1 h).1

theorem touches_published (w : World) (roomId : RoomId) (ds : List OutboundDelivery) : Touches roomId w (w.published ds) :=
  ⟨⟨rfl, rfl, rfl⟩, fun _ _ => rfl, fun _ _ h => h⟩

theorem touches_logged (w : World) (roomId : RoomId) (event : RaceEvent) : Touches roomId w (w.logged event) :=
  ⟨⟨rfl, rfl, rfl⟩, fun _ _ => rfl, fun _ _ h => h⟩

/-- Nobody has the lane of a race after it was released. -/
theorem lookup_releaseRewardLanes (w : World) (fence : RaceFence) (userNo : UserNo) :
    (w.releaseRewardLanes fence).rewardLanes.lookup userNo ≠ some fence := by
  intro h
  unfold releaseRewardLanes at h
  rw [FiniteMap.lookup_retain] at h
  obtain ⟨-, hne⟩ := Option.filter_eq_some_iff.1 h
  exact absurd hne (by simp)

/-! ## A visit of a room whose race loads -/

/-- The room of a race, with its roster. -/
theorem frozenRoom_eq {frozen : FrozenRaceRoster} (hfound : Found roomId room w) (hfrozen : room.frozenRace = some frozen) :
    frozenRoom roomId w = (.ok (room, frozen), w) := by
  refine Act.bind_eq_ok.2 ⟨room, w, Act.reads_eq_ok.2 ⟨Checks.orElse_eq_ok.2 hfound, rfl⟩, ?_⟩
  refine Act.bind_eq_ok.2 ⟨frozen, w, Act.ofExcept_eq_ok.2 ⟨Checks.orElse_eq_ok.2 hfrozen, rfl⟩, ?_⟩
  exact Act.pure_eq_ok.2 ⟨rfl, rfl⟩

/-- The ids of racers fit into the packets of a start. -/
theorem startBatch_isOk (items : ItemService) (room : ProtocolRoomState) {frozen : FrozenRaceRoster} (startTick : Nat)
    (hids : ∀ participant ∈ frozen.racers, 0 ≤ participant.playerId ∧ participant.playerId < 8) :
    ∃ batch, startBatch items room frozen startTick = .ok batch := by
  unfold startBatch
  split
  · have hawards : ∀ participant ∈ frozen.racers, ∃ packets, startAward items startTick participant = .ok packets := by
      intro participant hparticipant
      obtain ⟨hlow, hhigh⟩ := hids participant hparticipant
      unfold startAward
      split
      · exact ⟨[], rfl⟩
      · rw [if_pos ⟨hlow, by omega⟩]
        exact ⟨_, rfl⟩
    obtain ⟨awards, hawards⟩ := Checks.traverse_isOk hawards
    rw [hawards]
    exact ⟨_, rfl⟩
  · exact ⟨_, rfl⟩

/-- A scheduled start is taken when it is due and fits, or the room stays as it is. -/
theorem tryStartScheduledRoom_eq (items : ItemService) (now : Instant) (tick : Nat) {frozen : FrozenRaceRoster}
    (hfound : Found roomId room w) (hfrozen : room.frozenRace = some frozen)
    (hids : ∀ participant ∈ frozen.racers, 0 ≤ participant.playerId ∧ participant.playerId < 8) :
    tryStartScheduledRoom items roomId now tick w = (.ok (), w) ∨
      room.loadingHandshake.startDue now = true ∧ ∃ ds, tryStartScheduledRoom items roomId now tick w =
        (.ok (), (w.withRoom roomId { room with phase := .running, loadingHandshake := .dormant }).published ds) := by
  obtain ⟨batch, hbatch⟩ := startBatch_isOk items room (tickAfter tick raceStartTickLead) hids
  have hlookup : w.protocolRooms.lookup roomId = some room := hfound
  unfold tryStartScheduledRoom
  rw [Act.bind_of_ok (Act.get_eq_ok.2 ⟨rfl, rfl⟩), hlookup, Option.any_some]
  by_cases hdue : room.loadingHandshake.startDue now = true
  · rw [if_pos hdue, Act.bind_of_ok (frozenRoom_eq hfound hfrozen), Act.bind_of_ok (Act.ofExcept_eq_ok.2 ⟨hbatch, rfl⟩)]
    dsimp only
    rcases hreserve : reserveFrom w.sessions [] (frozen.participants.filterMap (fun participant =>
      (w.exactIdentityInProtocolRoom roomId participant.identity).map (fun identity => (identity.owner, batch)))) with e | _
    · simp only [hreserve]
      exact .inl rfl
    · simp only [hreserve]
      exact .inr ⟨hdue, _, rfl⟩
  · rw [if_neg hdue]
    exact .inl rfl

/-- A heartbeat at a room whose race loads. -/
structure Visited (roomId : RoomId) (room next : ProtocolRoomState) (now : Instant) (w w' : World) : Prop where
  touches : Touches roomId w w'
  found : Found roomId next w'
  beat : ∀ frozen, room.frozenRace = some frozen →
    Beat (w.presentStamps roomId frozen.field) (w.RacerPresent roomId frozen.field) now room.course next.course
  aborted : ∀ frozen, room.frozenRace = some frozen → ¬w.RacerPresent roomId frozen.field →
    next = room.backToLobby ∧ ∀ userNo, w'.rewardLanes.lookup userNo ≠ some frozen.fence

/-- The roster of a room whose race is on. -/
theorem frozen_of_sound (hphase : room.phase ≠ .lobby) (hsound : room.course.Sound) :
    ∃ frozen, room.frozenRace = some frozen ∧ room.raceFence = some frozen.fence ∧ room.course.Carries frozen.field := by
  obtain ⟨field, hfield, hfence, hcarries⟩ := hsound.racing hphase
  obtain ⟨frozen, hfrozen, rfl⟩ := Option.map_eq_some_iff.1 hfield
  exact ⟨frozen, hfrozen, hfence, hcarries⟩

theorem racerIds_of_carries {frozen : FrozenRaceRoster} {c : Course} (h : c.Carries frozen.field) :
    ∀ participant ∈ frozen.racers, 0 ≤ participant.playerId ∧ participant.playerId < 8 := by
  intro participant hparticipant
  refine h.rankable.ids (participant.playerId, participant.team) ?_
  rw [racing_field]
  exact mem_append_left _ (mem_map_of_mem hparticipant)

/-- A heartbeat visits a room whose race loads. -/
theorem visited_advanceLoadingRoom (items : ItemService) (now : Instant) (tick : Nat) (hfound : Found roomId room w)
    (hphase : room.phase = .loading) (hsound : room.course.Sound) :
    ∃ next w', advanceLoadingRoom items now tick roomId w = (.ok (), w') ∧ Visited roomId room next now w w' := by
  obtain ⟨frozen, hfrozen, hfence, hcarries⟩ := frozen_of_sound (by rw [hphase]; simp) hsound
  have hsame : ∀ frozen', room.frozenRace = some frozen' → frozen' = frozen := fun frozen' h' =>
    Option.some.inj (h'.symm.trans hfrozen)
  unfold advanceLoadingRoom
  rw [Act.bind_of_ok (frozenRoom_eq hfound hfrozen), Act.bind_of_ok (Act.get_eq_ok.2 ⟨rfl, rfl⟩)]
  dsimp only
  by_cases hracer : w.RacerPresent roomId frozen.field
  · rw [if_neg (fun hall => (all_observer_iff w roomId frozen).1 hall hracer), stamps_activeFrozenParticipants]
    generalize hchecked : ({ room with
      loadingHandshake := (room.loadingHandshake.reconciled (w.presentStamps roomId frozen.field) now) } : ProtocolRoomState) =
      checked
    have hchecking : Beat (w.presentStamps roomId frozen.field) (w.RacerPresent roomId frozen.field) now room.course
        checked.course := by
      rw [← hchecked]
      exact .checked hracer
    have hfrozen' : checked.frozenRace = some frozen := by
      rw [← hchecked]
      exact hfrozen
    have hput : (putRoom roomId checked : WorldAct Unit) w = (.ok ⟨⟩, w.withRoom roomId checked) := rfl
    rw [Act.bind_of_ok hput]
    have hfound' : Found roomId checked (w.withRoom roomId checked) := lookup_withRoom_self w roomId checked
    rcases tryStartScheduledRoom_eq items now tick hfound' hfrozen' (racerIds_of_carries hcarries) with hstill | ⟨hdue, ds, hbegan⟩
    · refine ⟨checked, _, hstill, touches_withRoom w roomId checked, hfound', ?_, ?_⟩
      · intro frozen' h'
        rw [hsame frozen' h']
        exact hchecking
      · intro frozen' h' hnone
        rw [hsame frozen' h'] at hnone
        exact absurd hracer hnone
    · refine ⟨_, _, hbegan, ?_, lookup_withRoom_self _ roomId _, ?_, ?_⟩
      · refine Touches.trans _ _ _ _ (touches_withRoom w roomId checked) ?_
        exact Touches.trans _ _ _ _ (touches_withRoom _ roomId _) (touches_published _ roomId ds)
      · intro frozen' h'
        rw [hsame frozen' h']
        rw [← hchecked] at hdue ⊢
        exact .began hracer hdue
      · intro frozen' h' hnone
        rw [hsame frozen' h'] at hnone
        exact absurd hracer hnone
  · rw [if_pos ((all_observer_iff w roomId frozen).2 hracer)]
    have haborted : w.withAborted roomId room = (w.releaseRewardLanes frozen.fence).withRoom roomId room.backToLobby := by
      unfold withAborted
      rw [hfence]
    refine ⟨room.backToLobby, w.withAborted roomId room, rfl, ?_, ?_, ?_, ?_⟩
    · rw [haborted]
      exact Touches.trans _ _ _ _ (touches_releaseRewardLanes w roomId frozen.fence) (touches_withRoom _ roomId _)
    · rw [haborted]
      exact lookup_withRoom_self _ roomId _
    · intro frozen' h'
      rw [hsame frozen' h', ProtocolRoomState.course_backToLobby]
      exact .aborted hracer
    · intro frozen' h' _
      rw [hsame frozen' h', haborted]
      exact ⟨rfl, lookup_releaseRewardLanes w frozen.fence⟩

/-! ## A heartbeat at every room whose race loads -/

/-- The rooms of a list were visited by a heartbeat, and no others. -/
structure Swept (rooms : List RoomId) (now : Instant) (w w' : World) : Prop where
  users : SameUsers w w'
  others : ∀ i, i ∉ rooms → w'.protocolRooms.lookup i = w.protocolRooms.lookup i
  lanes : ∀ userNo fence, w'.rewardLanes.lookup userNo = some fence → w.rewardLanes.lookup userNo = some fence
  visited : ∀ i ∈ rooms, ∀ room, Found i room w → ∃ next, Found i next w' ∧ ∀ frozen, room.frozenRace = some frozen →
    Beat (w.presentStamps i frozen.field) (w.RacerPresent i frozen.field) now room.course next.course ∧
    (¬w.RacerPresent i frozen.field → ∀ userNo, w'.rewardLanes.lookup userNo ≠ some frozen.fence)

/-- A heartbeat visits each room whose race loads once. -/
theorem swept_atRooms (items : ItemService) (now : Instant) (tick : Nat) (rooms : List RoomId) (w : World) (hnodup : rooms.Nodup)
    (hloading : ∀ i ∈ rooms, ∃ room, Found i room w ∧ room.phase = .loading ∧ room.course.Sound) :
    ∃ w', atRooms (advanceLoadingRoom items now tick) rooms w = (.ok (), w') ∧ Swept rooms now w w' := by
  induction rooms generalizing w with
  | nil => exact ⟨w, rfl, .refl w, fun _ _ => rfl, fun _ _ h => h, fun i hi => absurd hi (by simp)⟩
  | cons first rest ih =>
    obtain ⟨hfirst, hrest⟩ := nodup_cons.1 hnodup
    obtain ⟨room, hfound, hphase, hsound⟩ := hloading first (mem_cons_self ..)
    obtain ⟨next, w₁, hvisit, hvisited⟩ := visited_advanceLoadingRoom items now tick hfound hphase hsound
    have hother : ∀ i ∈ rest, w₁.protocolRooms.lookup i = w.protocolRooms.lookup i := by
      rintro i hi
      refine hvisited.touches.others i ?_
      rintro rfl
      exact hfirst hi
    obtain ⟨w₂, hloop, hswept⟩ := ih w₁ hrest (by
      intro i hi
      obtain ⟨room', hfound', hphase', hsound'⟩ := hloading i (mem_cons_of_mem _ hi)
      exact ⟨room', (hother i hi).trans hfound', hphase', hsound'⟩)
    refine ⟨w₂, ?_, hvisited.touches.users.trans hswept.users, ?_, ?_, ?_⟩
    · exact (Act.bind_of_ok hvisit).trans hloop
    · intro i hi
      rw [hswept.others i (fun hmem => hi (mem_cons_of_mem _ hmem))]
      exact hvisited.touches.others i (fun heq => hi (heq ▸ mem_cons_self ..))
    · exact fun userNo fence hlane => hvisited.touches.lanes userNo fence (hswept.lanes userNo fence hlane)
    · intro i hi room' hfound'
      rcases mem_cons.1 hi with rfl | hi
      · obtain rfl : room' = room := Option.some.inj (hfound'.symm.trans hfound)
        refine ⟨next, (hswept.others i hfirst).trans hvisited.found, fun frozen hfrozen => ⟨hvisited.beat frozen hfrozen, ?_⟩⟩
        intro hnone userNo hlane
        exact (hvisited.aborted frozen hfrozen hnone).2 userNo (hswept.lanes userNo _ hlane)
      · obtain ⟨next', hnext', hbeat⟩ := hswept.visited i hi room' ((hother i hi).trans hfound')
        refine ⟨next', hnext', fun frozen hfrozen => ?_⟩
        have hvisit' := hbeat frozen hfrozen
        rwa [hvisited.touches.users.presentStamps, propext (hvisited.touches.users.racerPresent i frozen.field)] at hvisit'

/-! ## What the rest of a heartbeat leaves alone -/

theorem touches_tryFlushPendingRaceFanouts {ε : Type} (roomId : RoomId) :
    Leads (Touches roomId) (tryFlushPendingRaceFanouts roomId : Act World (Fault ε) Bool) := by
  have htrans := Touches.trans roomId
  refine Leads.bind htrans ((readOnly_reads _).leads (Touches.refl roomId)) fun room => ?_
  split
  · exact (readOnly_pure _).leads (Touches.refl roomId)
  · refine Leads.bind htrans ((readOnly_orFail _ _).leads (Touches.refl roomId)) fun frozen => ?_
    refine Leads.bind htrans (readOnly_get.leads (Touches.refl roomId)) fun w => ?_
    dsimp only
    split
    · exact (readOnly_pure _).leads (Touches.refl roomId)
    · refine Leads.bind htrans (Act.leads_modify fun s => ?_) fun _ => ?_
      · exact htrans _ _ _ (touches_withRoom s roomId (flushedRoom room)) (touches_logged _ roomId _)
      · exact Leads.bind htrans (Act.leads_modify fun s => touches_published s roomId _) fun _ =>
          (readOnly_pure _).leads (Touches.refl roomId)

/-- The courses of the rooms do not tell of pending fan-outs. -/
theorem course_tryFlushPendingRaceFanouts {ε : Type} (roomId : RoomId) :
    Leads (fun w w' : World => ∀ i, w'.course i = w.course i) (tryFlushPendingRaceFanouts roomId : Act World (Fault ε) Bool) := by
  have hrefl : ∀ w : World, ∀ i, w.course i = w.course i := fun _ _ => rfl
  have htrans : ∀ a b c : World, (∀ i, b.course i = a.course i) → (∀ i, c.course i = b.course i) →
      ∀ i, c.course i = a.course i := fun _ _ _ h h' i => (h' i).trans (h i)
  refine leads ((readOnly_reads _).leadsFrom hrefl fun room => ?_)
  refine mono (Q := Found roomId room) ?_ (fun w hw => Checks.orElse_eq_ok.1 (Act.reads_eq_ok.1 hw.2).1)
  split
  · exact ((readOnly_pure _).leads hrefl).from
  · refine (readOnly_orFail _ _).skip hrefl fun frozen => readOnly_get.skip hrefl fun w => ?_
    dsimp only
    split
    · exact ((readOnly_pure _).leads hrefl).from
    · refine bind htrans (Act.leadsFrom_modify fun s hs i => ?_) fun _ => ?_
      · change (s.withRoom roomId (flushedRoom room)).course i = s.course i
        rw [course_withRoom]
        by_cases hi : i = roomId
        · rw [if_pos hi, hi, course_of_found hs]
          rfl
        · rw [if_neg hi]
      · exact Leads.bind htrans (Act.leads_modify fun s i => rfl) fun _ => (readOnly_pure _).leads hrefl

theorem touches_beginRewardPersistence (U : Unicode) (now : Instant) (rolls : Int → Nat × Nat) (roomId : RoomId) :
    Leads (Touches roomId) (beginRewardPersistence U now rolls roomId) := by
  refine Act.leads_modify fun w => ?_
  split
  · exact Touches.refl roomId w
  · split
    · split
      · unfold withPlanned
        split
        · exact Touches.trans _ _ _ _ (touches_withRoom w roomId _) (touches_logged _ roomId _)
        · exact touches_withRoom w roomId _
      · exact touches_withRoom w roomId _
    · exact Touches.refl roomId w

theorem touches_withFinalized (w : World) (roomId : RoomId) (room : ProtocolRoomState) (ranking : SettlementRanking) :
    Touches roomId w (w.withFinalized roomId room ranking) := by
  have hreleased : ∀ released : World, Touches roomId w released → Touches roomId w (if room.isEmpty then released.withoutRoom roomId
      else released.withRoom roomId ((room.applyNextGridRanking ranking).applyNextLobbyMaster ranking).backToLobby) := by
    intro released hreleased
    refine Touches.trans _ _ _ _ hreleased ?_
    split
    · exact touches_withoutRoom released roomId
    · exact touches_withRoom released roomId _
  unfold withFinalized
  rcases room.raceFence with _ | fence
  · exact hreleased w (Touches.refl roomId w)
  · exact hreleased (w.releaseRewardLanes fence) (touches_releaseRewardLanes w roomId fence)

theorem touches_tryFinalizeSettlement (roomId : RoomId) : Leads (Touches roomId) (tryFinalizeSettlement roomId) := by
  have htrans := Touches.trans roomId
  refine Leads.bind htrans (touches_tryFlushPendingRaceFanouts roomId) fun flushed => ?_
  split
  · exact (readOnly_pure _).leads (Touches.refl roomId)
  · refine Leads.bind htrans (readOnly_get.leads (Touches.refl roomId)) fun w => ?_
    split
    · exact (readOnly_pure _).leads (Touches.refl roomId)
    · split
      · refine Leads.bind htrans ((readOnly_orFail _ _).leads (Touches.refl roomId)) fun frozen => ?_
        dsimp only
        split
        · exact (readOnly_pure _).leads (Touches.refl roomId)
        · refine Leads.bind htrans ((readOnly_require _ _).leads (Touches.refl roomId)) fun _ => ?_
          refine Leads.bind htrans (Act.leads_modify fun s => ?_) fun _ => Act.leads_modify fun s => touches_published s roomId _
          have hfinal := touches_withFinalized s roomId ‹ProtocolRoomState› ‹SettlementRanking›
          unfold loggedFinal
          split
          · exact htrans _ _ _ hfinal (touches_logged _ roomId _)
          · exact hfinal
      · exact (readOnly_pure _).leads (Touches.refl roomId)

theorem touches_advanceActiveRoom (U : Unicode) (now : Instant) (rolls : RoomId → Int → Nat × Nat) (roomId : RoomId) :
    Leads (Touches roomId) (advanceActiveRoom U now rolls roomId) := by
  have htrans := Touches.trans roomId
  refine Leads.bind htrans (readOnly_get.leads (Touches.refl roomId)) fun w => ?_
  split
  · exact Leads.bind htrans (touches_beginRewardPersistence U now _ roomId) fun _ => touches_tryFinalizeSettlement roomId
  · exact Leads.bind htrans (touches_tryFlushPendingRaceFanouts roomId) fun _ => (readOnly_pure _).leads (Touches.refl roomId)

theorem readOnly_frozenRoom (roomId : RoomId) : ReadOnly (frozenRoom roomId) :=
  (readOnly_reads _).andThen fun _ => (readOnly_orFail _ _).andThen fun _ => readOnly_pure _

theorem touches_reconcileRunningRoom (now : Instant) (tick : Nat) (roomId : RoomId) :
    Leads (Touches roomId) (reconcileRunningRoom now tick roomId) := by
  have htrans := Touches.trans roomId
  refine Leads.bind htrans ((readOnly_frozenRoom roomId).leads (Touches.refl roomId)) fun entry => ?_
  refine Leads.bind htrans (readOnly_get.leads (Touches.refl roomId)) fun w => ?_
  split
  · refine Act.leads_modify fun s => ?_
    exact htrans _ _ _ (touches_withRoom s roomId _) (touches_logged _ roomId _)
  · exact (readOnly_pure _).leads (Touches.refl roomId)

/-- A room has a course while the users stay, and lanes are only released. -/
structure Stays (w : World) (i : RoomId) (c : Course) (s : World) : Prop where
  users : SameUsers w s
  course : s.course i = some c
  lanes : ∀ userNo fence, s.rewardLanes.lookup userNo = some fence → w.rewardLanes.lookup userNo = some fence

/-- A race that does not settle and is either over or has a racer that is present. -/
structure Steady (w : World) (i : RoomId) (c : Course) : Prop where
  phase : c.phase ≠ .settling
  racer : ∀ field, c.field = some field → w.RacerPresent i field

variable {i : RoomId} {c : Course} {s : World}

theorem Steady.of_users (hc : Steady w i c) (h : SameUsers w w') : Steady w' i c :=
  ⟨hc.phase, fun field hfield => (h.racerPresent i field).2 (hc.racer field hfield)⟩

/-- What touches another room leaves this one alone. -/
theorem Stays.of_touches {s' : World} (h : Stays w i c s) (ht : Touches roomId s s') (hne : i ≠ roomId) : Stays w i c s' where
  users := h.users.trans ht.users
  course := by
    have hcourse := h.course
    unfold World.course at hcourse ⊢
    rw [ht.others i hne]
    exact hcourse
  lanes := fun userNo fence hlane => h.lanes userNo fence (ht.lanes userNo fence hlane)

theorem Stays.found (h : Stays w i c s) : ∃ room, Found i room s ∧ room.course = c := Option.map_eq_some_iff.1 h.course

theorem Steady.reconcileRunningRoom (hc : Steady w i c) (now : Instant) (tick : Nat) (h : Stays w i c s) :
    Stays w i c (reconcileRunningRoom now tick i s).2 := by
  obtain ⟨room, hfound, rfl⟩ := h.found
  rcases hfrozen : room.frozenRace with _ | frozen
  · have hfails : frozenRoom i s = (.error (.panic "a Loading room has a frozen roster"), s) := by
      refine Act.bind_eq_error.2 (.inr ⟨room, s, Act.reads_eq_ok.2 ⟨Checks.orElse_eq_ok.2 hfound, rfl⟩, ?_⟩)
      refine Act.bind_eq_error.2 (.inl ?_)
      rw [hfrozen]
      rfl
    unfold World.reconcileRunningRoom
    rw [Act.bind_eq_error.2 (.inl hfails)]
    exact h
  · have hracer := (h.users.racerPresent i frozen.field).2 (hc.racer frozen.field (by
      change room.frozenRace.map _ = _
      rw [hfrozen]
      rfl))
    unfold World.reconcileRunningRoom
    rw [Act.bind_of_ok (frozenRoom_eq hfound hfrozen), Act.bind_of_ok (Act.get_eq_ok.2 ⟨rfl, rfl⟩)]
    rw [if_neg (fun hall => (all_observer_iff s i frozen).1 hall hracer)]
    exact h

theorem Steady.advanceActiveRoom (hc : Steady w i c) (U : Unicode) (now : Instant) (rolls : RoomId → Int → Nat × Nat)
    (h : Stays w i c s) : Stays w i c (advanceActiveRoom U now rolls i s).2 := by
  obtain ⟨room, hfound, rfl⟩ := h.found
  have hreached : (s.protocolRooms.lookup i).any (fun room => deadlineReached room now) = false := by
    rw [show s.protocolRooms.lookup i = some room from hfound, Option.any_some]
    unfold deadlineReached
    rw [decide_eq_false (show ¬room.phase = .settling from hc.phase), Bool.false_and]
  have hflush : (World.advanceActiveRoom U now rolls i s).2 = (tryFlushPendingRaceFanouts i s : Except (Fault WorldError) Bool × World).2 := by
    unfold World.advanceActiveRoom
    rw [Act.bind_of_ok (Act.get_eq_ok.2 ⟨rfl, rfl⟩), hreached, if_neg (by simp)]
    change (Act.andThen (tryFlushPendingRaceFanouts i) _ s).2 = _
    unfold Act.andThen
    rcases tryFlushPendingRaceFanouts i s with ⟨r, u⟩
    cases r with
    | ok a => rfl
    | error e => rfl
  have htouches : Touches i s (tryFlushPendingRaceFanouts i s : Except (Fault WorldError) Bool × World).2 :=
    touches_tryFlushPendingRaceFanouts i s
  rw [hflush]
  refine ⟨h.users.trans htouches.users, ?_, fun userNo fence hlane => h.lanes userNo fence (htouches.lanes userNo fence hlane)⟩
  rw [course_tryFlushPendingRaceFanouts i s i]
  exact h.course

/-- A call at each room that leaves a room as it is. -/
theorem stays_atRooms {call : RoomId → WorldAct Unit} (hcall : ∀ roomId s, Stays w i c s → Stays w i c (call roomId s).2)
    (rooms : List RoomId) (h : Stays w i c s) : Stays w i c (atRooms call rooms s).2 := by
  induction rooms generalizing s with
  | nil => exact h
  | cons roomId rest ih =>
    have hfirst := hcall roomId s h
    change Stays w i c (Act.andThen (call roomId) _ s).2
    unfold Act.andThen
    rcases hs : call roomId s with ⟨r, u⟩
    rw [hs] at hfirst
    cases r with
    | ok a => exact ih hfirst
    | error e => exact hfirst

/-! ## A heartbeat -/

theorem nodup_roomsWhere (w : World) (p : ProtocolRoomState → Bool) : (w.roomsWhere p).Nodup := by
  have hkeys : (w.protocolRooms.entries.map (·.1)).Nodup := w.protocolRooms.nodupKeys
  exact hkeys.sublist (Sublist.map _ filter_sublist)

theorem mem_roomsWhere {p : ProtocolRoomState → Bool} : i ∈ w.roomsWhere p ↔ ∃ room, Found i room w ∧ p room = true := by
  unfold roomsWhere
  rw [mem_map]
  constructor
  · rintro ⟨⟨id, room⟩, hentry, rfl⟩
    obtain ⟨hmem, hp⟩ := mem_filter.1 hentry
    exact ⟨room, AList.mem_lookup_iff.2 hmem, hp⟩
  · rintro ⟨room, hfound, hp⟩
    exact ⟨⟨i, room⟩, mem_filter.2 ⟨AList.mem_lookup_iff.1 hfound, hp⟩, rfl⟩

/-- A call at every room of a list that a test accepts. -/
theorem stirs_atRoomsIn {call : RoomId → WorldAct Unit} {p : ProtocolRoomState → Prop}
    (hcall : ∀ roomId, LeadsFrom (fun w => ∃ room, Found roomId room w ∧ p room) (Stirs calm) (call roomId))
    (htouches : ∀ roomId, Leads (Touches roomId) (call roomId)) {rooms : List RoomId} (hnodup : rooms.Nodup) :
    LeadsFrom (fun w => ∀ i ∈ rooms, ∃ room, Found i room w ∧ p room) (Stirs calm) (atRooms call rooms) := by
  induction rooms with
  | nil => exact (stirs_pure _).from
  | cons first rest ih =>
    intro w hw
    obtain ⟨hfirst, hrest⟩ := nodup_cons.1 hnodup
    have hstirs := hcall first w (hw first mem_cons_self)
    have htouched := htouches first w
    change Stirs calm w (Act.andThen (call first) _ w).2
    unfold Act.andThen
    rcases hcalled : call first w with ⟨r, u⟩
    rw [hcalled] at hstirs htouched
    cases r with
    | error e => exact hstirs
    | ok a =>
      refine hstirs.trans (ih hrest u fun i hi => ?_)
      obtain ⟨room, hfound, hp⟩ := hw i (mem_cons_of_mem _ hi)
      refine ⟨room, (htouched.others i ?_).trans hfound, hp⟩
      rintro rfl
      exact hfirst hi

/-- The room of a visit, once it is looked up with its roster. -/
theorem behindFrozenRoom {β : Type} {P : World → Prop} {k : ProtocolRoomState × FrozenRaceRoster → WorldAct β}
    (hk : ∀ room frozen, room.frozenRace = some frozen → LeadsFrom (fun s => P s ∧ Found roomId room s) (Stirs calm) (k (room, frozen))) :
    LeadsFrom P (Stirs calm) (frozenRoom roomId >>= k) := by
  refine (readOnly_frozenRoom roomId).leadsFrom stirs_refl fun entry w hw => ?_
  obtain ⟨room, w₁, hread, hrest⟩ := Act.bind_eq_ok.1 hw.2
  obtain ⟨hroom, rfl⟩ := Act.reads_eq_ok.1 hread
  obtain ⟨frozen, w₂, hfrozen, hrest⟩ := Act.bind_eq_ok.1 hrest
  obtain ⟨rfl, -⟩ := Act.pure_eq_ok.1 hrest
  exact hk room frozen (Checks.orElse_eq_ok.1 (Act.ofExcept_eq_ok.1 hfrozen).1) w ⟨hw.1, Checks.orElse_eq_ok.1 hroom⟩

theorem stirs_reconcileRunningRoom (now : Instant) (tick : Nat) (roomId : RoomId) :
    LeadsFrom (fun w => ∃ room, Found roomId room w ∧ room.phase = .running) (Stirs calm) (reconcileRunningRoom now tick roomId) := by
  refine behindFrozenRoom fun room frozen hfrozen => behindGet fun w hw => ?_
  obtain ⟨⟨room', hfound', hphase⟩, hfound⟩ := hw
  obtain rfl := Option.some.inj (hfound'.symm.trans hfound)
  dsimp only
  split
  · refine Act.leadsFrom_modify fun s hs => ?_
    subst hs
    exact .single (.abandoned now _ hfound hphase hfrozen)
  · exact (stirs_pure _).from

/-- The later parts of a heartbeat. -/
def afterLoading (U : Unicode) (visit : List RoomId → List RoomId) (now : Instant) (tick : Nat)
    (rolls : RoomId → Int → Nat × Nat) : WorldAct Unit := do
  let w ← Act.get
  atRooms (World.reconcileRunningRoom now tick) (visit (w.roomsWhere (fun room => room.phase = .running)))
  let w ← Act.get
  atRooms (World.advanceActiveRoom U now rolls)
    (visit (w.roomsWhere (fun room => room.phase = .running || room.phase = .settling)))

variable {visit : List RoomId → List RoomId}

theorem calm_afterLoading (hvisit : ∀ rooms, (visit rooms).Perm rooms) (U : Unicode) (now : Instant) (tick : Nat)
    (rolls : RoomId → Int → Nat × Nat) : Leads Calm (afterLoading U visit now tick rolls) := by
  have hstirs : Leads (Stirs true) (World.afterLoading U visit now tick rolls) := by
    refine leads (behindGet fun w _ => bind stirs_trans ?_ fun _ => ?_)
    · rintro s rfl
      refine stirs_atRoomsIn (stirs_reconcileRunningRoom now tick) (touches_reconcileRunningRoom now tick)
        ((hvisit _).nodup_iff.2 (nodup_roomsWhere s _)) s fun i hi => ?_
      obtain ⟨room, hfound, hphase⟩ := mem_roomsWhere.1 ((hvisit _).mem_iff.1 hi)
      exact ⟨room, hfound, of_decide_eq_true hphase⟩
    · exact leads (behindGet fun w _ => Leads.from (stirs_atRooms (stirs_advanceActiveRoom U now rolls) _))
  exact fun w => calm_of_stirs (hstirs w)

/-- A race whose loading was visited stays as it is for the rest of the heartbeat. -/
theorem Steady.afterLoading (hc : Steady w i c) (U : Unicode) (now : Instant) (tick : Nat)
    (rolls : RoomId → Int → Nat × Nat) (h : Stays w i c s) : Stays w i c (afterLoading U visit now tick rolls s).2 := by
  have hreconcile : ∀ roomId s, Stays w i c s → Stays w i c (World.reconcileRunningRoom now tick roomId s).2 := by
    intro roomId s hs
    by_cases hne : i = roomId
    · subst hne
      exact hc.reconcileRunningRoom now tick hs
    · exact hs.of_touches (touches_reconcileRunningRoom now tick roomId s) hne
  have hadvance : ∀ roomId s, Stays w i c s → Stays w i c (World.advanceActiveRoom U now rolls roomId s).2 := by
    intro roomId s hs
    by_cases hne : i = roomId
    · subst hne
      exact hc.advanceActiveRoom U now rolls hs
    · exact hs.of_touches (touches_advanceActiveRoom U now rolls roomId s) hne
  have hfirst := stays_atRooms hreconcile (visit (s.roomsWhere (fun room => room.phase = .running))) h
  unfold World.afterLoading
  rw [Act.bind_of_ok (Act.get_eq_ok.2 ⟨rfl, rfl⟩)]
  change Stays w i c (Act.andThen (atRooms _ _) _ s).2
  unfold Act.andThen
  rcases hs : atRooms (World.reconcileRunningRoom now tick) (visit (s.roomsWhere (fun room => room.phase = .running))) s with ⟨r, u⟩
  rw [hs] at hfirst
  cases r with
  | error e => exact hfirst
  | ok a => exact stays_atRooms hadvance _ hfirst

theorem advanceLoading_eq (items : ItemService) (U : Unicode) (now : Instant) (tick : Nat) (rolls : RoomId → Int → Nat × Nat)
    (hquiescing : w.quiescing = false) : advanceLoading U items visit now tick rolls w =
      (atRooms (advanceLoadingRoom items now tick) (visit (w.roomsWhere (fun room => room.phase = .loading))) >>= fun _ =>
        World.afterLoading U visit now tick rolls) w := by
  unfold advanceLoading
  rw [Act.bind_of_ok (Act.get_eq_ok.2 ⟨rfl, rfl⟩), if_neg (by rw [hquiescing]; simp)]
  rfl

/-- What a heartbeat leaves of a race that loads. -/
structure Beaten (i : RoomId) (field : RaceField) (now : Instant) (c : Course) (w w' : World) : Prop where
  beat : ∃ c', w'.course i = some c' ∧ Beat (w.presentStamps i field) (w.RacerPresent i field) now c c'
  lanes : ¬w.RacerPresent i field → ∀ userNo, w'.rewardLanes.lookup userNo ≠ some field.fence

/-- A beat leaves a race that stays. -/
theorem Beat.steady {field : RaceField} {present : Finset FrozenParticipantStamp} {now : Instant} {c c' : Course}
    (h : Beat present (w.RacerPresent i field) now c c') (hphase : c.phase = .loading) (hfield : c.field = some field) :
    Steady w i c' := by
  have hracer : w.RacerPresent i field → ∀ field', c.field = some field' → w.RacerPresent i field' := by
    intro hpresent field' hfield'
    obtain rfl := Option.some.inj (hfield.symm.trans hfield')
    exact hpresent
  cases h with
  | aborted _ =>
    refine ⟨?_, ?_⟩
    · rintro ⟨⟩
    · rintro field' ⟨⟩
  | checked hpresent =>
    refine ⟨?_, hracer hpresent⟩
    change c.phase ≠ _
    rw [hphase]
    simp
  | began hpresent _ =>
    refine ⟨?_, hracer hpresent⟩
    rintro ⟨⟩

/-- A heartbeat: each race that loads takes a beat, and the other rooms go on by turns. -/
theorem advanceLoading_beats (hsound : Sound w) (hvisit : ∀ rooms, (visit rooms).Perm rooms) (hquiescing : w.quiescing = false)
    (items : ItemService) (U : Unicode) (now : Instant) (tick : Nat) (rolls : RoomId → Int → Nat × Nat) :
    ∃ w', (advanceLoading U items visit now tick rolls w).2 = w' ∧ w'.nextRaceEpoch = w.nextRaceEpoch ∧
      (∀ i c field, w.course i = some c → c.phase = .loading → c.field = some field → Beaten i field now c w w') ∧
      (∀ i, (∀ c, w.course i = some c → c.phase ≠ .loading) → Goes (w.course i) (w'.course i)) := by
  generalize hrooms : visit (w.roomsWhere (fun room => room.phase = .loading)) = rooms
  have hnodup : rooms.Nodup := hrooms ▸ (hvisit _).nodup_iff.2 (nodup_roomsWhere w _)
  have hmem : ∀ i, i ∈ rooms ↔ ∃ room, Found i room w ∧ room.phase = .loading := by
    intro i
    rw [← hrooms, (hvisit _).mem_iff, mem_roomsWhere]
    simp only [decide_eq_true_eq]
  obtain ⟨w₁, hloop, hswept⟩ := swept_atRooms items now tick rooms w hnodup (by
    intro i hi
    obtain ⟨room, hfound, hphase⟩ := (hmem i).1 hi
    exact ⟨room, hfound, hphase, hsound i room.course (course_of_found hfound)⟩)
  have hcalm := calm_afterLoading hvisit U now tick rolls w₁
  refine ⟨(World.afterLoading U visit now tick rolls w₁).2, ?_, hcalm.epoch.trans hswept.users.epoch, ?_, ?_⟩
  · rw [advanceLoading_eq items U now tick rolls hquiescing, hrooms, Act.bind_of_ok hloop]
  · intro i c field hcourse hphase hfield
    obtain ⟨room, hfound, rfl⟩ := Option.map_eq_some_iff.1 hcourse
    obtain ⟨frozen, hfrozen, rfl⟩ := Option.map_eq_some_iff.1 hfield
    obtain ⟨next, hnext, hbeat⟩ := hswept.visited i ((hmem i).2 ⟨room, hfound, hphase⟩) room hfound
    obtain ⟨hbeat, hlanes⟩ := hbeat frozen hfrozen
    have hsteady : Steady w₁ i next.course := (hbeat.steady hphase hfield).of_users hswept.users
    have hstays : Stays w₁ i next.course (World.afterLoading U visit now tick rolls w₁).2 :=
      hsteady.afterLoading U now tick rolls ⟨.refl w₁, course_of_found hnext, fun _ _ hlane => hlane⟩
    exact ⟨⟨next.course, hstays.course, hbeat⟩, fun hnone userNo hlane => hlanes hnone userNo (hstays.lanes userNo _ hlane)⟩
  · intro i hnot
    have hsame : w₁.course i = w.course i := by
      unfold World.course
      rw [hswept.others i]
      intro hi
      obtain ⟨room, hfound, hphase⟩ := (hmem i).1 hi
      exact hnot room.course (course_of_found hfound) hphase
    rw [← hsame]
    exact hcalm.goes i

end World

end P5136
