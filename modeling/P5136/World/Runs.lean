import P5136.World.Loadings

/-!
# Runs of the world

The commands of the world, what each may do to the course of each room, and the runs of the world with the commands they got.
-/

namespace P5136

namespace World

open Act

/-- An order in which a heartbeat visits rooms: the source goes through a hash map. -/
structure VisitOrder where
  visit : List RoomId → List RoomId
  perm : ∀ rooms, (visit rooms).Perm rooms

/-- What happens outside of the rooms: sessions, identities, MyRoom, messages, profiles. -/
structure Outside where
  effect : World → World
  rooms : ∀ w, (effect w).protocolRooms = w.protocolRooms
  epoch : ∀ w, (effect w).nextRaceEpoch = w.nextRaceEpoch

/-- The commands that change rooms, and everything else. -/
inductive Command where
  | lobby (session : SessionId) (payload : LobbyCommandPayload)
  | rooms (hub : HubReleases) (now : Instant) (session : SessionId) (payload : RoomCommandPayload)
  | race (items : ItemService) (session : SessionId) (payload : RaceCommandPayload) (now : Instant) (tick : Nat)
  | udp (identity : IdentityBinding) (observedPort : Option UInt16) (timeSync answered : Bool)
  | readiness (candidate : LoadingReadinessCandidate)
  | heartbeat (items : ItemService) (order : VisitOrder) (now : Instant) (tick : Nat) (rolls : RoomId → Int → Nat × Nat)
  | equipment (hub : HubReleases) (now : Instant) (userNo : UserNo) (snapshot : Vector UInt8 65) (packet : List UInt8)
  | kartPhysics (session : SessionId) (floaterCodes : Vector Int 3)
  | mainEmblems (expected : IdentityBinding) (emblem1 emblem2 emblem3 : Nat)
  | clientStage (hub : HubEffect) (session : SessionId)
  | myroomStage (hub : HubEffect) (session : SessionId)
  | sessionClosed (hub : HubReleases) (session : SessionId) (now : Instant)
  | equipmentWritten (hub : HubReleases) (session : SessionId) (closeRequested : Bool) (now : Instant)
  | expireMigrations (hub : HubReleases) (now : Instant)
  | collectDrained (hub : HubReleases) (now : Instant)
  | drainSessions (hub : HubReleases) (hubEmpty : Bool)
  | migrate (around : MigrationSurroundings) (ticket : MigrationPreflight) (now : Instant)
  | deliver (hub : HubReleases) (now : Instant) (deliveries : List OutboundDelivery)
  | takeRewards (now : Instant) (maximum : Nat)
  | completeReward (completion : RewardPersistenceCompletion) (refresh : RewardRefresh) (now : Instant)
  | retryReward (deadLetter : RewardDeadLetter) (now : Instant)
  | quiesce
  | drainProducers (hub : HubReleases) (order : VisitOrder) (writes : Bool) (now : Instant)
  | outside (change : Outside)

/-- The world that a command leaves, whatever its result. -/
def perform (U : Unicode) (command : Command) (w : World) : World :=
  match command with
  | .lobby session payload => (lobbyCommand U session payload w).2
  | .rooms hub now session payload => (roomProtocol U hub now session payload w).2
  | .race items session payload now tick => (raceCommand U items session payload now tick w).2
  | .udp identity observedPort timeSync answered => (dispatchUdpIngress identity observedPort timeSync answered w).2
  | .readiness candidate => (markLoadingReady candidate w).2
  | .heartbeat items order now tick rolls => (advanceLoading U items order.visit now tick rolls w).2
  | .equipment hub now userNo snapshot packet => (publishEquipment U hub now userNo snapshot packet w).2
  | .kartPhysics session floaterCodes => (refreshRoomKartPhysics U session floaterCodes w).2
  | .mainEmblems expected emblem1 emblem2 emblem3 => (publishMainEmblems expected emblem1 emblem2 emblem3 w).2
  | .clientStage hub session => (enterClientStage U hub session w).2
  | .myroomStage hub session => (myroomEntryStage U hub session w).2
  | .sessionClosed hub session now => (World.sessionClosed U hub session now w).2
  | .equipmentWritten hub session closeRequested now => (finishDeferredEquipmentClose U hub session closeRequested now w).2
  | .expireMigrations hub now => (World.expireMigrations U hub now w).2
  | .collectDrained hub now => (collectDrainedIdentityReleases U hub now w).2
  | .drainSessions hub hubEmpty => (drainSessionsForShutdown hub hubEmpty w).2
  | .migrate around ticket now => (completePreflightedMigration around ticket now w).2
  | .deliver hub now deliveries => (World.deliver U hub now deliveries w).2
  | .takeRewards now maximum => (takeDueRewardTasks now maximum w).2
  | .completeReward completion refresh now => (completeRewardTask completion refresh now w).2
  | .retryReward deadLetter now => (retryRewardDeadLetter deadLetter now w).2
  | .quiesce => (World.quiesce w).2
  | .drainProducers hub order writes now => (drainOutboundProducersOnce hub order.visit writes now w).2
  | .outside change => change.effect w

/-! ## Why something happens -/

namespace Command

/-- A start of a race. -/
def Starts : Command → Prop
  | .lobby _ (.startRoom _ _) => True
  | _ => False

/-- A request of an identity in a room to arm its handshake. -/
def Arms (U : Unicode) (w : World) (roomId : RoomId) (identity : IdentityBinding) (deadline : Instant) : Command → Prop
  | .race _ session (.gameControl request) now _ =>
    request.state = 0 ∧ w.authorizeSessionOperation U session = .ok identity ∧
      w.protocolRoomByUser.lookup identity.userNo = some roomId ∧ Instant.checkedAdd now loadingReadyTimeout = some deadline
  | _ => False

/-- The candidate that a command may make ready. -/
def candidate (w : World) : Command → Option LoadingReadinessCandidate
  | .udp identity _ timeSync answered => w.udpCandidate identity timeSync answered
  | .readiness candidate => some candidate
  | _ => none

/-- The time of a heartbeat. -/
def beatsAt : Command → Option Instant
  | .heartbeat _ _ now _ _ => some now
  | _ => none

/-- Why an event of the loading at a room comes about when a command takes a world to another. -/
def Causes (U : Unicode) (w w' : World) (roomId : RoomId) (command : Command) : Course.LoadingEvent → Prop
  | .started field => command.Starts ∧ field.fence.roomId = roomId ∧ w.nextRaceEpoch = some field.fence.raceEpoch ∧
      w'.nextRaceEpoch = field.fence.raceEpoch.following
  | .armed identity deadline => command.Arms U w roomId identity deadline ∧ w'.nextRaceEpoch = w.nextRaceEpoch
  | .marked identity epoch => w.identities.activeIdentityByUserNo identity.userNo = some identity ∧
      command.candidate w = some ⟨roomId, epoch, .of identity⟩ ∧ w'.nextRaceEpoch = w.nextRaceEpoch
  | _ => False

end Command

/-- What a command may do: nothing but turns, one event of the loading of one race, or a heartbeat. -/
inductive Does (U : Unicode) (w w' : World) (command : Command) : Prop where
  | calm : Calm w w' → Does U w w' command
  | moves {roomId : RoomId} {event : Course.LoadingEvent} : Moved event roomId w w' → command.Causes U w w' roomId event →
      Does U w w' command
  | beats (now : Instant) : command.beatsAt = some now → w.quiescing = false → w'.nextRaceEpoch = w.nextRaceEpoch →
      (∀ i c field, w.course i = some c → c.phase = .loading → c.field = some field → Beaten i field now c w w') →
      (∀ i, (∀ c, w.course i = some c → c.phase ≠ .loading) → Goes (w.course i) (w'.course i)) → Does U w w' command

variable {U : Unicode} {w w' : World}

/-- Behind a reader, a call is where the reader leaves it. -/
theorem snd_bind_reads {ε α β : Type} {f : World → Except (Fault ε) α} {k : α → Act World (Fault ε) β} (w : World) :
    ((Act.reads f >>= k) w).2 = w ∨ ∃ a, f w = .ok a ∧ ((Act.reads f >>= k) w).2 = (k a w).2 := by
  rcases hf : f w with e | a
  · refine .inl ?_
    change (Act.andThen (Act.reads f) k w).2 = w
    unfold Act.andThen Act.reads
    rw [hf]
  · refine .inr ⟨a, rfl, ?_⟩
    change (Act.andThen (Act.reads f) k w).2 = _
    unfold Act.andThen Act.reads
    rw [hf]

/-- Nothing may happen. -/
theorem Does.still {command : Command} (h : w' = w) : Does U w w' command := by
  rw [h]
  exact .calm (Calm.refl w)

/-- Changes that load no race. -/
theorem Does.stirs {command : Command} (h : Stirs true w w') : Does U w w' command := .calm (calm_of_stirs h)

/-- The identity that a session acts for is authorized. -/
theorem authorize_of_mapError {session : SessionId} {identity : IdentityBinding}
    (h : (w.authorizeSessionOperation U session).mapError (fun e => (Fault.error (WorldError.identity e))) = .ok identity) :
    w.authorizeSessionOperation U session = .ok identity := Checks.mapError_eq_ok.1 h

theorem does_lobby (session : SessionId) (payload : LobbyCommandPayload) (w : World) :
    Does U w (perform U (.lobby session payload) w) (.lobby session payload) := by
  rcases snd_bind_reads (f := fun w => (w.authorizeSessionOperation U session).mapError (fun e => Fault.error (.identity e)))
    (k := fun identity => Act.mapError (liftFault .lobby) (lobbyDispatch U session identity payload)) w with
    hstill | ⟨identity, -, hdispatch⟩
  · exact .still hstill
  · have hperform : perform U (.lobby session payload) w = (lobbyDispatch U session identity payload w).2 := hdispatch
    rw [hperform]
    cases payload with
    | setSlotState state => exact .stirs (stirs_setSlotState identity state w)
    | changeTeam team => exact .stirs (stirs_changeTeam identity team w)
    | changeMaster nickname => exact .stirs (stirs_changeMaster U identity nickname w)
    | startRoom plan draw =>
      rcases startCommand_moves session identity (w.livePlan plan) draw w with hcalm | ⟨roomId, field, hmoved, hfence, hnext, hlast⟩
      · exact .calm hcalm
      · exact .moves hmoved ⟨trivial, hfence, hnext, hlast⟩
    | changeTrack request => exact .stirs (stirs_changeTrack identity request w)
    | basicAi request first second => exact .stirs (stirs_changeBasicAi identity request first second w)
    | closeSlot request => exact .stirs (stirs_changeClosedSlots identity request w)
    | riderTalk message => exact .stirs (stirs_relayRiderTalk identity message w)
    | macroChat request message => exact .stirs (stirs_relayMacroChat identity request message w)
    | changeRoomInfo request => exact .stirs (stirs_changeRoomInfo identity request w)
    | kick targetPlayerId => exact .stirs (stirs_kickPlayer identity targetPlayerId w)

theorem does_race (items : ItemService) (session : SessionId) (payload : RaceCommandPayload) (now : Instant) (tick : Nat)
    (w : World) : Does U w (perform U (.race items session payload now tick) w) (.race items session payload now tick) := by
  have hbehind : ∀ identity, w.authorizeSessionOperation U session = .ok identity → ∀ w',
      ((do
        let roomId ← Act.reads (fun w => Checks.orElse (w.protocolRoomByUser.lookup identity.userNo) (.error (.race .notInRoom)))
        Act.mapError (liftFault .race) (raceDispatch items roomId identity now tick payload) :
          WorldAct RaceCommandOutcome) w).2 = w' →
      Does U w w' (.race items session payload now tick) := by
    rintro identity hidentity w' rfl
    rcases snd_bind_reads (f := fun w => Checks.orElse (w.protocolRoomByUser.lookup identity.userNo) (.error (.race .notInRoom)))
      (k := fun roomId => Act.mapError (liftFault .race) (raceDispatch items roomId identity now tick payload)) w with
      hstill | ⟨roomId, hroomId, hdispatch⟩
    · exact .still hstill
    · have hmember : w.protocolRoomByUser.lookup identity.userNo = some roomId := Checks.orElse_eq_ok.1 hroomId
      rw [hdispatch]
      change Does U w (raceDispatch items roomId identity now tick payload w).2 _
      cases payload with
      | gameControl request =>
        change Does U w ((if request.state = 0 then armLoading roomId identity now
          else if request.state = 2 then recordHumanFinish roomId identity request.value0 now tick
          else Act.fail (.error (.unsupportedGameControlState request.state)) : RaceAct RaceCommandOutcome) w).2 _
        by_cases hstate : request.state = 0
        · rw [if_pos hstate]
          obtain ⟨hepoch, hsame | ⟨deadline, hdeadline, hmoved⟩⟩ := armLoading_moves roomId identity now w
          · exact .still hsame
          · exact .moves hmoved ⟨⟨hstate, hidentity, hmember, hdeadline⟩, hepoch⟩
        · rw [if_neg hstate]
          split
          · exact .stirs (stirs_recordHumanFinish roomId identity _ now tick w)
          · exact .calm (Calm.refl w)
      | aiGoalIn request => exact .stirs (stirs_recordAiFinish roomId identity request now tick w)
      | teamBoosterGauge request => exact .stirs (stirs_updateTeamBooster roomId identity request w)
      | gameSlot packet => exact .stirs (stirs_relayGameSlot items roomId identity packet now w)
  rcases snd_bind_reads (f := fun w => (w.authorizeSessionOperation U session).mapError (fun e => Fault.error (.identity e)))
    (k := fun identity => (do
      let roomId ← Act.reads (fun w => Checks.orElse (w.protocolRoomByUser.lookup identity.userNo) (.error (.race .notInRoom)))
      Act.mapError (liftFault .race) (raceDispatch items roomId identity now tick payload) :
        WorldAct RaceCommandOutcome)) w with hstill | ⟨identity, hidentity, hdispatch⟩
  · exact .still hstill
  · exact hbehind identity (authorize_of_mapError hidentity) _ hdispatch.symm

/-- The mark of a candidate after what keeps the courses. -/
theorem does_mark {command : Command} {candidate : LoadingReadinessCandidate} {w₁ : World} (hcourses : SameCourses w w₁)
    (hidentities : w₁.identities = w.identities) (hepoch : w₁.nextRaceEpoch = w.nextRaceEpoch)
    (hcandidate : command.candidate w = some candidate) : Does U w (markLoadingReady candidate w₁).2 command := by
  obtain ⟨hnext, hsame | ⟨identity, hstamp, hactive, hmoved⟩⟩ := markLoadingReady_moves candidate w₁
  · refine .calm ⟨fun i => ?_, hnext.trans hepoch⟩
    rw [hsame, hcourses i]
  · rw [hidentities] at hactive
    obtain ⟨c, c', hcourse, hloads, hothers⟩ := hmoved
    have hmoves : ∀ i, (markLoadingReady candidate w₁).2.course i = if i = candidate.roomId then some c' else w.course i :=
      fun i => by rw [hothers i, hcourses i]
    refine .moves ⟨c, c', (hcourses _).symm.trans hcourse, hloads, hmoves⟩ ⟨hactive, ?_, hnext.trans hepoch⟩
    rw [hcandidate, hstamp]

theorem does_udp (identity : IdentityBinding) (observedPort : Option UInt16) (timeSync answered : Bool) (w : World) :
    Does U w (perform U (.udp identity observedPort timeSync answered) w) (.udp identity observedPort timeSync answered) := by
  obtain ⟨w₁, hcourses, hidentities, hepoch, heq⟩ := dispatchUdpIngress_eq identity observedPort timeSync answered w
  change Does U w (dispatchUdpIngress identity observedPort timeSync answered w).2 _
  rw [heq]
  rcases hcandidate : w.udpCandidate identity timeSync answered with _ | candidate
  · refine .calm ⟨fun i => ?_, hepoch⟩
    rw [hcourses i]
  · exact does_mark hcourses hidentities hepoch hcandidate

theorem does_heartbeat (hsound : Sound w) (items : ItemService) (order : VisitOrder) (now : Instant) (tick : Nat)
    (rolls : RoomId → Int → Nat × Nat) : Does U w (perform U (.heartbeat items order now tick rolls) w)
      (.heartbeat items order now tick rolls) := by
  change Does U w (advanceLoading U items order.visit now tick rolls w).2 _
  rcases hquiescing : w.quiescing with _ | _
  · obtain ⟨w', heq, hepoch, hbeaten, hothers⟩ := advanceLoading_beats hsound order.perm hquiescing items U now tick rolls
    rw [heq]
    exact .beats now rfl hquiescing hepoch hbeaten hothers
  · refine .calm ?_
    unfold advanceLoading
    rw [Act.bind_of_ok (Act.get_eq_ok.2 ⟨rfl, rfl⟩), hquiescing, if_pos rfl]
    exact Calm.refl w

/-- What a command may do. -/
theorem does (hsound : Sound w) (command : Command) : Does U w (perform U command w) command := by
  cases command with
  | lobby session payload => exact does_lobby session payload w
  | rooms hub now session payload => exact .stirs (stirs_roomProtocol U hub now session payload w)
  | race items session payload now tick => exact does_race items session payload now tick w
  | udp identity observedPort timeSync answered => exact does_udp identity observedPort timeSync answered w
  | readiness candidate => exact does_mark (fun _ => rfl) rfl rfl rfl
  | heartbeat items order now tick rolls => exact does_heartbeat hsound items order now tick rolls
  | equipment hub now userNo snapshot packet => exact .stirs (stirs_publishEquipment U hub now userNo snapshot packet w)
  | kartPhysics session floaterCodes => exact .stirs (stirs_refreshRoomKartPhysics U session floaterCodes w)
  | mainEmblems expected emblem1 emblem2 emblem3 => exact .stirs (stirs_publishMainEmblems expected emblem1 emblem2 emblem3 w)
  | clientStage hub session => exact .stirs (stirs_enterStage U _ hub session w)
  | myroomStage hub session => exact .stirs (stirs_enterStage U _ hub session w)
  | sessionClosed hub session now => exact .stirs (stirs_sessionClosed U hub session now w)
  | equipmentWritten hub session closeRequested now =>
    exact .stirs (stirs_finishDeferredEquipmentClose U hub session closeRequested now w)
  | expireMigrations hub now => exact .stirs (stirs_expireMigrations U hub now w)
  | collectDrained hub now => exact .stirs (stirs_collectDrainedIdentityReleases U hub now w)
  | drainSessions hub hubEmpty => exact .stirs (stirs_drainSessionsForShutdown hub hubEmpty w)
  | migrate around ticket now => exact .stirs (stirs_completePreflightedMigration around ticket now w)
  | deliver hub now deliveries => exact .stirs (stirs_deliver U hub now deliveries w)
  | takeRewards now maximum => exact .stirs (stirs_takeDueRewardTasks now maximum w)
  | completeReward completion refresh now => exact .stirs (stirs_completeRewardTask completion refresh now w)
  | retryReward deadLetter now => exact .stirs (stirs_retryRewardDeadLetter deadLetter now w)
  | quiesce => exact .calm (.of_rooms rfl rfl)
  | drainProducers hub order writes now => exact .stirs (stirs_drainOutboundProducersOnce hub order.visit writes now w)
  | outside change => exact .calm (.of_rooms (change.rooms w) (change.epoch w))

/-! ## Runs -/

/-- A moment of a run: a world and the command it got. -/
abbrev Moment := World × Command

/-- A run: its moments, and the world it has reached. -/
inductive Run (U : Unicode) : List Moment → World → Prop where
  | start : Run U [] World.initial
  | step {past : List Moment} {w : World} (command : Command) : Run U past w →
      Run U (past ++ [(w, command)]) (perform U command w)

/-- A command keeps all rooms sound. -/
theorem Does.sound {command : Command} (h : Does U w w' command) (hsound : Sound w) : Sound w' := by
  cases h with
  | calm hcalm => exact hsound.calm hcalm
  | moves hmoved _ =>
    obtain ⟨c, c', hcourse, hloads, hothers⟩ := hmoved
    intro i d hd
    rw [hothers i] at hd
    split at hd
    · obtain rfl := Option.some.inj hd
      exact (hsound _ c hcourse).loads hloads
    · exact hsound i d hd
  | beats now _ _ _ hbeaten hothers =>
    intro i d hd
    by_cases hloading : ∃ c, w.course i = some c ∧ c.phase = .loading
    · obtain ⟨c, hcourse, hphase⟩ := hloading
      obtain ⟨field, hfield, -, -⟩ := (hsound i c hcourse).racing (by rw [hphase]; simp)
      obtain ⟨c', hcourse', hbeat⟩ := (hbeaten i c field hcourse hphase hfield).beat
      obtain rfl := Option.some.inj (hcourse'.symm.trans hd)
      exact hbeat.sound hphase (hsound i c hcourse)
    · refine sound_of_goes (hothers i fun c hcourse hphase => hloading ⟨c, hcourse, hphase⟩) (hsound i) d hd

/-- Every room of every run is sound. -/
theorem Run.sound {past : List Moment} (h : Run U past w) : Sound w := by
  induction h with
  | start =>
    rintro i c ⟨⟩
  | step command _ ih => exact (does ih command).sound ih

/-- The part of a run before a moment is a run. -/
theorem Run.before {before later : List Moment} {moment : Moment} {past : List Moment} (h : Run U past w)
    (hpast : past = before ++ moment :: later) : Run U before moment.1 := by
  induction h generalizing later with
  | start => exact absurd hpast.symm (by simp)
  | @step past' w' command hrun ih =>
    rcases List.eq_nil_or_concat later with rfl | ⟨rest, last, rfl⟩
    · obtain ⟨rfl, hmoment⟩ := List.append_inj' hpast rfl
      obtain rfl := (List.cons.inj hmoment).1
      exact hrun
    · have hsplit : past' ++ [(w', command)] = (before ++ moment :: rest) ++ [last] := by
        rw [hpast]
        simp
      exact ih (List.append_inj' hsplit rfl).1

/-- The moments of some commands, one after the other. -/
def moments (U : Unicode) : World → List Command → List Moment
  | _, [] => []
  | w, command :: commands => (w, command) :: moments U (perform U command w) commands

/-- The world behind them. -/
def performAll (U : Unicode) (w : World) (commands : List Command) : World :=
  commands.foldl (fun w command => perform U command w) w

/-- A run goes on with some commands. -/
theorem Run.performAll {past : List Moment} (h : Run U past w) (commands : List Command) :
    Run U (past ++ moments U w commands) (performAll U w commands) := by
  induction commands generalizing past w with
  | nil =>
    rw [moments, List.append_nil]
    exact h
  | cons command commands ih =>
    rw [moments, List.append_cons]
    exact ih (h.step command)

namespace OpenedAux

/-- A player with a session of the same number. -/
def player (name : String) (userNo : UserNo) : IdentityBinding :=
  ⟨name, userNo, ⟨userNo.get⟩, ⟨userNo.get⟩, .unspecified, some ⟨0, 67⟩⟩

def dao : IdentityBinding := player "dao" ⟨1, by decide, by decide⟩

def bazzi : IdentityBinding := player "bazzi" ⟨2, Nat.succ_ne_zero 1, NonZero.two_lt_32⟩

/-- A player as the registry holds it. -/
def active (binding : IdentityBinding) : ActiveIdentity :=
  ⟨⟨binding.nickname, binding.userNo⟩, binding.generation, some binding.owner, binding.sourceIp, binding.channel, none, none, 0⟩

/-- Two players connect. -/
def connected : Outside where
  effect w :=
    { w with
      sessions := AList.insert ⟨2⟩ ⟨.unspecified, some ⟨8, [], 0, 0, false⟩, false⟩
        (AList.insert ⟨1⟩ ⟨.unspecified, some ⟨8, [], 0, 0, false⟩, false⟩ ∅)
      identities := { IdentityRegistry.new with
        nameByUserNo := AList.insert bazzi.userNo "bazzi" (AList.insert dao.userNo "dao" ∅)
        activeByName := AList.insert "bazzi" (active bazzi) (AList.insert "dao" (active dao) ∅)
        sessionBindings := AList.insert ⟨2⟩ bazzi (AList.insert ⟨1⟩ dao ∅) } }
  rooms := fun _ => rfl
  epoch := fun _ => rfl

/-- The room that the first one makes. -/
def request : ChCreateRoomRequest := ⟨"", "", 1, 0, Vector.replicate 32 0⟩

/-- A racer. -/
def participant (name : String) : RoomParticipant :=
  ⟨⟨2, 1, 0, 0, name, 0, 0, 0, Vector.replicate 65 0, "", 0, 0, 0, 0, "", 0⟩, false, false, Vector.replicate 3 0⟩

def create : Command := .rooms (fun _ => none) 0 ⟨1⟩ (.create request (participant "dao"))

def join : Command := .rooms (fun _ => none) 0 ⟨2⟩ (.join ⟨1, ""⟩ (participant "bazzi"))

/-- The world with both players. -/
def world : World := perform .ascii (.outside connected) World.initial

/-- The world with a room of the first one. -/
def opened : World :=
  ((createRoomAt dao ⟨0, 67⟩ request (participant "dao") ⟨1⟩ { world with nextRoomId := 2 }).2).published
    [(⟨1⟩, [.createRoomReply .created 1])]

/-- The room with both. -/
def full : ProtocolRoomState :=
  match opened.joinOutcome bazzi ⟨1, ""⟩ (participant "bazzi") with
  | .ok (_, _, some room) => room
  | _ => .new ⟨1⟩ (createdSettings ⟨0, 67⟩ request)

/-- The world with both in the room. -/
def lobby : World := (opened.withMember bazzi.userNo ⟨1⟩ full).published [(⟨2⟩, [.joinRoomReply .success 1])]

theorem allocates_first : allocateProtocolRoomId world = (.ok (some ⟨1⟩), { world with nextRoomId := 2 }) := by
  have hsort : world.freeProtocolRoomIds.sort (· ≤ ·) = [] := Finset.sort_empty _
  unfold allocateProtocolRoomId
  rw [Act.bind_of_ok (Act.get_eq_ok.2 ⟨rfl, rfl⟩), hsort]
  rfl

/-- A reply that fits is published. -/
theorem reply_of_sendable {session : SessionId} {packets : OutboundBatch} (h : w.sendable (session, packets) = true) :
    reply .ascii (fun _ => none) 0 session packets w = (.ok (), w.published [(session, packets)]) := by
  unfold reply deliver
  rw [deliverFrom, if_pos h, deliverFrom]

theorem perform_create : perform .ascii create world = opened := by
  have hauthorized : authorizedIdentity .ascii ⟨1⟩ world = (.ok dao, world) := rfl
  have hcreated : createRoomAt dao ⟨0, 67⟩ request (participant "dao") ⟨1⟩ { world with nextRoomId := 2 } =
    (.ok .created, (createRoomAt dao ⟨0, 67⟩ request (participant "dao") ⟨1⟩ { world with nextRoomId := 2 }).2) := rfl
  change (roomProtocol .ascii (fun _ => none) 0 ⟨1⟩ (.create request (participant "dao")) world).2 = opened
  unfold roomProtocol
  rw [Act.bind_of_ok hauthorized]
  change (protocolCreateRoom .ascii (fun _ => none) 0 ⟨1⟩ dao request (participant "dao") world).2 = opened
  unfold protocolCreateRoom
  rw [Act.bind_of_ok (Act.get_eq_ok.2 ⟨rfl, rfl⟩), if_pos (by decide +kernel), Act.bind_of_ok (a := CreateRoomOutcome.created)
    (t := (createRoomAt dao ⟨0, 67⟩ request (participant "dao") ⟨1⟩ { world with nextRoomId := 2 }).2)]
  · rw [reply_of_sendable (by decide +kernel)]
    rfl
  · rw [Act.bind_of_ok allocates_first]
    exact hcreated

theorem perform_join : perform .ascii join opened = lobby := by
  have hauthorized : authorizedIdentity .ascii ⟨2⟩ opened = (.ok bazzi, opened) := rfl
  have houtcome : opened.joinOutcome bazzi ⟨1, ""⟩ (participant "bazzi") = .ok (.success, 1, some full) := rfl
  have hreads : (Act.reads (fun w => w.joinOutcome bazzi ⟨1, ""⟩ (participant "bazzi")) : WorldAct _) opened =
      (.ok (.success, 1, some full), opened) := congrArg (·, opened) houtcome
  have hreplied : reply .ascii (fun _ => none) 0 ⟨2⟩ [.joinRoomReply .success 1] (opened.withMember bazzi.userNo ⟨1⟩ full) =
    (.ok (), lobby) := reply_of_sendable (by decide +kernel)
  change (roomProtocol .ascii (fun _ => none) 0 ⟨2⟩ (.join ⟨1, ""⟩ (participant "bazzi")) opened).2 = lobby
  unfold roomProtocol
  rw [Act.bind_of_ok hauthorized]
  change (protocolJoinRoom .ascii (fun _ => none) 0 ⟨2⟩ bazzi ⟨1, ""⟩ (participant "bazzi") opened).2 = lobby
  unfold protocolJoinRoom
  rw [Act.bind_of_ok hreads]
  change (reply .ascii (fun _ => none) 0 ⟨2⟩ [.joinRoomReply .success 1] (opened.withMember bazzi.userNo ⟨1⟩ full)).2 = lobby
  rw [hreplied]

/-- The moments up to there. -/
def past : List Moment := [(World.initial, .outside connected), (world, create), (opened, join)]

theorem run_lobby : Run .ascii past lobby := by
  have hrun := ((Run.start (U := .ascii)).step (.outside connected)).step create
  have hopened : perform .ascii create (perform .ascii (.outside connected) World.initial) = opened := perform_create
  rw [hopened] at hrun
  have hjoined := hrun.step join
  rw [perform_join] at hjoined
  exact hjoined

end OpenedAux

end World

end P5136
