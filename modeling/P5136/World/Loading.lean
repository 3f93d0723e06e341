import P5136.World.Race
import P5136.World.Rooms

/-!
# Loading and running

How a race that was started comes to run: its participants get ready or the deadline passes, the start is scheduled and told to
them. A race that no human loads any more is called off, and one that no human runs any more begins to settle.
-/

namespace P5136

/-- `RACE_START_DELAY`. -/
def raceStartDelay : Duration := seconds 1

/-- `RACE_START_TICK_LEAD`. -/
def raceStartTickLead : Nat := 3000

structure LoadingReadinessCandidate where
  roomId : RoomId
  raceEpoch : GlobalRaceEpoch
  participant : FrozenParticipantStamp
deriving DecidableEq

/-- `reconcile_loading_handshake`: only who is still there is waited for, and the start is scheduled when nobody is or the
deadline has passed. -/
def LoadingHandshake.reconciled (active : Finset FrozenParticipantStamp) (now : Instant) : LoadingHandshake → LoadingHandshake
  | .awaiting expected ready deadline =>
    let expected := expected ∩ active
    let ready := ready ∩ expected
    if ready.card = expected.card ∨ deadline ≤ now then
      match Instant.checkedAdd now raceStartDelay with
      | some instant => .startScheduled instant
      | none => .awaiting expected ready deadline
    else .awaiting expected ready deadline
  | handshake => handshake

/-- The start is scheduled and due. -/
def LoadingHandshake.startDue (now : Instant) : LoadingHandshake → Bool
  | .startScheduled instant => instant ≤ now
  | _ => false

/-- A room back in its lobby: the race is forgotten and nobody is ready. -/
def ProtocolRoomState.backToLobby (room : ProtocolRoomState) : ProtocolRoomState :=
  { room with
    phase := .lobby
    raceFence := none
    frozenRace := none
    raceProgress := .fresh
    loadingHandshake := .dormant
    membersById := fun id => (room.membersById id).map (fun member =>
      { member with player := { member.player with playerType := PlayerSlotState.notReady.wire } }) }

namespace World

/-! ## Readiness -/

def loadingReadinessCandidate (w : World) (identity : IdentityBinding) : Option LoadingReadinessCandidate := do
  guard (w.identities.activeIdentityByUserNo identity.userNo = some identity)
  let roomId ← w.protocolRoomByUser.lookup identity.userNo
  let room ← w.protocolRooms.lookup roomId
  guard (room.phase = .loading)
  let frozen ← room.frozenRace
  guard (room.raceFence = some frozen.fence ∧ identity ∈ frozen.participants.map (·.identity))
  match room.loadingHandshake with
  | .awaiting expected _ _ =>
    if FrozenParticipantStamp.of identity ∈ expected then
      some ⟨roomId, frozen.fence.raceEpoch, FrozenParticipantStamp.of identity⟩
    else none
  | _ => none

/-- The room of a candidate with the candidate ready, when the race still waits for it. -/
def readyRoom (w : World) (candidate : LoadingReadinessCandidate) : Option ProtocolRoomState := do
  let active ← w.identities.activeIdentityByUserNo candidate.participant.userNo
  guard (FrozenParticipantStamp.of active = candidate.participant)
  let room ← w.protocolRooms.lookup candidate.roomId
  guard (room.phase = .loading ∧ room.raceFence.map (·.raceEpoch) = some candidate.raceEpoch)
  let frozen ← room.frozenRace
  guard (frozen.fence.raceEpoch = candidate.raceEpoch ∧ active ∈ frozen.participants.map (·.identity))
  match room.loadingHandshake with
  | .awaiting expected ready deadline =>
    if candidate.participant ∈ expected then
      some { room with loadingHandshake := .awaiting expected (insert candidate.participant ready) deadline }
    else none
  | _ => none

def markLoadingReady (candidate : LoadingReadinessCandidate) : WorldAct Unit :=
  Act.modify (fun w =>
    match w.readyRoom candidate with
    | some room => w.withRoom candidate.roomId room
    | none => w)

/-- The part of `dispatch_udp_ingress` in the world: a datagram of an admitted identity shows its port when it came from
another player's socket, and makes it ready when it was a time synchronization that was answered. -/
def dispatchUdpIngress (identity : IdentityBinding) (observedPort : Option UInt16) (timeSync answered : Bool) :
    WorldAct Unit := do
  let w ← Act.get
  let candidate := if timeSync then w.loadingReadinessCandidate identity else none
  match observedPort with
  | some port => recordObservedP2pPort identity port
  | none => pure ()
  match candidate with
  | some candidate => if answered then markLoadingReady candidate else pure ()
  | none => pure ()

/-! ## Loading rooms -/

/-- The participants of a race that are still exactly in its room. -/
def activeFrozenParticipants (w : World) (roomId : RoomId) (roster : FrozenRaceRoster) : List FrozenRaceParticipant :=
  roster.participants.filter (fun participant => (w.exactIdentityInProtocolRoom roomId participant.identity).isSome)

/-- The first part of `active_frozen_participant_stamps`: a room of the list, with its roster. -/
def frozenRoom (roomId : RoomId) : WorldAct (ProtocolRoomState × FrozenRaceRoster) := do
  let room ← Act.reads (fun w => Checks.orElse (w.protocolRooms.lookup roomId)
    (.panic "the loading room list contains existing rooms"))
  let frozen ← orFail room.frozenRace (.panic "a Loading room has a frozen roster")
  pure (room, frozen)

/-- The world after a race is called off while it loads. -/
def withAborted (w : World) (roomId : RoomId) (room : ProtocolRoomState) : World :=
  let w := match room.raceFence with
    | some fence => w.releaseRewardLanes fence
    | none => w
  w.withRoom roomId room.backToLobby

/-- The starting item of a racer. -/
def startAward (items : ItemService) (startTick : Nat) (participant : FrozenRaceParticipant) :
    Except (Fault WorldError) (List Packet) :=
  match participant.result.bind (fun result => items.startItem participant.playerId result.kartId) with
  | none => .ok []
  | some itemId =>
    if 0 ≤ participant.playerId ∧ participant.playerId < 256 then
      .ok [.directItemAward participant.playerId.toNat itemId startTick]
    else .error (.panic "a frozen human player ID is always in 0..=15")

/-- The batch that starts a race. -/
def startBatch (items : ItemService) (room : ProtocolRoomState) (frozen : FrozenRaceRoster) (startTick : Nat) :
    Except (Fault WorldError) OutboundBatch :=
  if room.settings.gameType = 2 ∨ room.settings.gameType = 4 then
    (Checks.traverse (startAward items startTick) frozen.racers).map (fun awards =>
      .aiMasterNotice :: .gameControl .raceStart startTick :: awards.flatten)
  else .ok [.aiMasterNotice, .gameControl .raceStart startTick]

/-- `try_start_scheduled_room`: the race runs when its start fits into every queue. -/
def tryStartScheduledRoom (items : ItemService) (roomId : RoomId) (now : Instant) (tick : Nat) : WorldAct Unit := do
  let w ← Act.get
  if (w.protocolRooms.lookup roomId).any (fun room => room.loadingHandshake.startDue now) then do
    let entry ← frozenRoom roomId
    let batch ← Act.ofExcept (startBatch items entry.1 entry.2 (tickAfter tick raceStartTickLead))
    let deliveries := entry.2.participants.filterMap (fun participant =>
      (w.exactIdentityInProtocolRoom roomId participant.identity).map (fun identity => (identity.owner, batch)))
    match reserveFrom w.sessions [] deliveries with
    | .error _ => pure ()
    | .ok _ => do
      putRoom roomId { entry.1 with phase := .running, loadingHandshake := .dormant }
      publishReserved deliveries
  else pure ()

def advanceLoadingRoom (items : ItemService) (now : Instant) (tick : Nat) (roomId : RoomId) : WorldAct Unit := do
  let entry ← frozenRoom roomId
  let w ← Act.get
  let active := w.activeFrozenParticipants roomId entry.2
  if active.all (·.observer) then Act.modify (fun w => w.withAborted roomId entry.1)
  else do
    let stamps := (active.map (fun participant => FrozenParticipantStamp.of participant.identity)).toFinset
    putRoom roomId { entry.1 with loadingHandshake := entry.1.loadingHandshake.reconciled stamps now }
    tryStartScheduledRoom items roomId now tick

/-! ## Running rooms -/

/-- What an abandoned race leaves pending: everyone is told that it settles. -/
def abandonedFanout (endTick : Nat) : PendingRaceFanout where
  raceTime := none
  beginSettlement := some
    { endTick := endTick, excludedUser := none, packet := .gameControl .beginSettlement endTick }

/-- A running room that nobody runs any more: it settles. -/
def abandonedRoom (room : ProtocolRoomState) (now : Instant) (endTick : Nat) : ProtocolRoomState :=
  { room with
    phase := .settling
    raceProgress := { room.raceProgress with
      settlement := some
        { endTick := endTick
          deadline := (Instant.checkedAdd now settlementDelay).getD now
          finalization := .awaitingDeadline }
      pendingFanouts := room.raceProgress.pendingFanouts ++ [abandonedFanout endTick] } }

def reconcileRunningRoom (now : Instant) (tick : Nat) (roomId : RoomId) : WorldAct Unit := do
  let entry ← frozenRoom roomId
  let w ← Act.get
  if (w.activeFrozenParticipants roomId entry.2).all (·.observer) then
    let endTick := tickAfter tick settlementTickLead
    Act.modify (fun w => (w.withRoom roomId (abandonedRoom entry.1 now endTick)).logged
      (.abandoned entry.2.fence (abandonedFanout endTick)))
  else pure ()

end World

end P5136
