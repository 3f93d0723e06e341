import P5136.Race.GameSlot
import P5136.Race.Ranking
import P5136.World.Lobby

/-!
# Race commands

What a participant of a race may ask for: to arm the loading handshake, to record a finish, to fill a booster gauge, to send a
game-slot packet. A finish is kept with its packets until they fit into every queue; the others are published or fail.
-/

namespace P5136

open Act

/-- `LOADING_READY_TIMEOUT`. -/
def loadingReadyTimeout : Duration := seconds 30

/-- `SETTLEMENT_DELAY`. -/
def settlementDelay : Duration := seconds 10

/-- `SETTLEMENT_TICK_LEAD`. -/
def settlementTickLead : Nat := 10000

/-- A 32-bit tick some time later. -/
def tickAfter (tick lead : Nat) : Nat := (tick + lead) % 2 ^ 32

/-- `TeamBoosterGaugeRequest`: the contribution is kept as the bits of a 32-bit float. -/
structure TeamBoosterGaugeRequest where
  team : RoomTeam
  contribution : UInt32
deriving DecidableEq

inductive RaceCommandPayload where
  | gameControl (request : GameControlRequest)
  | aiGoalIn (request : AiGoalInRequest)
  | teamBoosterGauge (request : TeamBoosterGaugeRequest)
  | gameSlot (packet : ParsedGameSlotPacket)

inductive RaceCommandOutcome where
  | loadingAwaiting (roomId : RoomId) (raceEpoch expectedParticipants : Nat)
  | ignoredDuplicate (roomId : RoomId) (raceEpoch : Nat)
  | finishRecorded (roomId : RoomId) (raceEpoch : Nat) (playerId : Int) (beganSettlement : Bool)
  | boosterGaugeUpdated (roomId : RoomId) (raceEpoch : Nat) (team : RoomTeam) (reachedFull : Bool)
  | gameSlotRelayed (roomId : RoomId) (raceEpoch recipients : Nat)
  | gameSlotConsumed (roomId : RoomId) (raceEpoch playerId : Nat)
  | gameSlotItemAwarded (roomId : RoomId) (raceEpoch : Nat) (itemId : Int) (rankBand : ItemProbabilityRankBand)
      (recipients : Nat)
  | gameSlotEvidencePending (roomId : RoomId) (raceEpoch playerId : Nat) (reason : GameSlotEvidencePending)
  | gameSlotObjectDuplicateSuppressed (roomId : RoomId) (raceEpoch playerId objectId state : Nat)
      (kind : RaceObjectDuplicateKind)
deriving DecidableEq

/-! ## The race of a room -/

/-- The handshake is under way. -/
def LoadingHandshake.armed : LoadingHandshake → Bool
  | .dormant => false
  | _ => true

/-- The packets of a pending fan-out for a participant. -/
def PendingRaceFanout.packetsFor (fanout : PendingRaceFanout) (userNo : UserNo) : List Packet :=
  (fanout.raceTime.map (·.packet)).toList ++
    (match fanout.beginSettlement with
      | some pending => if pending.excludedUser = some userNo then [] else [pending.packet]
      | none => [])

/-- The settlement that the first finish begins. -/
def SettlementState.begun (now : Instant) (tick : Nat) : Option SettlementState :=
  (Instant.checkedAdd now settlementDelay).map (fun deadline =>
    { endTick := tickAfter tick settlementTickLead, deadline := deadline, finalization := .awaitingDeadline })

/-- What a finish leaves pending. -/
def finishFanout (playerId : Int) (raceTime : Nat) (packet : Packet) (settlement : Option SettlementState)
    (excludeBeginFor : Option UserNo) : PendingRaceFanout where
  raceTime := some { playerId := playerId, raceTime := raceTime, packet := packet }
  beginSettlement := settlement.map (fun settlement =>
    { endTick := settlement.endTick
      excludedUser := excludeBeginFor
      packet := .gameControl .beginSettlement settlement.endTick })

namespace World

/-- What a race command does. -/
abbrev RaceAct (α : Type) := Act World (Fault RaceError) α

/-! ## Loading -/

/-- The stamps of the participants of a roster. -/
def rosterStamps (roster : FrozenRaceRoster) : Finset FrozenParticipantStamp :=
  (roster.participants.map (fun participant => FrozenParticipantStamp.of participant.identity)).toFinset

def armLoading (roomId : RoomId) (identity : IdentityBinding) (now : Instant) : RaceAct RaceCommandOutcome := do
  let room ← memberRoom roomId
  require (room.phase = .loading) (.error (.wrongPhase room.phase))
  let frozen ← orFail room.frozenRace (.panic "a Loading room always has a frozen roster")
  let _ ← orFail (frozen.participantOf identity) (.error .notFrozenParticipant)
  if room.loadingHandshake.armed then
    pure (.ignoredDuplicate roomId frozen.fence.raceEpoch.get)
  else do
    let deadline ← orFail (Instant.checkedAdd now loadingReadyTimeout) (.error .raceDeadlineOverflow)
    let expected := rosterStamps frozen
    putRoom roomId { room with loadingHandshake := .awaiting expected ∅ deadline }
    pure (.loadingAwaiting roomId frozen.fence.raceEpoch.get expected.card)

/-! ## The pending fan-outs -/

/-- The deliveries of fan-outs: each recipient gets its packets in one batch, or nothing when there are none. -/
def flushDeliveries (fanouts : List PendingRaceFanout) (recipients : List (FrozenRaceParticipant × SessionId)) :
    List OutboundDelivery :=
  recipients.filterMap (fun recipient =>
    let packets := fanouts.flatMap (fun fanout => fanout.packetsFor recipient.1.identity.userNo)
    if packets = [] then none else some (recipient.2, packets))

/-- A room without its pending fan-outs. -/
def flushedRoom (room : ProtocolRoomState) : ProtocolRoomState :=
  { room with raceProgress := { room.raceProgress with pendingFanouts := [] } }

/-- The world without the pending fan-outs of a room. -/
def withFlushed (w : World) (roomId : RoomId) (room : ProtocolRoomState) (roster : FrozenRaceRoster)
    (recipients : List (FrozenRaceParticipant × SessionId)) : World :=
  (w.withRoom roomId (flushedRoom room)).logged (.flushed roster.fence room.raceProgress.pendingFanouts recipients)

/-- `try_flush_pending_race_fanouts`: all of them are queued, or, when a queue is missing, none. The result says whether any
is left. -/
def tryFlushPendingRaceFanouts {ε : Type} (roomId : RoomId) : Act World (Fault ε) Bool := do
  let room ← reads (fun w => Checks.orElse (w.protocolRooms.lookup roomId)
    (.panic "the active race room list contains existing rooms"))
  if room.raceProgress.pendingFanouts = [] then pure true
  else do
    let frozen ← orFail room.frozenRace (.panic "a non-Lobby room has a frozen roster")
    let w ← get
    let recipients := w.activeFrozenRecipientSessions room frozen
    let deliveries := flushDeliveries room.raceProgress.pendingFanouts recipients
    match reserveFrom w.sessions [] deliveries with
    | .error _ => pure false
    | .ok _ => do
      modify (fun w => w.withFlushed roomId room frozen recipients)
      publishReserved deliveries
      pure true

/-! ## Finishes -/

/-- A room with a finish recorded. -/
def finishedRoom (room : ProtocolRoomState) (playerId : Int) (raceTime : Nat) (settlement : Option SettlementState)
    (fanout : PendingRaceFanout) : ProtocolRoomState :=
  { room with
    phase := if settlement.isSome then .settling else room.phase
    raceProgress := { room.raceProgress with
      finishTimes := room.raceProgress.finishTimes.insert playerId raceTime
      settlement := if settlement.isSome then settlement else room.raceProgress.settlement
      pendingFanouts := room.raceProgress.pendingFanouts ++ [fanout] } }

/-- The world with a finish recorded in a room. -/
def withFinished (w : World) (roomId : RoomId) (next : ProtocolRoomState) (fanout : PendingRaceFanout) (now : Instant) :
    World :=
  match next.raceFence, next.raceProgress.settlement with
  | some fence, some settlement => (w.withRoom roomId next).logged (.finished fence fanout now settlement.deadline)
  | _, _ => w.withRoom roomId next

/-- A finish changes no other room. -/
theorem withFinished_protocolRooms (w : World) (roomId : RoomId) (next : ProtocolRoomState) (fanout : PendingRaceFanout)
    (now : Instant) : (w.withFinished roomId next fanout now).protocolRooms = (w.withRoom roomId next).protocolRooms := by
  unfold withFinished
  split <;> rfl

/-- The settlement of a room takes no more finishes. -/
def settlementClosed (room : ProtocolRoomState) (now : Instant) : Bool :=
  room.phase = .settling && room.raceProgress.settlement.any (·.closedAt now)

def recordFinish (roomId : RoomId) (playerId : Int) (raceTime : Nat) (excludeBeginFor : Option UserNo) (now : Instant)
    (tick : Nat) : RaceAct RaceCommandOutcome := do
  let room ← memberRoom roomId
  require (settlementClosed room now = false) (.error .settlementClosed)
  if (room.raceProgress.finishTimes.lookup playerId).isSome then do
    let frozen ← orFail room.frozenRace (.error (.notRunning room.phase))
    pure (.ignoredDuplicate roomId frozen.fence.raceEpoch.get)
  else do
    let settlement ← (if room.phase = .running then
        orFail ((SettlementState.begun now tick).map some) (.error .settlementDeadlineOverflow)
      else pure none)
    let packet ← ofExcept ((serializeRaceTime playerId raceTime).mapError (fun e => .error (.protocol e)))
    require ((room.raceProgress.pendingFanouts.filter (fun fanout => fanout.raceTime.isSome)).length < roomSlotCount)
      (.error .pendingRaceFanoutFull)
    -- The finish is recorded before the roster is looked up again and before anything is flushed.
    let fanout := finishFanout playerId raceTime packet settlement excludeBeginFor
    modify (fun w => w.withFinished roomId (finishedRoom room playerId raceTime settlement fanout) fanout now)
    let frozen ← orFail room.frozenRace (.error (.notRunning room.phase))
    let _ ← tryFlushPendingRaceFanouts roomId
    pure (.finishRecorded roomId frozen.fence.raceEpoch.get playerId settlement.isSome)

/-- The room runs, or settles. -/
def requireActiveRace (room : ProtocolRoomState) : RaceAct Unit :=
  require (room.phase = .running ∨ room.phase = .settling) (.error (.notRunning room.phase))

def recordHumanFinish (roomId : RoomId) (identity : IdentityBinding) (raceTime : Nat) (now : Instant) (tick : Nat) :
    RaceAct RaceCommandOutcome := do
  let room ← memberRoom roomId
  requireActiveRace room
  let frozen ← orFail room.frozenRace (.panic "an active race has a frozen roster")
  let participant ← orFail (frozen.participantOf identity) (.error .notFrozenParticipant)
  require (participant.observer = false) (.error .humanRacerRequired)
  recordFinish roomId participant.playerId raceTime (some identity.userNo) now tick

def recordAiFinish (roomId : RoomId) (identity : IdentityBinding) (request : AiGoalInRequest) (now : Instant)
    (tick : Nat) : RaceAct RaceCommandOutcome := do
  let room ← memberRoom roomId
  requireActiveRace room
  let frozen ← orFail room.frozenRace (.panic "an active race has a frozen roster")
  let _ ← orFail (frozen.participantOf identity) (.error .notFrozenParticipant)
  require (request.playerId ∈ frozen.ais.map (·.playerId)) (.error (.noFrozenAiParticipant request.playerId))
  recordFinish roomId request.playerId request.raceTime none now tick

/-! ## The team gauge -/

/-- The gauge after a contribution of one of `teamCount` racers, as the bits of a 32-bit float, and whether it is full. -/
def contributedGauge (gauge contribution : UInt32) (teamCount : Nat) : UInt32 × Bool :=
  let added := Float32.ofBits contribution * Float32.ofScientific 125 true 6 / Float32.ofNat teamCount
  let sum := Float32.ofBits gauge + added
  let value := if sum ≤ Float32.ofNat 1 then sum else Float32.ofNat 1
  (value.toBits, Float32.ofNat 1 ≤ value)

/-- A room with the gauge of a team set. -/
def gaugedRoom (room : ProtocolRoomState) (team : RoomTeam) (gauge : UInt32) : ProtocolRoomState :=
  { room with raceProgress := { room.raceProgress with
      teamGaugeBits := Function.update room.raceProgress.teamGaugeBits team gauge } }

def reserveRaceOutbound (deliveries : List OutboundDelivery) : RaceAct Unit := reserve .outboundUnavailable deliveries

def updateTeamBooster (roomId : RoomId) (identity : IdentityBinding) (request : TeamBoosterGaugeRequest) :
    RaceAct RaceCommandOutcome := do
  let room ← memberRoom roomId
  require (room.phase = .running) (.error (.notRunning room.phase))
  require room.settings.teamMode (.error .teamModeRequired)
  let frozen ← orFail room.frozenRace (.panic "a Running room has a frozen roster")
  let sender ← orFail (frozen.participantOf identity) (.error .notFrozenParticipant)
  require (sender.observer = false) (.error .humanRacerRequired)
  let senderTeam ← ofExcept ((raceTeamFromWire sender.team).mapError Fault.error)
  require (senderTeam = request.team) (.error (.teamSpoof request.team sender.team))
  let teamCount := (frozen.racers.filter (fun participant => participant.team = sender.team)).length
  let gauge := contributedGauge (room.raceProgress.teamGaugeBits request.team) request.contribution teamCount
  let packet ← ofExcept ((serializeTeamBoosterGauge request.team gauge.1).mapError (fun e => .error (.protocol e)))
  let w ← get
  let deliveries := ((w.activeFrozenRecipientSessions room frozen).filter (fun recipient =>
    recipient.1.observer ∨ recipient.1.team = sender.team)).map (fun recipient => (recipient.2, [packet]))
  reserveRaceOutbound deliveries
  putRoom roomId (gaugedRoom room request.team (if gauge.2 then 0 else gauge.1))
  publishReserved deliveries
  pure (.boosterGaugeUpdated roomId frozen.fence.raceEpoch.get request.team gauge.2)

/-! ## Game slots -/

/-- A pure check of a game-slot packet. -/
def gameSlotCheck {α : Type} (r : Except RaceError α) : RaceAct α := ofExcept (r.mapError Fault.error)

/-- The room of a game-slot packet: the source reports a missing one as a broken invariant. -/
def gameSlotRoom (roomId : RoomId) (detail : String) : RaceAct ProtocolRoomState :=
  reads (fun w => Checks.orElse (w.protocolRooms.lookup roomId) (.error (.gameSlotInvariant detail)))

def activeGameSlotPeerRacerMask (w : World) (room : ProtocolRoomState) (roster : FrozenRaceRoster)
    (sender : IdentityBinding) : Except RaceError Nat := do
  let bits ← Checks.traverse (fun recipient : FrozenRaceParticipant × SessionId => gameSlotPlayerBit recipient.1.playerId)
    ((w.activeFrozenRecipientSessions room roster).filter (fun recipient =>
      recipient.1.observer = false ∧ recipient.1.identity ≠ sender))
  .ok (bits.foldl (· ||| ·) 0)

/-- A recipient gets the relay of a packet. -/
def relayIncludes (audience : GameSlotRelayAudience) (mask : Nat) (sender : IdentityBinding)
    (participant : FrozenRaceParticipant) : Except RaceError Bool :=
  match audience with
  | .allRacePeersMaskMatch => .ok (participant.identity ≠ sender)
  | .recipientMaskExceptSender =>
    if participant.identity = sender then .ok false
    else (gameSlotPlayerBit participant.playerId).map (fun bit => mask &&& bit ≠ 0)

/-- The deliveries of a relay. -/
def relayDeliveries (audience : GameSlotRelayAudience) (mask : Nat) (sender : IdentityBinding) (raw : List UInt8)
    (recipients : List (FrozenRaceParticipant × SessionId)) : Except RaceError (List OutboundDelivery) := do
  let included ← Checks.traverse (fun recipient : FrozenRaceParticipant × SessionId =>
    (relayIncludes audience mask sender recipient.1).map (fun included =>
      if included then [(recipient.2, [Packet.gameSlot raw])] else [])) recipients
  .ok included.flatten

/-- Commit a mutation of the objects of a race. -/
def commitObjects (roomId : RoomId) (room : ProtocolRoomState) : Option RaceObjectMutation → RaceAct Unit
  | none => pure ()
  | some mutation =>
    let committed := room.raceProgress.raceObjects.commit mutation
    match committed.1 with
    | .error e => fail (.error (raceObjectRegistryError e))
    | .ok _ => putRoom roomId { room with raceProgress := { room.raceProgress with raceObjects := committed.2 } }

/-- `publish_game_slot_relay`: the number of recipients. -/
def publishGameSlotRelay (roomId : RoomId) (identity : IdentityBinding) (audience : GameSlotRelayAudience) (mask : Nat)
    (raw : List UInt8) (mutation : Option RaceObjectMutation) : RaceAct Nat := do
  let room ← gameSlotRoom roomId "GameSlot relay room disappeared before publication"
  let frozen ← orFail room.frozenRace (.panic "a non-Lobby room has a frozen roster")
  let w ← get
  let deliveries ← gameSlotCheck (relayDeliveries audience mask identity raw (w.activeFrozenRecipientSessions room frozen))
  reserveRaceOutbound deliveries
  commitObjects roomId room mutation
  publishReserved deliveries
  pure deliveries.length

def synthesizeItemPickup (items : ItemService) (roomId : RoomId) (identity : IdentityBinding) (senderPlayerId : Int)
    (packet : ParsedGameSlotPacket) (now : Instant) : RaceAct RaceCommandOutcome := do
  let pickup ← gameSlotCheck (match packet.body with
    | .itemPickup pickup => .ok pickup
    | _ => .error (.gameSlotInvariant "item-pickup synthesis action has a non-pickup body"))
  let room ← gameSlotRoom roomId "item-pickup synthesis references a missing room"
  let teamMode ← gameSlotCheck (itemPickupTeamMode room.settings.gameType)
  let frozen ← orFail room.frozenRace (.error (.gameSlotInvariant "item-pickup synthesis has no frozen race roster"))
  let sender ← orFail (frozen.participantOf identity) (.error .notFrozenParticipant)
  require (sender.playerId = senderPlayerId)
    (.error (.gameSlotInvariant "item-pickup sender changed during actor dispatch"))
  let loadout ← orFail sender.result
    (.error (.gameSlotInvariant "item-pickup sender has no frozen human result snapshot"))
  let admission ← gameSlotCheck (prepareItemPickupAdmission (room.raceProgress.itemPickups.lookup senderPlayerId) now
    senderPlayerId pickup)
  let award ← gameSlotCheck ((items.selectAward teamMode pickup.liveRank frozen.activeRacerCount loadout.kartId
    loadout.floaterCodes).mapError .itemProbability)
  let raw ← gameSlotCheck ((packet.intoItemPickupAward award.itemId).mapError .gameSlotSynthesis)
  let w ← get
  let deliveries := (w.activeFrozenRecipientSessions room frozen).map (fun recipient =>
    (recipient.2, [Packet.gameSlot raw]))
  reserveRaceOutbound deliveries
  putRoom roomId { room with raceProgress := { room.raceProgress with
    itemPickups := room.raceProgress.itemPickups.insert senderPlayerId admission } }
  publishReserved deliveries
  pure (.gameSlotItemAwarded roomId frozen.fence.raceEpoch.get award.itemId award.rankBand deliveries.length)

/-- What an operation on a race object asks for, when the packet is one. -/
def objectAdmission (room : ProtocolRoomState) (frozen : FrozenRaceRoster) (sender : FrozenRaceParticipant)
    (packet : ParsedGameSlotPacket) : Except RaceError (Option RaceObjectAdmission) :=
  match packet.body with
  | .itemOperation operation =>
    (prepareRaceObjectAdmission room.raceProgress.raceObjects frozen sender frozen.fence.raceEpoch.get operation).map some
  | _ => .ok none

/-- The end of `relay_game_slot`: the original packet goes to an audience. -/
def relayOriginal (roomId : RoomId) (room : ProtocolRoomState) (frozen : FrozenRaceRoster) (identity : IdentityBinding)
    (packet : ParsedGameSlotPacket) (admission : Option RaceObjectAdmission) (audience : GameSlotRelayAudience) :
    RaceAct RaceCommandOutcome := do
  let w ← get
  let expected ← gameSlotCheck (if audience = .allRacePeersMaskMatch then
      w.activeGameSlotPeerRacerMask room frozen identity
    else .ok packet.itemOrRecipientMask)
  require (packet.itemOrRecipientMask = expected)
    (.error (.gameSlotRecipientMaskMismatch packet.itemOrRecipientMask expected))
  match admission with
  | some (.suppressDuplicate objectId _ state kind) =>
    pure (.gameSlotObjectDuplicateSuppressed roomId frozen.fence.raceEpoch.get packet.playerId objectId state kind)
  | some (.publishTracked mutation) => do
    let recipients ← publishGameSlotRelay roomId identity audience packet.itemOrRecipientMask packet.raw (some mutation)
    pure (.gameSlotRelayed roomId frozen.fence.raceEpoch.get recipients)
  | _ => do
    let recipients ← publishGameSlotRelay roomId identity audience packet.itemOrRecipientMask packet.raw none
    pure (.gameSlotRelayed roomId frozen.fence.raceEpoch.get recipients)

def relayGameSlot (items : ItemService) (roomId : RoomId) (identity : IdentityBinding) (packet : ParsedGameSlotPacket)
    (now : Instant) : RaceAct RaceCommandOutcome := do
  let room ← gameSlotRoom roomId "protocol GameSlot membership references a missing room"
  let _ ← gameSlotCheck (validateGameSlotPhase room now)
  let active ← gameSlotCheck (activeGameSlotSender room identity packet.playerId)
  let admission ← gameSlotCheck (objectAdmission room active.2 active.1 packet)
  match packet.action with
  | .consumeNoReply => pure (.gameSlotConsumed room.id active.2.fence.raceEpoch.get packet.playerId)
  | .synthesizeItemPickup => synthesizeItemPickup items room.id identity active.1.playerId packet now
  | .evidencePending reason =>
    pure (.gameSlotEvidencePending room.id active.2.fence.raceEpoch.get packet.playerId reason)
  | .relayOriginal audience => relayOriginal room.id room active.2 identity packet admission audience

/-! ## Dispatch -/

/-- The command of a payload in the room of the sender. -/
def raceDispatch (items : ItemService) (roomId : RoomId) (identity : IdentityBinding) (now : Instant) (tick : Nat) :
    RaceCommandPayload → RaceAct RaceCommandOutcome
  | .gameControl request =>
    if request.state = 0 then armLoading roomId identity now
    else if request.state = 2 then recordHumanFinish roomId identity request.value0 now tick
    else fail (.error (.unsupportedGameControlState request.state))
  | .aiGoalIn request => recordAiFinish roomId identity request now tick
  | .teamBoosterGauge request => updateTeamBooster roomId identity request
  | .gameSlot packet => relayGameSlot items roomId identity packet now

/-- `race_command_with_clock_and_item_source`. -/
def raceCommand (U : Unicode) (items : ItemService) (session : SessionId) (payload : RaceCommandPayload) (now : Instant)
    (tick : Nat) : Act World (Fault WorldError) RaceCommandOutcome := do
  let identity ← authorizedIdentity U session
  let roomId ← reads (fun w => Checks.orElse (w.protocolRoomByUser.lookup identity.userNo)
    (.error (.race .notInRoom)))
  mapError (liftFault .race) (raceDispatch items roomId identity now tick payload)

end World

end P5136
