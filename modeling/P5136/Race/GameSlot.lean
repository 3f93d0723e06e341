import P5136.World.Errors

/-!
# Game-slot packets

What a racer may send during a race: the parsed packet, who may send it and when, what it does to the race's objects, and how
often items are picked up.
-/

namespace P5136

/-! ## Packets -/

inductive GameSlotRelayAudience where
  | allRacePeersMaskMatch
  | recipientMaskExceptSender
deriving DecidableEq

inductive GameSlotEvidencePending where
  | lucciCollection
  | bonusItemCollection
  | flagPickupAttach
  | flagDropRelocate
  | flagReturnReset
deriving DecidableEq

inductive GameSlotAction where
  | consumeNoReply
  | synthesizeItemPickup
  | evidencePending (reason : GameSlotEvidencePending)
  | relayOriginal (audience : GameSlotRelayAudience)
deriving DecidableEq

/-- `ItemOperation`. `barricadeOwner` is the owner that a placement or a transition of a barricade names. -/
structure ItemOperation where
  cls : RaceObjectClass
  objectId : Nat
  state : Nat
  meaning : ItemLifecycleMeaning
  evidence : ItemSemanticEvidence
  transitionToken : Option Nat
  sourceObjectId : Option Nat
  targetObjectId : Option Nat
  variant : Option Nat
  barricadeOwner : Option Nat
deriving DecidableEq

structure ItemPickup where
  kind : ItemPickupKind
  objectId : Nat
  operationTick : Nat
  liveRank : Int
deriving DecidableEq

/-- `GameSlotBody`: the bodies the actor looks into. -/
inductive GameSlotBody where
  | itemOperation (operation : ItemOperation)
  | itemPickup (pickup : ItemPickup)
  | other
deriving DecidableEq

structure ParsedGameSlotPacket where
  raw : List UInt8
  playerId : Nat
  itemOrRecipientMask : Nat
  action : GameSlotAction
  body : GameSlotBody
deriving DecidableEq

/-- The body is an item pickup. -/
def GameSlotBody.isItemPickup : GameSlotBody → Bool
  | .itemPickup _ => true
  | _ => false

/-- The two bytes of a signed 16-bit value, the lower one first. -/
def i16Bytes (value : Int) : List UInt8 :=
  [UInt8.ofNat (value.emod (2 ^ 16)).toNat, UInt8.ofNat ((value.emod (2 ^ 16)).toNat / 256)]

/-- `into_item_pickup_award`: the packet with the item in it, marked as awarded. -/
def ParsedGameSlotPacket.intoItemPickupAward (packet : ParsedGameSlotPacket) (itemId : Int) :
    Except GameSlotSynthesisError (List UInt8) :=
  if itemId ≤ 0 then .error (.invalidItemId itemId)
  else if packet.action ≠ .synthesizeItemPickup ∨ packet.body.isItemPickup = false then .error .notItemPickup
  else if packet.raw.length ≤ 40 then .error (.pickupInvariant packet.raw.length 41)
  else .ok (packet.raw.take 38 ++ i16Bytes itemId ++ [1] ++ packet.raw.drop 41)

/-! ## Senders -/

def gameSlotPlayerBit (playerId : Int) : Except RaceError Nat :=
  if 0 ≤ playerId ∧ playerId ≤ 15 then .ok (2 ^ playerId.toNat)
  else .error (.gameSlotInvariant "frozen GameSlot recipient has an invalid player ID")

/-- The settlement takes no more finishes or slot packets: its deadline is reached, or its rewards are planned. -/
def SettlementState.closedAt (settlement : SettlementState) (now : Instant) : Bool :=
  settlement.deadline ≤ now || settlement.finalization ≠ .awaitingDeadline

def validateGameSlotPhase (room : ProtocolRoomState) (now : Instant) : Except RaceError Unit :=
  match room.phase with
  | .running => .ok ()
  | .settling =>
    match room.raceProgress.settlement with
    | none => .error (.gameSlotInvariant "Settling GameSlot room has no settlement state")
    | some settlement => if settlement.closedAt now then .error .settlementClosed else .ok ()
  | actual => .error (.gameSlotInactivePhase actual)

/-- The participant of a roster with exactly an identity. -/
def FrozenRaceRoster.participantOf (roster : FrozenRaceRoster) (identity : IdentityBinding) :
    Option FrozenRaceParticipant :=
  roster.participants.find? (fun participant => participant.identity = identity)

def activeGameSlotSender (room : ProtocolRoomState) (identity : IdentityBinding) (claimedPlayerId : Nat) :
    Except RaceError (FrozenRaceParticipant × FrozenRaceRoster) := do
  let frozen ← Checks.orElse room.frozenRace (.gameSlotInvariant "active GameSlot room has no frozen race roster")
  let sender ← Checks.orElse (frozen.participantOf identity) .notFrozenParticipant
  Checks.ensure (sender.observer = false) .humanRacerRequired
  Checks.ensure ((claimedPlayerId : Int) = sender.playerId) (.gameSlotPlayerMismatch claimedPlayerId sender.playerId)
  .ok (sender, frozen)

/-! ## Objects -/

def raceObjectActor (participant : FrozenRaceParticipant) : Except RaceError RaceObjectActor :=
  if 0 ≤ participant.playerId ∧ participant.playerId ≤ 15 then
    .ok
      { userNo := participant.identity.userNo.get
        generation := participant.identity.generation.get
        playerId := participant.playerId.toNat }
  else .error (.gameSlotInvariant "frozen race object actor has an invalid player ID")

def raceObjectRegistryError : RaceObjectRegistryError → RaceError
  | .capacity raceEpoch objectId maximum => .raceObjectRegistryFull raceEpoch objectId maximum
  | .classMismatch raceEpoch objectId expected actual => .raceObjectClassMismatch raceEpoch objectId expected actual
  | .ownerMismatch raceEpoch objectId expected actual => .raceObjectOwnerMismatch raceEpoch objectId expected actual
  | .stalePlan _ _ => .gameSlotInvariant "race object registry plan became stale inside one World actor turn"

/-- The operation that `plan_item_operation` plans. -/
def ItemOperation.raceObjectOperation (operation : ItemOperation) (raceEpoch : Nat) (reporter : RaceObjectActor)
    (ownerClaim : Option RaceObjectActor) : RaceObjectOperation where
  raceEpoch := raceEpoch
  cls := operation.cls
  objectId := operation.objectId
  state := operation.state
  meaning := operation.meaning
  evidence := operation.evidence
  transitionToken := operation.transitionToken
  sourceObjectId := operation.sourceObjectId
  targetObjectId := operation.targetObjectId
  variant := operation.variant
  reporter := reporter
  ownerClaim := ownerClaim

/-- The owner that an operation claims for its object: the one a barricade names, or the reporter who makes it. -/
def ownerClaim (frozen : FrozenRaceRoster) (reporter : RaceObjectActor) (operation : ItemOperation) :
    Except RaceError (Option RaceObjectActor) :=
  match operation.barricadeOwner with
  | some ownerId =>
    match frozen.racers.find? (fun participant => participant.playerId = (ownerId : Int)) with
    | none => .error (.raceObjectOwnerNotFrozen ownerId)
    | some owner => (raceObjectActor owner).map some
  | none =>
    .ok (if operation.meaning ∈ [.init, .place, .launch, .activate] then some reporter else none)

def prepareRaceObjectAdmission (registry : RaceObjectRegistry) (frozen : FrozenRaceRoster)
    (reporter : FrozenRaceParticipant) (raceEpoch : Nat) (operation : ItemOperation) :
    Except RaceError RaceObjectAdmission := do
  let reporter ← raceObjectActor reporter
  let claim ← ownerClaim frozen reporter operation
  (registry.plan (operation.raceObjectOperation raceEpoch reporter claim)).mapError raceObjectRegistryError

/-! ## Item pickups -/

/-- `ITEM_PICKUP_BUCKET_CAPACITY`. -/
def itemPickupBucketCapacity : Nat := 6

/-- `ITEM_PICKUP_REFILL_INTERVAL`. -/
def itemPickupRefillInterval : Duration := milliseconds 250

/-- The replay state that a pickup starts from: the racer's own, unless the pickup repeats or precedes it. -/
def pickupReplayState (state : Option ItemPickupReplayState) (now : Instant) (playerId : Int) (pickup : ItemPickup) :
    Except RaceError ItemPickupReplayState :=
  match state with
  | none => .ok
      { lastOperationTick := pickup.operationTick
        objectsSeenAtTick := ∅
        tokens := itemPickupBucketCapacity
        lastRefillAt := now }
  | some state =>
    let delta := (pickup.operationTick + 2 ^ 32 - state.lastOperationTick) % 2 ^ 32
    if delta = 0 ∧ (pickup.kind, pickup.objectId) ∈ state.objectsSeenAtTick then
      .error (.duplicateItemPickup playerId pickup.kind pickup.objectId pickup.operationTick)
    else if 2 ^ 31 ≤ delta then .error (.staleItemPickup playerId pickup.operationTick)
    else .ok state

/-- The bucket after the time that has passed. -/
def ItemPickupReplayState.refilled (state : ItemPickupReplayState) (now : Instant) : ItemPickupReplayState :=
  let intervals := (now - state.lastRefillAt) / itemPickupRefillInterval
  if intervals = 0 then state
  else
    let refill := min intervals (itemPickupBucketCapacity - state.tokens)
    if state.tokens + refill = itemPickupBucketCapacity then
      { state with tokens := state.tokens + refill, lastRefillAt := now }
    else
      { state with
        tokens := state.tokens + refill
        lastRefillAt := (Instant.checkedAdd state.lastRefillAt (itemPickupRefillInterval * refill)).getD now }

/-- `prepare_item_pickup_admission`: the replay state after a pickup, when it may be made. -/
def prepareItemPickupAdmission (state : Option ItemPickupReplayState) (now : Instant) (playerId : Int)
    (pickup : ItemPickup) : Except RaceError ItemPickupReplayState := do
  let start ← pickupReplayState state now playerId pickup
  let next := start.refilled now
  Checks.ensure (next.tokens ≠ 0) (.itemPickupRateLimited playerId)
  .ok
    { next with
      tokens := next.tokens - 1
      lastOperationTick := pickup.operationTick
      objectsSeenAtTick :=
        if next.lastOperationTick = pickup.operationTick then
          insert (pickup.kind, pickup.objectId) next.objectsSeenAtTick
        else {(pickup.kind, pickup.objectId)} }

def itemPickupTeamMode (gameType : Nat) : Except RaceError Bool :=
  if gameType = 2 then .ok false else if gameType = 4 then .ok true else .error (.itemPickupModeRequired gameType)

/-- `ItemAwardSelection`: what the award tells beyond the logs. -/
structure ItemAwardSelection where
  rankBand : ItemProbabilityRankBand
  itemId : Int
deriving DecidableEq

/-- The item service with the numbers it draws: `select_award` for a team mode, a reported rank, a number of racers, a kart
and its floaters; and the starting item of a player with a kart, when it has one. -/
structure ItemService where
  selectAward : Bool → Int → Nat → Nat → Vector Int 3 → Except ItemProbabilityError ItemAwardSelection
  startItem : Int → Nat → Option Int

end P5136
