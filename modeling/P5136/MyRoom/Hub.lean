import P5136.Lib.Act
import P5136.Lib.Checked
import P5136.Lib.Delta
import P5136.MyRoom.Room

/-!
# The MyRoom hub

The hub knows the rooms, the room and slot of every member, and one canonical binding for every user with a role. It is changed
by transitions: a transition is planned on the hub as it is, as lists of changes, and committed later, when no other one came in
between.
-/

namespace P5136

open Checks

variable {U : Unicode}

/-- `RoomEffect`. -/
inductive MyRoomEffect where
  | updated (publication : RoomPublication)
  | deleted (owner : UserNo)

/-- `EnterOutcome` of the hub. -/
inductive MyRoomEnterOutcome where
  | reentered (slot : MyRoomSlotIndex) (publication : RoomPublication)
  | moved (slot : MyRoomSlotIndex) (previous : Option MyRoomEffect) (current : RoomPublication)

structure ClosedOwnedRoom where
  owner : UserNo
  ejected : List IdentityBinding

/-- `MyRoomDisconnectOutcome`, with `DisconnectEffects`. -/
inductive MyRoomDisconnectOutcome where
  | notTracked
  | applied (membershipRoom : Option MyRoomEffect) (closedOwnedRoom : Option ClosedOwnedRoom)

structure OwnerInfoUpdate where
  owner : UserNo
  previous : MyRoomInfo
  current : MyRoomInfo

structure IdentityAdvanceEffects where
  previous : IdentityBinding
  current : IdentityBinding
  publications : List RoomPublication

/-- `Membership`: the room and the slot of a member. -/
structure MyRoomMembership where
  owner : UserNo
  slot : MyRoomSlotIndex
deriving DecidableEq

inductive MyRoomCommitError where
  | staleRevision (planned current : Nat)
deriving DecidableEq

/-- `MyRoomHub`. Rooms are known by their owners. -/
structure MyRoomHub (U : Unicode) where
  revision : Nat
  rooms : FiniteMap UserNo (MyRoomState U)
  memberships : FiniteMap UserNo MyRoomMembership
  generations : FiniteMap UserNo IdentityBinding
  identityCapacity : NonZero 64

/-- `MyRoomTransition`: the changes that were planned at a revision. -/
structure MyRoomTransition (U : Unicode) (α : Type) where
  baseRevision : Nat
  nextRevision : Nat
  rooms : List (Change UserNo (MyRoomState U))
  memberships : List (Change UserNo MyRoomMembership)
  generations : List (Change UserNo IdentityBinding)
  outcome : α

namespace MyRoomTransition

variable {α β : Type}

/-- The same changes with another outcome. -/
def map (f : α → β) (transition : MyRoomTransition U α) : MyRoomTransition U β :=
  { transition with outcome := f transition.outcome }

/-- The hub with the changes made. -/
def applyTo (transition : MyRoomTransition U α) (hub : MyRoomHub U) : MyRoomHub U where
  revision := transition.nextRevision
  rooms := transition.rooms.foldl Change.apply hub.rooms
  memberships := transition.memberships.foldl Change.apply hub.memberships
  generations := transition.generations.foldl Change.apply hub.generations
  identityCapacity := hub.identityCapacity

/-- `commit`: the changes are made when the hub still has the revision they were planned at. -/
def commit (transition : MyRoomTransition U α) : Act (MyRoomHub U) MyRoomCommitError α := do
  let live ← Act.get
  Act.require (live.revision = transition.baseRevision) (.staleRevision transition.baseRevision live.revision)
  Act.modify transition.applyTo
  pure transition.outcome

end MyRoomTransition

/-- `MAX_TRANSITION_ROOMS`. -/
def maxTransitionRooms : Nat := 2

/-- `MAX_TRANSITION_MEMBERSHIPS`. -/
def maxTransitionMemberships : Nat := myroomSlotCount

/-- `MAX_TRANSITION_GENERATIONS`. -/
def maxTransitionGenerations : Nat := myroomSlotCount + 1

def requireSameBinding (canonical claimed : IdentityBinding) : Except MyRoomHubError Unit := do
  ensure (¬(canonical.userNo ≠ claimed.userNo ∨ canonical.generation ≠ claimed.generation))
    (.staleGeneration claimed.userNo canonical.generation.get claimed.generation.get)
  ensure (canonical = claimed) (.identityBindingMismatch claimed.userNo claimed.generation.get)

def requireSameReleasedBinding (canonical : IdentityBinding) (released : ReleasedIdentity) : Except MyRoomHubError Unit := do
  ensure (¬(canonical.userNo ≠ released.userNo ∨ canonical.generation ≠ released.generation))
    (.staleGeneration released.userNo canonical.generation.get released.generation.get)
  ensure (¬(canonical.nickname ≠ released.nickname ∨ canonical.sourceIp ≠ released.sourceIp ∨
    canonical.channel ≠ released.channel)) (.identityBindingMismatch released.userNo released.generation.get)

def validateIdentityAdvance (U : Unicode) (previous replacement : IdentityBinding) : Except MyRoomHubError Unit := do
  ensure (previous.userNo = replacement.userNo) (.identityAdvanceUserMismatch previous.userNo replacement.userNo)
  ensure (canonicalNicknameKey U previous.nickname = canonicalNicknameKey U replacement.nickname)
    (.identityAdvanceNicknameMismatch previous.nickname replacement.nickname)
  ensure (¬replacement.generation.get ≤ previous.generation.get)
    (.nonAdvancingGeneration previous.userNo previous.generation.get replacement.generation.get)

def pushGenerationSet (changes : List (Change UserNo IdentityBinding)) (identity : IdentityBinding) :
    List (Change UserNo IdentityBinding) :=
  if changes.any (fun change => change.key = identity.userNo) then
    changes.map (fun change => if change.key = identity.userNo then ⟨change.key, some identity⟩ else change)
  else changes ++ [⟨identity.userNo, some identity⟩]

def pushMembershipDelete (changes : List (Change UserNo MyRoomMembership)) (member : UserNo) :
    List (Change UserNo MyRoomMembership) :=
  if changes.any (fun change => change.key = member) then changes else changes ++ [⟨member, none⟩]

namespace MyRoomHub

def withIdentityCapacity (identityCapacity : NonZero 64) : MyRoomHub U where
  revision := 0
  rooms := ∅
  memberships := ∅
  generations := ∅
  identityCapacity := identityCapacity

/-! ## Lookups and checks -/

def room (hub : MyRoomHub U) (owner : UserNo) : Except MyRoomHubError (MyRoomState U) :=
  orElse (hub.rooms.lookup owner) (.roomMissing owner)

def requireCanonicalIdentity (hub : MyRoomHub U) (identity : IdentityBinding) : Except MyRoomHubError Unit := do
  let canonical ← orElse (hub.generations.lookup identity.userNo)
    (.invariant (.missingCanonicalGeneration identity.userNo))
  requireSameBinding canonical identity

def requireExactMember (hub : MyRoomHub U) (identity : IdentityBinding) (membership : MyRoomMembership) :
    Except MyRoomHubError Unit := do
  let room ← hub.room membership.owner
  let participant ← orElse (room.participant membership.slot)
    (.invariant (.membershipSlotMismatch identity.userNo membership.slot))
  ensure (participant.identity.userNo = identity.userNo)
    (.invariant (.membershipSlotMismatch identity.userNo membership.slot))
  requireSameBinding participant.identity identity

def membershipExact (hub : MyRoomHub U) (identity : IdentityBinding) : Except MyRoomHubError MyRoomMembership := do
  hub.requireCanonicalIdentity identity
  let membership ← orElse (hub.memberships.lookup identity.userNo) (.notMember identity.userNo)
  hub.requireExactMember identity membership
  pure membership

def roomExactOwner (hub : MyRoomHub U) (owner : UserNo) (identity : IdentityBinding) :
    Except MyRoomHubError (MyRoomState U) := do
  let room ← hub.room owner
  hub.requireCanonicalIdentity identity
  requireSameBinding room.owner.identity identity
  pure room

def validateOrNewIdentity (hub : MyRoomHub U) (identity : IdentityBinding) : Except MyRoomHubError Bool :=
  match hub.generations.lookup identity.userNo with
  | some canonical => do
    requireSameBinding canonical identity
    pure false
  | none => .ok true

def hasRole (hub : MyRoomHub U) (userNo : UserNo) : Except MyRoomHubError Bool := do
  let hasRole := (hub.memberships.lookup userNo).isSome || (hub.rooms.lookup userNo).isSome
  ensure (¬(hasRole = false ∧ (hub.generations.lookup userNo).isSome)) (.invariant (.orphanCanonicalGeneration userNo))
  pure hasRole

def nextRevision (hub : MyRoomHub U) : Except MyRoomHubError Nat :=
  orElse (Checked.add hub.revision 1) .revisionExhausted

def enterPrunesOldOwnerGeneration (hub : MyRoomHub U) (membership : MyRoomMembership) (movingUser : UserNo) : Bool :=
  membership.owner ≠ movingUser && (hub.generations.lookup membership.owner).isSome &&
    !(hub.memberships.lookup membership.owner).isSome &&
    (hub.rooms.lookup membership.owner).any (fun room => room.mappedCount = 1)

/-- `validate_identity_capacity`. A table of fewer than `2 ^ 64` entries never saturates the sums of the source. -/
def validateIdentityCapacity (hub : MyRoomHub U) (additional pruned : Nat) : Except MyRoomHubError Unit :=
  ensure (¬hub.generations.size + additional - pruned > hub.identityCapacity.get)
    (.identityCapacity hub.identityCapacity.get (hub.generations.size + additional - pruned))

/-! ## Building transitions -/

def transition {α : Type} (hub : MyRoomHub U) (nextRevision : Nat) (rooms : List (Change UserNo (MyRoomState U)))
    (memberships : List (Change UserNo MyRoomMembership)) (generations : List (Change UserNo IdentityBinding)) (outcome : α) :
    Except MyRoomHubError (MyRoomTransition U α) := do
  ensure (¬(rooms.length > maxTransitionRooms ∨ memberships.length > maxTransitionMemberships ∨
    generations.length > maxTransitionGenerations)) (.transitionTooLarge rooms.length memberships.length generations.length)
  pure ⟨hub.revision, nextRevision, rooms, memberships, generations, outcome⟩

def userReferencedAfter (hub : MyRoomHub U) (userNo : UserNo) (rooms : List (Change UserNo (MyRoomState U)))
    (memberships : List (Change UserNo MyRoomMembership)) : Bool :=
  (Change.after hub.memberships memberships userNo).isSome || (Change.after hub.rooms rooms userNo).isSome

/-- `push_generation_prune`: the binding of a user that no role refers to any more goes. -/
def pushGenerationPrune (hub : MyRoomHub U) (changes : List (Change UserNo IdentityBinding)) (userNo : UserNo)
    (rooms : List (Change UserNo (MyRoomState U))) (memberships : List (Change UserNo MyRoomMembership)) :
    List (Change UserNo IdentityBinding) :=
  if changes.any (fun change => change.key = userNo) then changes
  else if (hub.generations.lookup userNo).isSome && !hub.userReferencedAfter userNo rooms memberships then
    changes ++ [⟨userNo, none⟩]
  else changes

/-- A member leaves its slot: the room without it, or no room when it was the last one. -/
def vacate (hub : MyRoomHub U) (membership : MyRoomMembership) (userNo : UserNo) :
    Except MyRoomHubError (Change UserNo (MyRoomState U) × MyRoomEffect) := do
  let room ← hub.room membership.owner
  let room ← (room.removeParticipant membership.slot userNo).mapError .invariant
  if room.mappedCount = 0 then .ok (⟨membership.owner, none⟩, .deleted membership.owner)
  else .ok (⟨membership.owner, some room⟩, .updated (room.publication membership.owner))

/-! ## Entering -/

/-- The slot that `enter` gives a member. -/
def destinationSlot (hub : MyRoomHub U) (member : MyRoomParticipant U) (owner : MyRoomOwner U) :
    Except MyRoomHubError MyRoomSlotIndex :=
  match hub.rooms.lookup owner.key with
  | some room => do
    hub.requireCanonicalIdentity room.owner.identity
    hub.requireCanonicalIdentity owner.participant.identity
    orElse (room.nextSlotFor member.identity.userNo) (.full owner.key)
  | none => .ok (if member.identity.userNo = owner.key then .owner else 1)

structure EnterPlan (U : Unicode) where
  member : MyRoomParticipant U
  owner : MyRoomOwner U
  destinationSlot : MyRoomSlotIndex
  current : Option MyRoomMembership
  ownerIsNew : Bool
  memberIsNew : Bool
  nextRevision : Nat

/-- The bindings that `build_enter_transition` adds. -/
def EnterPlan.generations (plan : EnterPlan U) : List (Change UserNo IdentityBinding) :=
  let changes := if plan.ownerIsNew then pushGenerationSet [] plan.owner.participant.identity else []
  if plan.memberIsNew then pushGenerationSet changes plan.member.identity else changes

/-- The bindings of `build_enter_transition`: that of the owner of a deleted room goes. -/
def prunedGenerations (hub : MyRoomHub U) (plan : EnterPlan U) (effect : Option MyRoomEffect)
    (rooms : List (Change UserNo (MyRoomState U))) (memberships : List (Change UserNo MyRoomMembership)) :
    List (Change UserNo IdentityBinding) :=
  match effect with
  | some (.deleted oldOwner) => hub.pushGenerationPrune plan.generations oldOwner rooms memberships
  | _ => plan.generations

/-- What a member leaves behind when it moves. -/
def vacateCurrent (hub : MyRoomHub U) (plan : EnterPlan U) :
    Except MyRoomHubError (Option (Change UserNo (MyRoomState U) × MyRoomEffect)) :=
  match plan.current with
  | none => .ok none
  | some membership => (hub.vacate membership plan.member.identity.userNo).map some

def buildEnterTransition (hub : MyRoomHub U) (plan : EnterPlan U) :
    Except MyRoomHubError (MyRoomTransition U MyRoomEnterOutcome) := do
  let vacated ← hub.vacateCurrent plan
  let destinationRoom ← (((hub.rooms.lookup plan.owner.key).getD (.new plan.owner plan.nextRevision)).addMember
    plan.destinationSlot plan.member).mapError .invariant
  let rooms := (vacated.map (·.1)).toList ++ [⟨plan.owner.key, some destinationRoom⟩]
  let memberships := [⟨plan.member.identity.userNo, some ⟨plan.owner.key, plan.destinationSlot⟩⟩]
  let generations := hub.prunedGenerations plan (vacated.map (·.2)) rooms memberships
  hub.transition plan.nextRevision rooms memberships generations
    (.moved plan.destinationSlot (vacated.map (·.2)) (destinationRoom.publication plan.owner.key))

/-- `enter` of a member that is not in the room yet. -/
def move (hub : MyRoomHub U) (member : MyRoomParticipant U) (owner : MyRoomOwner U) (ownerIsNew memberIsNew : Bool)
    (current : Option MyRoomMembership) : Except MyRoomHubError (MyRoomTransition U MyRoomEnterOutcome) := do
  let destinationSlot ← hub.destinationSlot member owner
  let additional := (if ownerIsNew then 1 else 0) +
    (if memberIsNew && member.identity.userNo ≠ owner.participant.identity.userNo then 1 else 0)
  let pruned := if current.any (fun membership => hub.enterPrunesOldOwnerGeneration membership member.identity.userNo) then 1
    else 0
  hub.validateIdentityCapacity additional pruned
  let nextRevision ← hub.nextRevision
  hub.buildEnterTransition ⟨member, owner, destinationSlot, current, ownerIsNew, memberIsNew, nextRevision⟩

/-- `enter` of a member that is in the room: nothing changes. -/
def reenter (hub : MyRoomHub U) (owner : MyRoomOwner U) (membership : MyRoomMembership) :
    Except MyRoomHubError (MyRoomTransition U MyRoomEnterOutcome) := do
  let room ← hub.roomExactOwner owner.key owner.participant.identity
  hub.transition hub.revision [] [] [] (.reentered membership.slot (room.publication owner.key))

def enter (hub : MyRoomHub U) (member : MyRoomParticipant U) (owner : MyRoomOwner U) :
    Except MyRoomHubError (MyRoomTransition U MyRoomEnterOutcome) := do
  let ownerIsNew ← hub.validateOrNewIdentity owner.participant.identity
  let memberIsNew ← hub.validateOrNewIdentity member.identity
  match hub.memberships.lookup member.identity.userNo with
  | none => hub.move member owner ownerIsNew memberIsNew none
  | some membership => do
    hub.requireExactMember member.identity membership
    if membership.owner = owner.key then hub.reenter owner membership
    else hub.move member owner ownerIsNew memberIsNew (some membership)

/-! ## Leaving -/

def leave (hub : MyRoomHub U) (identity : IdentityBinding) : Except MyRoomHubError (MyRoomTransition U MyRoomEffect) := do
  let membership ← hub.membershipExact identity
  let nextRevision ← hub.nextRevision
  let vacated ← hub.vacate membership identity.userNo
  let rooms := [vacated.1]
  let memberships := [⟨identity.userNo, none⟩]
  let generations := hub.pushGenerationPrune [] identity.userNo rooms memberships
  let generations := hub.pushGenerationPrune generations membership.owner rooms memberships
  hub.transition nextRevision rooms memberships generations vacated.2

/-- The check of `disconnect` on the members of the room that is to be closed. -/
def checkOwnedMember (hub : MyRoomHub U) (owner : UserNo) (participant : MyRoomParticipant U) : Except MyRoomHubError Unit := do
  let mapped ← orElse (hub.memberships.lookup participant.identity.userNo)
    (.invariant (.missingReverseMembership owner 0 participant.identity.userNo))
  ensure (mapped.owner = owner) (.invariant (.missingReverseMembership owner mapped.slot participant.identity.userNo))

/-- The checks of `disconnect` on the room of the identity. -/
def checkOwnedRoom (hub : MyRoomHub U) (identity : IdentityBinding) : Except MyRoomHubError Unit :=
  match hub.rooms.lookup identity.userNo with
  | none => .ok ()
  | some room => do
    requireSameBinding room.owner.identity identity
    all (hub.checkOwnedMember identity.userNo) room.mappedParticipants

/-- What a visitor that disconnects leaves behind in another room than its own. -/
def vacateVisited (hub : MyRoomHub U) (identity : IdentityBinding) (membership : Option MyRoomMembership)
    (owned : Option (MyRoomState U)) : Except MyRoomHubError (Option (Change UserNo (MyRoomState U) × MyRoomEffect)) :=
  match membership with
  | none => .ok none
  | some membership =>
    if membership.owner ≠ identity.userNo ∨ owned.isNone then (hub.vacate membership identity.userNo).map some else .ok none

/-- The room that is closed with its owner. -/
def closeOwned (identity : IdentityBinding) (room : MyRoomState U) : ClosedOwnedRoom where
  owner := identity.userNo
  ejected := (room.mappedParticipants.filter (fun participant => participant.identity.userNo ≠ identity.userNo)).map (·.identity)

def buildDisconnectTransition (hub : MyRoomHub U) (identity : IdentityBinding) (membership : Option MyRoomMembership)
    (owned : Option (MyRoomState U)) (nextRevision : Nat) :
    Except MyRoomHubError (MyRoomTransition U MyRoomDisconnectOutcome) := do
  let vacated ← hub.vacateVisited identity membership owned
  let closed := owned.map (closeOwned identity)
  let ejected := (closed.map (·.ejected)).getD []
  let memberships := ejected.foldl (fun changes participant => pushMembershipDelete changes participant.userNo)
    (if membership.isSome then [⟨identity.userNo, none⟩] else [])
  let rooms := (vacated.map (·.1)).toList ++ (if owned.isSome then [⟨identity.userNo, none⟩] else [])
  let affectedUsers := identity.userNo :: ejected.map (·.userNo) ++
    (match vacated.map (·.2) with
    | some (.deleted owner) => [owner]
    | _ => [])
  let generations := affectedUsers.foldl
    (fun changes userNo => hub.pushGenerationPrune changes userNo rooms memberships) []
  hub.transition nextRevision rooms memberships generations (.applied (vacated.map (·.2)) closed)

/-- The check of `disconnect` on the slot of the identity, if it has one. -/
def checkMembership (hub : MyRoomHub U) (identity : IdentityBinding) (membership : Option MyRoomMembership) :
    Except MyRoomHubError Unit :=
  match membership with
  | none => .ok ()
  | some membership => hub.requireExactMember identity membership

def disconnect (hub : MyRoomHub U) (identity : IdentityBinding) :
    Except MyRoomHubError (MyRoomTransition U MyRoomDisconnectOutcome) :=
  match hub.generations.lookup identity.userNo with
  | none => hub.transition hub.revision [] [] [] .notTracked
  | some canonical => do
    requireSameBinding canonical identity
    let membership := hub.memberships.lookup identity.userNo
    hub.checkMembership identity membership
    hub.checkOwnedRoom identity
    let owned := hub.rooms.lookup identity.userNo
    ensure (¬(membership.isNone ∧ owned.isNone)) (.invariant (.orphanCanonicalGeneration identity.userNo))
    let nextRevision ← hub.nextRevision
    hub.buildDisconnectTransition identity membership owned nextRevision

/-- `disconnect_released`: a released identity has no session, and is compared by all the rest. -/
def disconnectReleased (hub : MyRoomHub U) (released : ReleasedIdentity) :
    Except MyRoomHubError (MyRoomTransition U MyRoomDisconnectOutcome) := do
  let hasRole ← hub.hasRole released.userNo
  if hasRole then do
    let canonical ← orElse (hub.generations.lookup released.userNo)
      (.invariant (.missingCanonicalGeneration released.userNo))
    requireSameReleasedBinding canonical released
    hub.disconnect canonical
  else hub.transition hub.revision [] [] [] .notTracked

/-! ## Replacing presentations -/

/-- Replace who stands in the slot of a member by what `fresh` makes of it, if anything. -/
def replaceMemberRole (hub : MyRoomHub U) (userNo : UserNo) (membership : MyRoomMembership)
    (fresh : MyRoomParticipant U → Except MyRoomHubError (Option (MyRoomParticipant U))) :
    Except MyRoomHubError (List (Change UserNo (MyRoomState U))) := do
  let room ← hub.room membership.owner
  let current ← orElse (room.participant membership.slot)
    (.invariant (.membershipSlotMismatch userNo membership.slot))
  let replacement ← fresh current
  match replacement with
  | none => .ok []
  | some participant =>
    ((room.replaceParticipant membership.slot participant).mapError .invariant).map (fun room => [⟨membership.owner, some room⟩])

/-- Replace the presentation of the owner of a room by what `fresh` makes of it, if anything. -/
def replaceOwnerRole (hub : MyRoomHub U) (userNo : UserNo)
    (fresh : MyRoomState U → Except MyRoomHubError (Option (MyRoomParticipant U))) :
    Except MyRoomHubError (List (Change UserNo (MyRoomState U))) := do
  let room ← hub.room userNo
  let replacement ← fresh room
  match replacement with
  | none => .ok []
  | some participant =>
    ((room.replaceOwnerPresentation participant).mapError .invariant).map (fun room => [⟨userNo, some room⟩])

/-- Replace a user in the room it is in, if any. -/
def replaceMembership (hub : MyRoomHub U) (userNo : UserNo)
    (fresh : MyRoomParticipant U → Except MyRoomHubError (Option (MyRoomParticipant U))) :
    Except MyRoomHubError (List (Change UserNo (MyRoomState U))) :=
  match hub.memberships.lookup userNo with
  | none => .ok []
  | some membership => hub.replaceMemberRole userNo membership fresh

/-- Replace a user in the room it owns, when there is one and the user is not a member of it. -/
def replaceOwned (hub : MyRoomHub U) (userNo : UserNo)
    (fresh : MyRoomState U → Except MyRoomHubError (Option (MyRoomParticipant U))) :
    Except MyRoomHubError (List (Change UserNo (MyRoomState U))) :=
  if (hub.rooms.lookup userNo).isSome ∧ (hub.memberships.lookup userNo).all (fun mapped => mapped.owner ≠ userNo) then
    hub.replaceOwnerRole userNo fresh
  else .ok []

/-- Replace a user in the room it is in and in the room it owns, when that is another one. -/
def replaceRoles (hub : MyRoomHub U) (userNo : UserNo)
    (freshMember : MyRoomParticipant U → Except MyRoomHubError (Option (MyRoomParticipant U)))
    (freshOwner : MyRoomState U → Except MyRoomHubError (Option (MyRoomParticipant U))) :
    Except MyRoomHubError (List (Change UserNo (MyRoomState U))) := do
  ensure (¬((hub.memberships.lookup userNo).isNone ∧ (hub.rooms.lookup userNo).isNone))
    (.invariant (.orphanCanonicalGeneration userNo))
  let member ← hub.replaceMembership userNo freshMember
  let owner ← hub.replaceOwned userNo freshOwner
  pure (member ++ owner)

def replacementRooms (hub : MyRoomHub U) (userNo : UserNo) (replacement : MyRoomParticipant U) :
    Except MyRoomHubError (List (Change UserNo (MyRoomState U))) :=
  hub.replaceRoles userNo (fun _ => .ok (some replacement)) (fun _ => .ok (some replacement))

def profileReplacementRooms (hub : MyRoomHub U) (userNo : UserNo) (identity : IdentityBinding)
    (presentation : MyRoomProfilePresentation) : Except MyRoomHubError (List (Change UserNo (MyRoomState U))) :=
  hub.replaceRoles userNo (fun current => (participantWithProfile current identity presentation).map some)
    (fun room => (participantWithProfile room.owner identity presentation).map some)

def migratedReplacementRooms (hub : MyRoomHub U) (userNo : UserNo) (replacement : IdentityBinding) :
    Except MyRoomHubError (List (Change UserNo (MyRoomState U))) :=
  hub.replaceRoles userNo (fun current => (migratedParticipant current replacement).map some)
    (fun room => (migratedParticipant room.owner replacement).map some)

/-- A participant with another endpoint, unless it is the same one. -/
def patchedEndpoint (identity : IdentityBinding) (port : UInt16) (current : MyRoomParticipant U) :
    Except MyRoomHubError (Option (MyRoomParticipant U)) :=
  (participantWithP2pEndpoint current identity port).map (fun patched => if patched ≠ current then some patched else none)

/-- `p2p_endpoint_replacement_rooms`: an absent owner has no endpoint. -/
def p2pEndpointReplacementRooms (hub : MyRoomHub U) (identity : IdentityBinding) (port : UInt16) :
    Except MyRoomHubError (List (Change UserNo (MyRoomState U))) :=
  hub.replaceRoles identity.userNo (patchedEndpoint identity port)
    (fun room => if room.ownerPresent then patchedEndpoint identity port room.owner else .ok none)

/-- The publications of changed rooms. -/
def publicationsOf (rooms : List (Change UserNo (MyRoomState U))) : List RoomPublication :=
  rooms.filterMap (fun change => change.value.map (fun room => room.publication change.key))

def updateOwnerInfo (hub : MyRoomHub U) (identity : IdentityBinding) (info : MyRoomInfo) :
    Except MyRoomHubError (MyRoomTransition U OwnerInfoUpdate) := do
  (validateMyroomInfo info).mapError .wire
  let membership ← hub.membershipExact identity
  ensure (¬(membership.owner ≠ identity.userNo ∨ membership.slot ≠ .owner)) (.notPresentOwner identity.userNo)
  let nextRevision ← hub.nextRevision
  let room ← hub.room identity.userNo
  hub.transition nextRevision [⟨identity.userNo, some { room with info := info, infoRevision := nextRevision }⟩] [] []
    ⟨identity.userNo, room.info, info⟩

/-- `refresh_participant`: the outcome is the publications. -/
def refreshParticipant (hub : MyRoomHub U) (participant : MyRoomParticipant U) :
    Except MyRoomHubError (MyRoomTransition U (List RoomPublication)) := do
  hub.requireCanonicalIdentity participant.identity
  let nextRevision ← hub.nextRevision
  let rooms ← hub.replacementRooms participant.identity.userNo participant
  hub.transition nextRevision rooms [] [] (publicationsOf rooms)

def refreshProfileIfTracked (hub : MyRoomHub U) (identity : IdentityBinding) (presentation : MyRoomProfilePresentation) :
    Except MyRoomHubError (Option (MyRoomTransition U Unit)) := do
  let hasRole ← hub.hasRole identity.userNo
  if hasRole then do
    hub.requireCanonicalIdentity identity
    let nextRevision ← hub.nextRevision
    let rooms ← hub.profileReplacementRooms identity.userNo identity presentation
    some <$> hub.transition nextRevision rooms [] [] ()
  else pure none

def refreshP2pEndpointIfTracked (hub : MyRoomHub U) (identity : IdentityBinding) (port : UInt16) :
    Except MyRoomHubError (Option (MyRoomTransition U Unit)) := do
  let hasRole ← hub.hasRole identity.userNo
  if hasRole then do
    hub.requireCanonicalIdentity identity
    let rooms ← hub.p2pEndpointReplacementRooms identity port
    if rooms.isEmpty then pure none
    else do
      let nextRevision ← hub.nextRevision
      some <$> hub.transition nextRevision rooms [] [] ()
  else pure none

def advanceIdentity (hub : MyRoomHub U) (previous : IdentityBinding) (replacement : MyRoomParticipant U) :
    Except MyRoomHubError (MyRoomTransition U IdentityAdvanceEffects) := do
  hub.requireCanonicalIdentity previous
  validateIdentityAdvance U previous replacement.identity
  let nextRevision ← hub.nextRevision
  let rooms ← hub.replacementRooms previous.userNo replacement
  hub.transition nextRevision rooms [] [⟨previous.userNo, some replacement.identity⟩]
    ⟨previous, replacement.identity, publicationsOf rooms⟩

def advanceProfiledIdentityIfTracked (hub : MyRoomHub U) (previous replacement : IdentityBinding)
    (presentation : MyRoomProfilePresentation) :
    Except MyRoomHubError (Option (MyRoomTransition U IdentityAdvanceEffects)) := do
  let hasRole ← hub.hasRole previous.userNo
  if hasRole then do
    let participant ← (presentation.withP2pPort 0).bind replacement
    some <$> hub.advanceIdentity previous participant
  else pure none

def advanceMigratedIdentityIfTracked (hub : MyRoomHub U) (previous replacement : IdentityBinding) :
    Except MyRoomHubError (Option (MyRoomTransition U IdentityAdvanceEffects)) := do
  let hasRole ← hub.hasRole previous.userNo
  if hasRole then do
    hub.requireCanonicalIdentity previous
    validateIdentityAdvance U previous replacement
    let nextRevision ← hub.nextRevision
    let rooms ← hub.migratedReplacementRooms previous.userNo replacement
    some <$> hub.transition nextRevision rooms [] [⟨previous.userNo, some replacement⟩]
      ⟨previous, replacement, publicationsOf rooms⟩
  else pure none

end MyRoomHub

end P5136
