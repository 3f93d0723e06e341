import P5136.Identity.Binding
import P5136.Room.Wire

/-!
# One MyRoom

A MyRoom belongs to its owner, who has slot zero when present; the other slots are for visitors. Who stands in a slot is a
participant: an identity with a presentation that belongs to it. When the owner is absent the room keeps its presentation,
without a port.
-/

namespace P5136

/-- `MyRoomProtocolError`, as far as the validation of values goes. -/
inductive MyRoomProtocolError where
  | stringTooLong (field : String) (actual maximum : Nat)
deriving DecidableEq

/-- `MAX_MYROOM_PASSWORD_UTF16_UNITS`. -/
def maxMyroomPasswordUtf16Units : Nat := 64

/-- `MYROOM_SLOT_COUNT`. -/
def myroomSlotCount : Nat := 8

structure MyRoomInfo where
  roomId : Int
  bgm : Nat
  useRoomPassword : Nat
  useItemPassword : Nat
  talkLock : Nat
  roomPassword : String
  itemPassword : String
  kart1 : Int
  kart2 : Int
deriving DecidableEq

def MyRoomInfo.default : MyRoomInfo where
  roomId := 0
  bgm := 0
  useRoomPassword := 0
  useItemPassword := 0
  talkLock := 1
  roomPassword := ""
  itemPassword := ""
  kart1 := 0
  kart2 := 0

/-- `MyRoomPlayerSlot`: what the others are shown of a player. -/
structure MyRoomPlayerSlot where
  userNo : Nat
  p2pAddress : BitVec 32
  p2pPort : UInt16
  nickname : String
  riderItemSnapshot : Vector UInt8 65
  rp : Nat
  clubName : String
deriving DecidableEq

inductive MyRoomSlot where
  | empty
  | player (player : MyRoomPlayerSlot)
deriving DecidableEq

/-- `validate_string`. -/
def validateMyroomString (field value : String) (maximum : Nat) : Except MyRoomProtocolError Unit :=
  Checks.ensure (¬utf16Length value > maximum) (.stringTooLong field (utf16Length value) maximum)

def validateMyroomInfo (info : MyRoomInfo) : Except MyRoomProtocolError Unit := do
  validateMyroomString "MyRoom room password" info.roomPassword maxMyroomPasswordUtf16Units
  validateMyroomString "MyRoom item password" info.itemPassword maxMyroomPasswordUtf16Units

def validateMyroomPlayerSlot (player : MyRoomPlayerSlot) : Except MyRoomProtocolError Unit := do
  validateMyroomString "MyRoom rider nickname" player.nickname maxRiderNicknameUtf16Units
  validateMyroomString "MyRoom club name" player.clubName maxClubNameUtf16Units

/-- A slot: zero is the owner's. -/
abbrev MyRoomSlotIndex := Fin 8

/-- `MyRoomSlotIndex::OWNER`. -/
def MyRoomSlotIndex.owner : MyRoomSlotIndex := 0

/-- `visitor_index`: the place of a visitor's slot among the visitors. -/
def MyRoomSlotIndex.visitorIndex (slot : MyRoomSlotIndex) : Option (Fin 7) := if h : slot = 0 then none else some (slot.pred h)

/-- `MyRoomInvariantViolation`: an internal disagreement. -/
inductive MyRoomInvariantViolation where
  | emptyRoom (owner : UserNo)
  | wrongOwnerPresentation (owner actual : UserNo)
  | absentOwnerAdvertisesP2pPort (owner : UserNo) (port : UInt16)
  | invalidPlayerSnapshot (owner : UserNo) (slot : Nat)
  | invalidRoomInfo (owner : UserNo)
  | duplicateRoomMember (owner member : UserNo)
  | missingReverseMembership (owner : UserNo) (slot : Nat) (member : UserNo)
  | missingMembershipRoom (member owner : UserNo)
  | membershipSlotMismatch (member : UserNo) (slot : Nat)
  | missingCanonicalGeneration (userNo : UserNo)
  | canonicalGenerationMismatch (userNo : UserNo) (expected actual : Nat)
  | orphanCanonicalGeneration (userNo : UserNo)
  | identityCapacityExceeded (actual maximum : Nat)
deriving DecidableEq

/-- `MyRoomHubError`, as far as the planning of transitions goes. -/
inductive MyRoomHubError where
  | wire (error : MyRoomProtocolError)
  | snapshotUserNoMismatch (identity : UserNo) (snapshot : Nat)
  | snapshotNicknameMismatch (identity snapshot : String)
  | full (owner : UserNo)
  | notMember (userNo : UserNo)
  | staleGeneration (userNo : UserNo) (expected actual : Nat)
  | identityBindingMismatch (userNo : UserNo) (generation : Nat)
  | identityAdvanceUserMismatch (previous replacement : UserNo)
  | identityAdvanceNicknameMismatch (previous replacement : String)
  | nonAdvancingGeneration (userNo : UserNo) (previous replacement : Nat)
  | identityCapacity (maximum requested : Nat)
  | roomMissing (owner : UserNo)
  | notPresentOwner (userNo : UserNo)
  | revisionExhausted
  | transitionTooLarge (rooms memberships generations : Nat)
  | invariant (violation : MyRoomInvariantViolation)
deriving DecidableEq

variable {U : Unicode}

/-! ## Participants -/

/-- The presentation is valid and belongs to the identity. -/
def ValidSnapshot (U : Unicode) (identity : IdentityBinding) (player : MyRoomPlayerSlot) : Prop :=
  validateMyroomPlayerSlot player = .ok () ∧ player.userNo = identity.userNo.get ∧
    canonicalNicknameKey U player.nickname = canonicalNicknameKey U identity.nickname

/-- `MyRoomParticipant`: an identity with a presentation that belongs to it. -/
structure MyRoomParticipant (U : Unicode) where
  identity : IdentityBinding
  player : MyRoomPlayerSlot
  valid : ValidSnapshot U identity player

/-- Participants are compared by identity and presentation. -/
instance : DecidableEq (MyRoomParticipant U) := fun p q =>
  decidable_of_iff (p.identity = q.identity ∧ p.player = q.player) (by
    cases p
    cases q
    simp)

namespace MyRoomParticipant

def new (identity : IdentityBinding) (player : MyRoomPlayerSlot) : Except MyRoomHubError (MyRoomParticipant U) :=
  match h : validateMyroomPlayerSlot player with
  | .error error => .error (.wire error)
  | .ok () =>
    if hu : player.userNo = identity.userNo.get then
      if hn : canonicalNicknameKey U player.nickname = canonicalNicknameKey U identity.nickname then
        .ok ⟨identity, player, h, hu, hn⟩
      else .error (.snapshotNicknameMismatch identity.nickname player.nickname)
    else .error (.snapshotUserNoMismatch identity.userNo player.userNo)

/-- The port may be replaced: it is not part of what makes a presentation valid. -/
def withPort (participant : MyRoomParticipant U) (port : UInt16) : MyRoomParticipant U :=
  ⟨participant.identity, { participant.player with p2pPort := port }, participant.valid⟩

/-- A participant that is built has the identity and the presentation it was built from. -/
theorem new_eq_ok {identity : IdentityBinding} {player : MyRoomPlayerSlot} {participant : MyRoomParticipant U}
    (h : new identity player = .ok participant) : participant.identity = identity ∧ participant.player = player := by
  unfold new at h
  split at h
  · cases h
  · split at h
    · split at h
      · cases h
        exact ⟨rfl, rfl⟩
      · cases h
    · cases h

end MyRoomParticipant

/-- `MyRoomProfilePresentation`: what a profile knows of a presentation. -/
structure MyRoomProfilePresentation where
  p2pPort : UInt16
  riderItemSnapshot : Vector UInt8 65
  rp : Nat
  clubName : String
deriving DecidableEq

namespace MyRoomProfilePresentation

def withP2pPort (presentation : MyRoomProfilePresentation) (p2pPort : UInt16) : MyRoomProfilePresentation :=
  { presentation with p2pPort := p2pPort }

def playerFor (presentation : MyRoomProfilePresentation) (identity : IdentityBinding) : MyRoomPlayerSlot :=
  let endpoint := legacyP2pEndpoint identity.sourceIp presentation.p2pPort
  { userNo := identity.userNo.get
    p2pAddress := endpoint.1
    p2pPort := endpoint.2
    nickname := identity.nickname
    riderItemSnapshot := presentation.riderItemSnapshot
    rp := presentation.rp
    clubName := presentation.clubName }

def bind (presentation : MyRoomProfilePresentation) (identity : IdentityBinding) :
    Except MyRoomHubError (MyRoomParticipant U) :=
  MyRoomParticipant.new identity (presentation.playerFor identity)

end MyRoomProfilePresentation

/-- `MyRoomOwner`: an owner with valid information for its room. -/
structure MyRoomOwner (U : Unicode) where
  participant : MyRoomParticipant U
  info : MyRoomInfo
  valid : validateMyroomInfo info = .ok ()

/-- `MyRoomOwner::key`: rooms are known by the user number of their owner. -/
def MyRoomOwner.key (owner : MyRoomOwner U) : UserNo := owner.participant.identity.userNo

def participantWithP2pEndpoint (current : MyRoomParticipant U) (identity : IdentityBinding) (port : UInt16) :
    Except MyRoomHubError (MyRoomParticipant U) :=
  let endpoint := legacyP2pEndpoint identity.sourceIp port
  MyRoomParticipant.new current.identity { current.player with p2pAddress := endpoint.1, p2pPort := endpoint.2 }

def participantWithProfile (current : MyRoomParticipant U) (identity : IdentityBinding)
    (presentation : MyRoomProfilePresentation) : Except MyRoomHubError (MyRoomParticipant U) :=
  let endpoint := legacyP2pEndpoint identity.sourceIp current.player.p2pPort
  MyRoomParticipant.new identity { presentation.playerFor identity with p2pAddress := endpoint.1, p2pPort := endpoint.2 }

def migratedParticipant (current : MyRoomParticipant U) (replacement : IdentityBinding) :
    Except MyRoomHubError (MyRoomParticipant U) :=
  let endpoint := legacyP2pEndpoint replacement.sourceIp 0
  MyRoomParticipant.new replacement
    { current.player with
      userNo := replacement.userNo.get
      nickname := replacement.nickname
      p2pAddress := endpoint.1
      p2pPort := endpoint.2 }

/-! ## Rooms -/

/-- `RoomState`. -/
structure MyRoomState (U : Unicode) where
  owner : MyRoomParticipant U
  info : MyRoomInfo
  infoRevision : Nat
  ownerPresent : Bool
  visitors : Fin 7 → Option (MyRoomParticipant U)

structure MyRoomSnapshot where
  owner : UserNo
  slots : MyRoomSlotIndex → MyRoomSlot

structure RoomPublication where
  owner : UserNo
  snapshot : MyRoomSnapshot
  audience : List IdentityBinding

namespace MyRoomState

/-- `RoomState::new`: the owner is not present yet. -/
def new (owner : MyRoomOwner U) (infoRevision : Nat) : MyRoomState U where
  owner := owner.participant.withPort 0
  info := owner.info
  infoRevision := infoRevision
  ownerPresent := false
  visitors := fun _ => none

/-- `mapped_participants`: who is in the room, in the order of the slots. -/
def mappedParticipants (room : MyRoomState U) : List (MyRoomParticipant U) :=
  (if room.ownerPresent then [room.owner] else []) ++ (List.finRange 7).filterMap room.visitors

def mappedCount (room : MyRoomState U) : Nat :=
  (if room.ownerPresent then 1 else 0) + ((List.finRange 7).filterMap room.visitors).length

/-- `next_slot_for`: slot zero for the owner, and the first free slot for a visitor. -/
def nextSlotFor (room : MyRoomState U) (userNo : UserNo) : Option MyRoomSlotIndex :=
  if userNo = room.owner.identity.userNo then some .owner
  else ((List.finRange 7).find? (fun index => (room.visitors index).isNone)).map Fin.succ

/-- `participant`: who is in a slot. -/
def participant (room : MyRoomState U) (slot : MyRoomSlotIndex) : Option (MyRoomParticipant U) :=
  match slot.visitorIndex with
  | none => if room.ownerPresent then some room.owner else none
  | some index => room.visitors index

def addMember (room : MyRoomState U) (slot : MyRoomSlotIndex) (participant : MyRoomParticipant U) :
    Except MyRoomInvariantViolation (MyRoomState U) :=
  match slot.visitorIndex with
  | none =>
    if participant.identity ≠ room.owner.identity then
      .error (.canonicalGenerationMismatch participant.identity.userNo room.owner.identity.generation.get
        participant.identity.generation.get)
    else .ok { room with owner := room.owner.withPort participant.player.p2pPort, ownerPresent := true }
  | some index =>
    if (room.visitors index).isSome then .error (.membershipSlotMismatch participant.identity.userNo slot)
    else .ok { room with visitors := Function.update room.visitors index (some participant) }

def replaceParticipant (room : MyRoomState U) (slot : MyRoomSlotIndex) (participant : MyRoomParticipant U) :
    Except MyRoomInvariantViolation (MyRoomState U) :=
  match slot.visitorIndex with
  | none =>
    if ¬room.ownerPresent ∨ participant.identity.userNo ≠ room.owner.identity.userNo then
      .error (.membershipSlotMismatch participant.identity.userNo slot)
    else .ok { room with owner := participant }
  | some index =>
    if (room.visitors index).any (fun current => current.identity.userNo = participant.identity.userNo) then
      .ok { room with visitors := Function.update room.visitors index (some participant) }
    else .error (.membershipSlotMismatch participant.identity.userNo slot)

/-- `replace_owner_presentation`: without a port when the owner is absent. -/
def replaceOwnerPresentation (room : MyRoomState U) (participant : MyRoomParticipant U) :
    Except MyRoomInvariantViolation (MyRoomState U) :=
  if participant.identity.userNo ≠ room.owner.identity.userNo then
    .error (.wrongOwnerPresentation room.owner.identity.userNo participant.identity.userNo)
  else .ok { room with owner := if room.ownerPresent then participant else participant.withPort 0 }

def removeParticipant (room : MyRoomState U) (slot : MyRoomSlotIndex) (expected : UserNo) :
    Except MyRoomInvariantViolation (MyRoomState U) :=
  match slot.visitorIndex with
  | none =>
    if ¬room.ownerPresent ∨ room.owner.identity.userNo ≠ expected then .error (.membershipSlotMismatch expected slot)
    else .ok { room with owner := room.owner.withPort 0, ownerPresent := false }
  | some index =>
    if (room.visitors index).any (fun participant => participant.identity.userNo = expected) then
      .ok { room with visitors := Function.update room.visitors index none }
    else .error (.membershipSlotMismatch expected slot)

def snapshot (room : MyRoomState U) (key : UserNo) : MyRoomSnapshot where
  owner := key
  slots := fun slot =>
    match slot.visitorIndex with
    | none => .player room.owner.player
    | some index => match room.visitors index with
      | none => .empty
      | some participant => .player participant.player

/-- `audience`: the identities in the room, in the order of the slots. -/
def audience (room : MyRoomState U) : List IdentityBinding := room.mappedParticipants.map (·.identity)

def publication (room : MyRoomState U) (owner : UserNo) : RoomPublication where
  owner := owner
  snapshot := room.snapshot owner
  audience := room.audience

end MyRoomState

end P5136
