import P5136.MyRoom.Roles

/-!
# The audit of the hub

The check of the whole hub that debug builds run after every commit, the invariant of the hub, and that the audit of a hub with
the invariant succeeds.
-/

namespace P5136

namespace MyRoomHub

open Checks

variable {U : Unicode}

def validatePlayerSnapshot (owner : UserNo) (slot : MyRoomSlotIndex) (participant : MyRoomParticipant U) :
    Except MyRoomInvariantViolation Unit :=
  ensure (¬(validateMyroomPlayerSlot participant.player ≠ .ok () ∨
    participant.player.userNo ≠ participant.identity.userNo.get ∨
    canonicalNicknameKey U participant.player.nickname ≠ canonicalNicknameKey U participant.identity.nickname))
    (.invalidPlayerSnapshot owner slot)

def auditCanonical (hub : MyRoomHub U) (participant : MyRoomParticipant U) : Except MyRoomInvariantViolation Unit := do
  let canonical ← orElse (hub.generations.lookup participant.identity.userNo)
    (.missingCanonicalGeneration participant.identity.userNo)
  ensure (canonical = participant.identity)
    (.canonicalGenerationMismatch participant.identity.userNo canonical.generation.get participant.identity.generation.get)

def requireReverseMembership (hub : MyRoomHub U) (owner : UserNo) (slot : MyRoomSlotIndex) (participant : MyRoomParticipant U) :
    Except MyRoomInvariantViolation Unit :=
  ensure (hub.memberships.lookup participant.identity.userNo = some ⟨owner, slot⟩)
    (.missingReverseMembership owner slot participant.identity.userNo)

/-- The audit of the visitors of a room, with the users seen in it so far. -/
def auditVisitors (hub : MyRoomHub U) (owner : UserNo) (room : MyRoomState U) :
    List (Fin 7) → List UserNo → Except MyRoomInvariantViolation Unit
  | [], _ => .ok ()
  | index :: rest, seen =>
    match room.visitors index with
    | none => hub.auditVisitors owner room rest seen
    | some participant => do
      validatePlayerSnapshot owner index.succ participant
      hub.auditCanonical participant
      ensure (¬(participant.identity.userNo = owner ∨ participant.identity.userNo ∈ seen))
        (.duplicateRoomMember owner participant.identity.userNo)
      hub.requireReverseMembership owner index.succ participant
      hub.auditVisitors owner room rest (participant.identity.userNo :: seen)

/-- The audit of the owner's slot, when the owner is present. -/
def auditPresentOwner (hub : MyRoomHub U) (owner : UserNo) (room : MyRoomState U) : Except MyRoomInvariantViolation Unit :=
  if room.ownerPresent then hub.requireReverseMembership owner .owner room.owner else .ok ()

/-- The audit of a room. -/
def auditRoom (hub : MyRoomHub U) (entry : Σ _ : UserNo, MyRoomState U) : Except MyRoomInvariantViolation Unit := do
  let owner := entry.1
  let room := entry.2
  ensure (room.mappedCount ≠ 0) (.emptyRoom owner)
  ensure (room.owner.identity.userNo = owner) (.wrongOwnerPresentation owner room.owner.identity.userNo)
  ensure (¬(room.ownerPresent = false ∧ room.owner.player.p2pPort ≠ 0))
    (.absentOwnerAdvertisesP2pPort owner room.owner.player.p2pPort)
  ensure (validateMyroomInfo room.info = .ok ()) (.invalidRoomInfo owner)
  validatePlayerSnapshot owner 0 room.owner
  hub.auditCanonical room.owner
  hub.auditPresentOwner owner room
  hub.auditVisitors owner room (List.finRange 7) (if room.ownerPresent then [room.owner.identity.userNo] else [])

/-- The audit of a membership. -/
def auditMembership (hub : MyRoomHub U) (entry : Σ _ : UserNo, MyRoomMembership) : Except MyRoomInvariantViolation Unit := do
  let member := entry.1
  let membership := entry.2
  let room ← orElse (hub.rooms.lookup membership.owner) (.missingMembershipRoom member membership.owner)
  let participant ← orElse (room.participant membership.slot) (.membershipSlotMismatch member membership.slot)
  ensure (participant.identity.userNo = member) (.membershipSlotMismatch member membership.slot)
  hub.auditCanonical participant

/-- The audit of a canonical binding. -/
def auditGeneration (hub : MyRoomHub U) (userNo : UserNo) : Except MyRoomInvariantViolation Unit :=
  ensure (¬((hub.memberships.lookup userNo).isNone ∧ (hub.rooms.lookup userNo).isNone)) (.orphanCanonicalGeneration userNo)

def auditInvariants (hub : MyRoomHub U) : Except MyRoomInvariantViolation Unit := do
  ensure (¬hub.generations.size > hub.identityCapacity.get)
    (.identityCapacityExceeded hub.generations.size hub.identityCapacity.get)
  all hub.auditRoom hub.rooms.entries
  all hub.auditMembership hub.memberships.entries
  all hub.auditGeneration hub.generations.keys

/-! ## The invariant -/

/-- The roles are as they should be, everyone stands under the canonical binding, and there is a binding for nobody else, within
the capacity. -/
structure Inv (hub : MyRoomHub U) : Prop where
  roles : Roles (fun key => hub.rooms.lookup key) (fun key => hub.memberships.lookup key)
  canonical : Canonical (fun key => hub.rooms.lookup key) (fun key => hub.generations.lookup key)
  referenced : ∀ userNo, (hub.generations.lookup userNo).isSome →
    Referenced (fun key => hub.rooms.lookup key) (fun key => hub.memberships.lookup key) userNo
  capacity : hub.generations.size ≤ hub.identityCapacity.get

/-- The empty hub has the invariant. -/
theorem inv_withIdentityCapacity (identityCapacity : NonZero 64) :
    Inv (withIdentityCapacity identityCapacity : MyRoomHub U) := by
  have hstands : ∀ owner slot participant,
      ¬Stands (fun key => (withIdentityCapacity identityCapacity : MyRoomHub U).rooms.lookup key) owner slot participant := by
    rintro owner slot participant ⟨room, hroom, -⟩
    cases hroom
  refine ⟨⟨?_, ?_, ?_⟩, ⟨?_, ?_⟩, ?_, Nat.zero_le _⟩
  · intro owner room hroom
    cases hroom
  · intro owner room hroom
    cases hroom
  · intro userNo owner slot
    constructor
    · intro hm
      cases hm
    · rintro ⟨participant, hp, -⟩
      exact absurd hp (hstands owner slot participant)
  · intro owner room hroom
    cases hroom
  · exact fun owner slot participant hp => absurd hp (hstands owner slot participant)
  · intro userNo hid
    cases hid

namespace Inv

variable {hub : MyRoomHub U}

/-- Everyone with a role has a binding, of the same user. -/
theorem canonical_of_referenced (h : hub.Inv) {userNo : UserNo}
    (href : Referenced (fun key => hub.rooms.lookup key) (fun key => hub.memberships.lookup key) userNo) :
    ∃ identity, hub.generations.lookup userNo = some identity ∧ identity.userNo = userNo := by
  have hsome : ∃ identity, hub.generations.lookup userNo = some identity := by
    rcases href with href | href
    · obtain ⟨⟨owner, slot⟩, hm⟩ := Option.isSome_iff_exists.1 href
      obtain ⟨participant, hp, rfl⟩ := (h.roles.inverse _ _ _).1 hm
      exact ⟨_, h.canonical.members owner slot participant hp⟩
    · obtain ⟨room, hroom⟩ := Option.isSome_iff_exists.1 href
      exact ⟨_, h.canonical.owners _ _ hroom⟩
  obtain ⟨identity, hid⟩ := hsome
  exact ⟨identity, hid, h.canonical.userNo h.roles href hid⟩

/-- The members of a room with a binding: where a membership points there stands the member, under its binding. -/
theorem of_membership (h : hub.Inv) {userNo owner : UserNo} {slot : MyRoomSlotIndex}
    (hm : hub.memberships.lookup userNo = some ⟨owner, slot⟩) :
    ∃ room participant, hub.rooms.lookup owner = some room ∧ room.participant slot = some participant ∧
      participant.identity.userNo = userNo ∧ hub.generations.lookup userNo = some participant.identity := by
  obtain ⟨participant, ⟨room, hroom, hp⟩, rfl⟩ := (h.roles.inverse _ _ _).1 hm
  exact ⟨room, participant, hroom, hp, rfl, h.canonical.members owner slot participant ⟨room, hroom, hp⟩⟩

/-! ## The audit succeeds -/

/-- Presentations are valid by construction. -/
theorem validatePlayerSnapshot_ok (owner : UserNo) (slot : MyRoomSlotIndex) (participant : MyRoomParticipant U) :
    validatePlayerSnapshot owner slot participant = .ok () := by
  obtain ⟨h1, h2, h3⟩ := participant.valid
  simp [validatePlayerSnapshot, h1, h2, h3]

/-- A recorded binding passes. -/
theorem auditCanonical_ok {participant : MyRoomParticipant U}
    (hid : hub.generations.lookup participant.identity.userNo = some participant.identity) :
    hub.auditCanonical participant = .ok () := by
  unfold auditCanonical
  rw [hid]
  simp [orElse, ensure, bind, Except.bind]

/-- The audit of visitors of which none was seen yet: nobody stands in two slots. -/
theorem auditVisitors_ok (h : hub.Inv) {owner : UserNo} {room : MyRoomState U} (hroom : hub.rooms.lookup owner = some room)
    {indices : List (Fin 7)} (hnodup : indices.Nodup) {seen : List UserNo}
    (hseen : ∀ index ∈ indices, ∀ participant, room.visitors index = some participant →
      participant.identity.userNo ∉ seen) : hub.auditVisitors owner room indices seen = .ok () := by
  induction indices generalizing seen with
  | nil => rfl
  | cons index rest ih =>
    obtain ⟨hnotin, hrest⟩ := List.nodup_cons.1 hnodup
    unfold auditVisitors
    cases hv : room.visitors index with
    | none => exact ih hrest fun other hother => hseen other (List.mem_cons_of_mem _ hother)
    | some participant =>
      have hp : room.participant index.succ = some participant := by rw [MyRoomState.participant_succ, hv]
      have hstands : Stands (fun key => hub.rooms.lookup key) owner index.succ participant := ⟨room, hroom, hp⟩
      have hcanonical := auditCanonical_ok (h.canonical.members owner index.succ participant hstands)
      have hne : participant.identity.userNo ≠ owner := fun hc =>
        Fin.succ_ne_zero index ((h.roles.sound owner room hroom).ownSlot _ participant hp hc)
      have hnew := hseen index List.mem_cons_self participant hv
      have hreverse : hub.requireReverseMembership owner index.succ participant = .ok () := by
        simp [requireReverseMembership, h.roles.member hstands]
      have hdone : hub.auditVisitors owner room rest (participant.identity.userNo :: seen) = .ok () := by
        refine ih hrest fun other hother participant' hv' => ?_
        rw [List.mem_cons, not_or]
        refine ⟨fun hc => ?_, hseen other (List.mem_cons_of_mem _ hother) participant' hv'⟩
        have hp' : room.participant other.succ = some participant' := by rw [MyRoomState.participant_succ, hv']
        obtain ⟨-, hslot⟩ := h.roles.stands_unique ⟨room, hroom, hp'⟩ hstands hc
        rw [Fin.succ_inj.1 hslot] at hother
        exact hnotin hother
      simp only [validatePlayerSnapshot_ok, hcanonical, hreverse, hdone, hne, hnew, ensure, bind, Except.bind, or_self,
        not_false_eq_true, if_true]

/-- The audit of a room succeeds. -/
theorem auditRoom_ok (h : hub.Inv) {owner : UserNo} {room : MyRoomState U} (hroom : hub.rooms.lookup owner = some room) :
    hub.auditRoom ⟨owner, room⟩ = .ok () := by
  have hsound := h.roles.sound owner room hroom
  have hcount := h.roles.occupied owner room hroom
  have hport : ¬(room.ownerPresent = false ∧ room.owner.player.p2pPort ≠ 0) := fun hc => hc.2 (hsound.port hc.1)
  have hcanonical : hub.auditCanonical room.owner = .ok () := by
    refine auditCanonical_ok ?_
    rw [hsound.owner]
    exact h.canonical.owners owner room hroom
  have hpresent : hub.auditPresentOwner owner room = .ok () := by
    unfold auditPresentOwner
    split
    · rename_i hp
      have hzero : room.participant 0 = some room.owner := by rw [MyRoomState.participant_zero, if_pos hp]
      have hm := h.roles.member ⟨room, hroom, hzero⟩
      unfold requireReverseMembership MyRoomSlotIndex.owner
      rw [ensure_eq_ok]
      exact hm
    · rfl
  have hvisitors : hub.auditVisitors owner room (List.finRange 7)
      (if room.ownerPresent then [room.owner.identity.userNo] else []) = .ok () := by
    refine auditVisitors_ok h hroom (List.nodup_finRange 7) fun index _ participant hv hmem => ?_
    have hp : room.participant index.succ = some participant := by rw [MyRoomState.participant_succ, hv]
    have hu : participant.identity.userNo = owner := by
      split at hmem
      · rw [List.mem_singleton.1 hmem, hsound.owner]
      · cases hmem
    exact Fin.succ_ne_zero index (hsound.ownSlot _ participant hp hu)
  rw [hsound.owner] at hvisitors
  simp only [auditRoom, ne_eq, hcount, hsound.owner, hport, hsound.info, validatePlayerSnapshot_ok, hcanonical, hpresent,
    hvisitors, ensure, bind, Except.bind, not_false_eq_true, if_true]

/-- The audit of a membership succeeds. -/
theorem auditMembership_ok (h : hub.Inv) {member : UserNo} {membership : MyRoomMembership}
    (hm : hub.memberships.lookup member = some membership) : hub.auditMembership ⟨member, membership⟩ = .ok () := by
  obtain ⟨owner, slot⟩ := membership
  obtain ⟨room, participant, hroom, hp, hu, hid⟩ := h.of_membership hm
  have hcanonical : hub.auditCanonical participant = .ok () := auditCanonical_ok (by rw [hu, hid])
  simp only [auditMembership, hroom, hp, hu, hcanonical, orElse, ensure, bind, Except.bind, if_true]

/-- The audit of a hub with the invariant succeeds. -/
theorem auditInvariants_ok (h : hub.Inv) : hub.auditInvariants = .ok () := by
  have hrooms : all hub.auditRoom hub.rooms.entries = .ok () :=
    all_eq_ok.2 fun entry hentry => h.auditRoom_ok (FiniteMap.lookup_eq_some_iff.2 hentry)
  have hmemberships : all hub.auditMembership hub.memberships.entries = .ok () :=
    all_eq_ok.2 fun entry hentry => h.auditMembership_ok (FiniteMap.lookup_eq_some_iff.2 hentry)
  have hgenerations : all hub.auditGeneration hub.generations.keys = .ok () := by
    refine all_eq_ok.2 fun userNo hkey => ?_
    have href := h.referenced userNo (AList.lookup_isSome.2 hkey)
    unfold auditGeneration
    rw [ensure_eq_ok]
    rintro ⟨hnone, hnone'⟩
    rcases href with hsome | hsome
    · simp [Option.isNone_iff_eq_none.1 hnone] at hsome
    · simp [Option.isNone_iff_eq_none.1 hnone'] at hsome
  have hcapacity : ¬hub.generations.size > hub.identityCapacity.get := Nat.not_lt.2 h.capacity
  simp only [auditInvariants, hcapacity, hrooms, hmemberships, hgenerations, ensure, bind, Except.bind,
    not_false_eq_true, if_true]

end Inv

end MyRoomHub

end P5136
