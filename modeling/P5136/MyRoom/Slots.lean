import P5136.MyRoom.Room

/-!
# The slots of a MyRoom

What the operations on a room do to the participant of every slot, and what makes a room sound: it is the room of its owner, an
absent owner shows no port, the information is valid, and the owner stands in no slot but its own.
-/

namespace P5136

open Function List MyRoomSlotIndex

variable {U : Unicode}

@[simp] theorem MyRoomSlotIndex.visitorIndex_zero : visitorIndex 0 = none := rfl

@[simp] theorem MyRoomSlotIndex.visitorIndex_succ (index : Fin 7) :
    visitorIndex index.succ = some index := by
  simp [visitorIndex]

namespace MyRoomState

/-! ## Participants in the order of the slots -/

/-- In slot zero stands the owner, when present. -/
theorem participant_zero (room : MyRoomState U) :
    room.participant 0 = if room.ownerPresent then some room.owner else none := rfl

/-- In the other slots stand the visitors. -/
@[simp] theorem participant_succ (room : MyRoomState U) (index : Fin 7) :
    room.participant index.succ = room.visitors index := by
  simp [participant]

/-- The mapped participants are those of the slots, in order. -/
theorem mappedParticipants_eq (room : MyRoomState U) :
    room.mappedParticipants = (finRange 8).filterMap room.participant := by
  have hsucc : (fun index : Fin 7 => room.participant index.succ) = room.visitors :=
    funext (participant_succ room)
  rw [finRange_succ, filterMap_cons, filterMap_map, participant_zero]
  unfold mappedParticipants
  simp only [comp_def, hsucc]
  cases room.ownerPresent <;> rfl

/-- A participant is mapped when it stands in some slot. -/
theorem mem_mappedParticipants {room : MyRoomState U} {participant : MyRoomParticipant U} :
    participant ∈ room.mappedParticipants ↔ ∃ slot, room.participant slot = some participant := by
  rw [mappedParticipants_eq, mem_filterMap]
  simp

/-- The count is that of the mapped participants. -/
theorem mappedCount_eq (room : MyRoomState U) : room.mappedCount = room.mappedParticipants.length := by
  unfold mappedCount mappedParticipants
  rw [length_append]
  cases room.ownerPresent <;> rfl

/-- A room is empty when no slot has a participant. -/
theorem mappedCount_eq_zero {room : MyRoomState U} : room.mappedCount = 0 ↔ ∀ slot, room.participant slot = none := by
  rw [mappedCount_eq, length_eq_zero_iff, eq_nil_iff_forall_not_mem]
  constructor
  · intro h slot
    cases hp : room.participant slot with
    | none => rfl
    | some participant => exact absurd (mem_mappedParticipants.2 ⟨slot, hp⟩) (h participant)
  · intro h participant hmem
    obtain ⟨slot, hp⟩ := mem_mappedParticipants.1 hmem
    rw [h slot] at hp
    cases hp

/-- A room with a participant is not empty. -/
theorem mappedCount_ne_zero {room : MyRoomState U} {slot : MyRoomSlotIndex} {participant : MyRoomParticipant U}
    (h : room.participant slot = some participant) : room.mappedCount ≠ 0 := by
  intro hc
  rw [mappedCount_eq_zero.1 hc slot] at h
  cases h

/-- The audience has the identities of the mapped participants, in the order of the slots. -/
theorem audience_eq (room : MyRoomState U) :
    room.audience = (finRange 8).filterMap (fun slot => (room.participant slot).map (·.identity)) := by
  unfold audience
  rw [mappedParticipants_eq, map_filterMap]

/-- There are at most seven visitors. -/
theorem length_visitors_le (room : MyRoomState U) : ((finRange 7).filterMap room.visitors).length ≤ 7 := by
  have h := length_filterMap_le room.visitors (finRange 7)
  rwa [length_finRange] at h

/-! ## What the operations do to the slots -/

/-- The slots of a room that differs in its visitors. -/
theorem participant_update (room : MyRoomState U) (index : Fin 7) (value : Option (MyRoomParticipant U)) :
    participant { room with visitors := update room.visitors index value } =
      update room.participant index.succ value := by
  funext slot
  cases slot using Fin.cases with
  | zero => rw [update_of_ne (Fin.succ_ne_zero index).symm]; rfl
  | succ other =>
    rw [participant_succ]
    change update room.visitors index value other = _
    by_cases h : other = index
    · subst h
      rw [update_self, update_self]
    · rw [update_of_ne h, update_of_ne (fun hc => h (Fin.succ_inj.1 hc)), participant_succ]

/-- The slots of a room that differs in its owner. -/
theorem participant_withOwner (room : MyRoomState U) (owner : MyRoomParticipant U) (present : Bool) :
    participant { room with owner := owner, ownerPresent := present } =
      update room.participant 0 (if present then some owner else none) := by
  funext slot
  cases slot using Fin.cases with
  | zero => rw [update_self]; rfl
  | succ other => rw [update_of_ne (Fin.succ_ne_zero other)]; simp [participant]

/-- The identity of the owner and the information stay. -/
def SameOwner (room room' : MyRoomState U) : Prop :=
  room'.owner.identity = room.owner.identity ∧ room'.info = room.info

/-- An absent owner shows no port. -/
def PortOk (room : MyRoomState U) : Prop := room.ownerPresent = false → room.owner.player.p2pPort = 0

/-- Adding a member puts someone with its identity in the slot. -/
theorem addMember_eq_ok {room room' : MyRoomState U} {slot : MyRoomSlotIndex} {participant : MyRoomParticipant U}
    (h : room.addMember slot participant = .ok room') :
    (∃ added, added.identity = participant.identity ∧ room'.participant = update room.participant slot (some added)) ∧
      SameOwner room room' ∧ (PortOk room → PortOk room') := by
  unfold addMember at h
  cases slot using Fin.cases with
  | zero =>
    simp only [visitorIndex_zero, ne_eq, ite_not] at h
    split at h
    · rename_i hid
      cases h
      refine ⟨⟨room.owner.withPort participant.player.p2pPort, hid.symm, ?_⟩, ⟨rfl, rfl⟩, fun _ hp => ?_⟩
      · exact participant_withOwner room _ true
      · cases hp
    · cases h
  | succ index =>
    simp only [visitorIndex_succ] at h
    split at h
    · cases h
    · cases h
      exact ⟨⟨participant, rfl, participant_update room index _⟩, ⟨rfl, rfl⟩, fun hp => hp⟩

/-- In slot zero only the owner's own binding is added. -/
theorem identity_of_addMember {room room' : MyRoomState U} {participant : MyRoomParticipant U}
    (h : room.addMember 0 participant = .ok room') : participant.identity = room.owner.identity := by
  unfold addMember at h
  simp only [visitorIndex_zero, ne_eq, ite_not] at h
  split at h
  · assumption
  · cases h

/-- Removing a participant empties the slot it stands in. -/
theorem removeParticipant_eq_ok {room room' : MyRoomState U} {slot : MyRoomSlotIndex} {expected : UserNo}
    (h : room.removeParticipant slot expected = .ok room') :
    (∃ participant, room.participant slot = some participant ∧ participant.identity.userNo = expected) ∧
      room'.participant = update room.participant slot none ∧ SameOwner room room' ∧
      (PortOk room → PortOk room') := by
  unfold removeParticipant at h
  cases slot using Fin.cases with
  | zero =>
    simp only [visitorIndex_zero] at h
    split at h
    · cases h
    · rename_i hc
      simp only [Bool.not_eq_true, ne_eq, not_or, Bool.not_eq_false, not_not] at hc
      cases h
      refine ⟨⟨room.owner, ?_, hc.2⟩, participant_withOwner room _ false, ⟨rfl, rfl⟩, fun _ _ => rfl⟩
      rw [participant_zero, hc.1]
      rfl
  | succ index =>
    simp only [visitorIndex_succ] at h
    split at h
    · rename_i hc
      cases h
      obtain ⟨participant, hp, hu⟩ := (Option.any_eq_true _ _).1 hc
      refine ⟨⟨participant, ?_, of_decide_eq_true hu⟩, participant_update room index _, ⟨rfl, rfl⟩, fun hp => hp⟩
      rw [participant_succ, hp]
    · cases h

/-- The one who stands in a slot can be removed from it. -/
theorem removeParticipant_isOk {room : MyRoomState U} {slot : MyRoomSlotIndex} {participant : MyRoomParticipant U}
    (h : room.participant slot = some participant) :
    ∃ room', room.removeParticipant slot participant.identity.userNo = .ok room' := by
  unfold removeParticipant
  cases slot using Fin.cases with
  | zero =>
    rw [participant_zero] at h
    split at h
    · rename_i hpresent
      cases h
      exact ⟨_, by simp only [visitorIndex_zero, hpresent, not_true_eq_false, ne_eq, or_self, if_false]; rfl⟩
    · cases h
  | succ index =>
    rw [participant_succ] at h
    exact ⟨_, by simp only [visitorIndex_succ, h, Option.any_some, decide_true, if_true]; rfl⟩

/-- Replacing a participant puts another one of the same user in its slot. -/
theorem replaceParticipant_eq_ok {room room' : MyRoomState U} {slot : MyRoomSlotIndex} {participant : MyRoomParticipant U}
    (h : room.replaceParticipant slot participant = .ok room') :
    room'.participant = update room.participant slot (some participant) ∧
      room'.owner.identity = (if slot = 0 then participant.identity else room.owner.identity) ∧
      room'.info = room.info ∧ (PortOk room → PortOk room') := by
  unfold replaceParticipant at h
  cases slot using Fin.cases with
  | zero =>
    simp only [visitorIndex_zero] at h
    split at h
    · cases h
    · rename_i hc
      simp only [Bool.not_eq_true, ne_eq, not_or, Bool.not_eq_false, not_not] at hc
      cases h
      refine ⟨?_, rfl, rfl, fun _ hp => ?_⟩
      · rw [participant_withOwner room participant room.ownerPresent, hc.1]
        rfl
      · rw [hc.1] at hp
        cases hp
  | succ index =>
    simp only [visitorIndex_succ] at h
    split at h
    · cases h
      exact ⟨participant_update room index _, by rw [if_neg (Fin.succ_ne_zero index)], rfl, fun hp => hp⟩
    · cases h

/-- The one who stands in a slot can be replaced by another one of the same user, in slot zero when that is the owner. -/
theorem replaceParticipant_isOk {room : MyRoomState U} {slot : MyRoomSlotIndex} {current : MyRoomParticipant U}
    (participant : MyRoomParticipant U) (h : room.participant slot = some current) (hu : current.identity.userNo = participant.identity.userNo) :
    ∃ room', room.replaceParticipant slot participant = .ok room' := by
  unfold replaceParticipant
  cases slot using Fin.cases with
  | zero =>
    rw [participant_zero] at h
    split at h
    · rename_i hpresent
      cases h
      exact ⟨_, by simp only [visitorIndex_zero, hpresent, not_true_eq_false, ne_eq, hu, or_self, if_false]; rfl⟩
    · cases h
  | succ index =>
    rw [participant_succ] at h
    exact ⟨_, by simp only [visitorIndex_succ, h, Option.any_some, hu, decide_true, if_true]; rfl⟩

/-- Replacing the presentation of the owner changes its slot only when it is present. -/
theorem replaceOwnerPresentation_eq_ok {room room' : MyRoomState U} {participant : MyRoomParticipant U}
    (h : room.replaceOwnerPresentation participant = .ok room') :
    room'.participant = update room.participant 0 (if room.ownerPresent then some participant else none) ∧
      room'.owner.identity = participant.identity ∧ room'.info = room.info ∧ PortOk room' := by
  unfold replaceOwnerPresentation at h
  split at h
  · cases h
  · cases h
    cases hp : room.ownerPresent with
    | true =>
      refine ⟨?_, rfl, rfl, fun hc => ?_⟩
      · have heq := participant_withOwner room participant room.ownerPresent
        rwa [hp] at heq
      · exact absurd hc (by simp)
    | false =>
      refine ⟨?_, rfl, rfl, fun _ => rfl⟩
      have heq := participant_withOwner room (participant.withPort 0) room.ownerPresent
      rwa [hp] at heq

/-- The presentation of the owner can be replaced by another one of the same user. -/
theorem replaceOwnerPresentation_isOk (room : MyRoomState U) (participant : MyRoomParticipant U)
    (hu : participant.identity.userNo = room.owner.identity.userNo) :
    ∃ room', room.replaceOwnerPresentation participant = .ok room' :=
  ⟨_, by unfold replaceOwnerPresentation; rw [if_neg (not_not.2 hu)]⟩

/-! ## Slots for new members -/

/-- The owner is given slot zero, and nobody else is. -/
theorem nextSlotFor_eq_zero {room : MyRoomState U} {userNo : UserNo} {slot : MyRoomSlotIndex}
    (h : room.nextSlotFor userNo = some slot) : slot = 0 ↔ userNo = room.owner.identity.userNo := by
  unfold nextSlotFor at h
  split at h
  · rename_i hu
    cases h
    exact iff_of_true rfl hu
  · rename_i hu
    obtain ⟨index, -, rfl⟩ := Option.map_eq_some_iff.1 h
    exact iff_of_false (Fin.succ_ne_zero index) hu

/-- A visitor is given a free slot. -/
theorem nextSlotFor_free {room : MyRoomState U} {userNo : UserNo} {slot : MyRoomSlotIndex}
    (h : room.nextSlotFor userNo = some slot) (hu : userNo ≠ room.owner.identity.userNo) : room.participant slot = none := by
  unfold nextSlotFor at h
  rw [if_neg hu] at h
  obtain ⟨index, hi, rfl⟩ := Option.map_eq_some_iff.1 h
  have hnone := find?_some hi
  rw [participant_succ]
  exact Option.isNone_iff_eq_none.1 hnone

/-- A member can be added in a free slot, to slot zero with the identity of the owner. -/
theorem addMember_isOk {room : MyRoomState U} {slot : MyRoomSlotIndex} {participant : MyRoomParticipant U}
    (hfree : room.participant slot = none) (howner : slot = 0 → participant.identity = room.owner.identity) :
    ∃ room', room.addMember slot participant = .ok room' := by
  unfold addMember
  cases slot using Fin.cases with
  | zero =>
    exact ⟨_, by simp only [visitorIndex_zero, ne_eq, howner rfl, not_true_eq_false, if_false]; rfl⟩
  | succ index =>
    rw [participant_succ] at hfree
    exact ⟨_, by simp only [visitorIndex_succ, hfree, Option.isSome_none, Bool.false_eq_true, if_false]; rfl⟩

/-! ## Sound rooms -/

/-- The room is the room of its owner, an absent owner shows no port, the information is valid, and the owner stands in no slot
but its own. -/
structure Sound (key : UserNo) (room : MyRoomState U) : Prop where
  owner : room.owner.identity.userNo = key
  port : PortOk room
  info : validateMyroomInfo room.info = .ok ()
  ownSlot : ∀ slot participant, room.participant slot = some participant → participant.identity.userNo = key → slot = 0

/-- In slot zero of a sound room stands its owner, if anyone. -/
theorem Sound.of_zero {key : UserNo} {room : MyRoomState U} (h : Sound key room) {participant : MyRoomParticipant U}
    (hp : room.participant 0 = some participant) : participant.identity.userNo = key := by
  rw [participant_zero] at hp
  split at hp
  · cases hp
    exact h.owner
  · cases hp

/-- A room without its owner yet is sound. -/
theorem sound_new (owner : MyRoomOwner U) (infoRevision : Nat) : Sound owner.key (.new owner infoRevision) where
  owner := rfl
  port := fun _ => rfl
  info := owner.valid
  ownSlot := by
    intro slot participant hp
    cases slot using Fin.cases with
    | zero => cases hp
    | succ index =>
      rw [participant_succ] at hp
      cases hp

/-- A new room has nobody in it. -/
theorem participant_new (owner : MyRoomOwner U) (infoRevision : Nat) (slot : MyRoomSlotIndex) :
    (MyRoomState.new owner infoRevision).participant slot = none := by
  cases slot using Fin.cases with
  | zero => rfl
  | succ index => rw [participant_succ]; rfl

end MyRoomState

end P5136
