import P5136.MyRoom.Hub
import P5136.MyRoom.Slots

/-!
# Who has which role

The rooms, the memberships and the canonical bindings as functions. Memberships are the inverse of the slots, every owner and
every participant stands under its canonical binding, and a binding is kept exactly for the users with a role. Three kinds of
changes keep this: roles are given up, a user gets a slot, and a user gets another binding or presentation.
-/

namespace P5136

namespace MyRoomHub

open MyRoomState

variable {U : Unicode}

/-- In the room of this owner, this participant stands in this slot. -/
def Stands (rooms : UserNo → Option (MyRoomState U)) (owner : UserNo) (slot : MyRoomSlotIndex)
    (participant : MyRoomParticipant U) : Prop :=
  ∃ room, rooms owner = some room ∧ room.participant slot = some participant

/-- Every room is sound and has someone in it, and the memberships are the inverse of the slots. -/
structure Roles (rooms : UserNo → Option (MyRoomState U)) (memberships : UserNo → Option MyRoomMembership) : Prop where
  sound : ∀ owner room, rooms owner = some room → MyRoomState.Sound owner room
  occupied : ∀ owner room, rooms owner = some room → room.mappedCount ≠ 0
  inverse : ∀ userNo owner slot, memberships userNo = some ⟨owner, slot⟩ ↔
    ∃ participant, Stands rooms owner slot participant ∧ participant.identity.userNo = userNo

/-- Owners and participants stand under their canonical bindings. -/
structure Canonical (rooms : UserNo → Option (MyRoomState U)) (generations : UserNo → Option IdentityBinding) : Prop where
  owners : ∀ owner room, rooms owner = some room → generations owner = some room.owner.identity
  members : ∀ owner slot participant, Stands rooms owner slot participant →
    generations participant.identity.userNo = some participant.identity

/-- The user owns a room or has a slot in one. -/
def Referenced (rooms : UserNo → Option (MyRoomState U)) (memberships : UserNo → Option MyRoomMembership) (userNo : UserNo) :
    Prop :=
  (memberships userNo).isSome ∨ (rooms userNo).isSome

variable {rooms rooms' rooms'' : UserNo → Option (MyRoomState U)}
  {memberships memberships' memberships'' : UserNo → Option MyRoomMembership}
  {generations generations' : UserNo → Option IdentityBinding}

/-- Nobody stands in two places. -/
theorem Roles.stands_unique (h : Roles rooms memberships) {owner owner' : UserNo} {slot slot' : MyRoomSlotIndex}
    {participant participant' : MyRoomParticipant U} (hp : Stands rooms owner slot participant)
    (hp' : Stands rooms owner' slot' participant') (hu : participant.identity.userNo = participant'.identity.userNo) :
    owner = owner' ∧ slot = slot' := by
  have h1 := (h.inverse participant.identity.userNo owner slot).2 ⟨participant, hp, rfl⟩
  have h2 := (h.inverse participant.identity.userNo owner' slot').2 ⟨participant', hp', hu.symm⟩
  rw [h1] at h2
  cases h2
  exact ⟨rfl, rfl⟩

/-- Who stands somewhere is a member. -/
theorem Roles.member (h : Roles rooms memberships) {owner : UserNo} {slot : MyRoomSlotIndex}
    {participant : MyRoomParticipant U} (hp : Stands rooms owner slot participant) :
    memberships participant.identity.userNo = some ⟨owner, slot⟩ :=
  (h.inverse _ owner slot).2 ⟨participant, hp, rfl⟩

/-- The canonical binding of a user with a role is one of that user. -/
theorem Canonical.userNo (hr : Roles rooms memberships) (hc : Canonical rooms generations) {userNo : UserNo}
    {identity : IdentityBinding} (href : Referenced rooms memberships userNo) (hid : generations userNo = some identity) :
    identity.userNo = userNo := by
  rcases href with href | href
  · obtain ⟨⟨owner, slot⟩, hm⟩ := Option.isSome_iff_exists.1 href
    obtain ⟨participant, hp, rfl⟩ := (hr.inverse _ _ _).1 hm
    have := hc.members owner slot participant hp
    rw [hid] at this
    cases this
    rfl
  · obtain ⟨room, hroom⟩ := Option.isSome_iff_exists.1 href
    have := hc.owners _ _ hroom
    rw [hid] at this
    cases this
    exact (hr.sound _ _ hroom).owner

/-- Bindings that agree for the users with a role are as canonical. -/
theorem Canonical.congr (hr : Roles rooms memberships) (hc : Canonical rooms generations)
    (hg : ∀ userNo, Referenced rooms memberships userNo → generations' userNo = generations userNo) :
    Canonical rooms generations' where
  owners := by
    intro owner room hroom
    rw [hg owner (.inr (by rw [hroom]; rfl))]
    exact hc.owners owner room hroom
  members := by
    intro owner slot participant hp
    rw [hg _ (.inl (by rw [hr.member hp]; rfl))]
    exact hc.members owner slot participant hp

/-! ## Giving up roles -/

/-- Some users lose their slots, and some rooms close; the others keep what they have. -/
structure Shrinks (rooms : UserNo → Option (MyRoomState U)) (memberships : UserNo → Option MyRoomMembership)
    (rooms' : UserNo → Option (MyRoomState U)) (memberships' : UserNo → Option MyRoomMembership) : Prop where
  sound : ∀ owner room', rooms' owner = some room' → MyRoomState.Sound owner room'
  occupied : ∀ owner room', rooms' owner = some room' → room'.mappedCount ≠ 0
  owners : ∀ owner room', rooms' owner = some room' →
    ∃ room, rooms owner = some room ∧ room'.owner.identity = room.owner.identity
  members : ∀ userNo membership, memberships' userNo = some membership → memberships userNo = some membership
  stands : ∀ owner slot participant, Stands rooms' owner slot participant ↔
    Stands rooms owner slot participant ∧ (memberships' participant.identity.userNo).isSome

/-- Giving up nothing. -/
theorem Shrinks.refl (h : Roles rooms memberships) : Shrinks rooms memberships rooms memberships where
  sound := h.sound
  occupied := h.occupied
  owners := fun _ room hroom => ⟨room, hroom, rfl⟩
  members := fun _ _ hm => hm
  stands := fun _ _ _ => ⟨fun hp => ⟨hp, by rw [h.member hp]; rfl⟩, fun hp => hp.1⟩

/-- Giving up more roles after some. -/
theorem Shrinks.trans (h : Shrinks rooms memberships rooms' memberships')
    (h' : Shrinks rooms' memberships' rooms'' memberships'') : Shrinks rooms memberships rooms'' memberships'' where
  sound := h'.sound
  occupied := h'.occupied
  owners := by
    intro owner room'' hroom''
    obtain ⟨room', hroom', hid'⟩ := h'.owners owner room'' hroom''
    obtain ⟨room, hroom, hid⟩ := h.owners owner room' hroom'
    exact ⟨room, hroom, hid'.trans hid⟩
  members := fun userNo membership hm => h.members userNo membership (h'.members userNo membership hm)
  stands := by
    intro owner slot participant
    rw [h'.stands, h.stands, and_assoc]
    refine and_congr_right fun _ => ⟨fun hp => hp.2, fun hp => ⟨?_, hp⟩⟩
    obtain ⟨membership, hm⟩ := Option.isSome_iff_exists.1 hp
    rw [h'.members _ _ hm]
    rfl

/-- The roles that are left are as they should be. -/
theorem Shrinks.roles (h : Shrinks rooms memberships rooms' memberships') (hr : Roles rooms memberships) :
    Roles rooms' memberships' where
  sound := h.sound
  occupied := h.occupied
  inverse := by
    intro userNo owner slot
    constructor
    · intro hm
      obtain ⟨participant, hp, rfl⟩ := (hr.inverse userNo owner slot).1 (h.members _ _ hm)
      exact ⟨participant, (h.stands owner slot participant).2 ⟨hp, by rw [hm]; rfl⟩, rfl⟩
    · rintro ⟨participant, hp, rfl⟩
      obtain ⟨hp, hsome⟩ := (h.stands owner slot participant).1 hp
      obtain ⟨membership, hm⟩ := Option.isSome_iff_exists.1 hsome
      have := h.members _ _ hm
      rw [hr.member hp] at this
      cases this
      exact hm

/-- The bindings stay canonical. -/
theorem Shrinks.canonical (h : Shrinks rooms memberships rooms' memberships') (hc : Canonical rooms generations) :
    Canonical rooms' generations where
  owners := by
    intro owner room' hroom'
    obtain ⟨room, hroom, hid⟩ := h.owners owner room' hroom'
    rw [hid]
    exact hc.owners owner room hroom
  members := fun owner slot participant hp => hc.members owner slot participant ((h.stands owner slot participant).1 hp).1

/-- A member leaves its slot, and the room is gone when it was the last one. -/
theorem Roles.vacate (hr : Roles rooms memberships) {userNo owner : UserNo} {slot : MyRoomSlotIndex} {room room' : MyRoomState U}
    (hm : memberships userNo = some ⟨owner, slot⟩) (hroom : rooms owner = some room)
    (hremove : room.removeParticipant slot userNo = .ok room') (hrooms' : ∀ key, rooms' key =
      if key = owner then if room'.mappedCount = 0 then none else some room' else rooms key)
    (hmemberships' : ∀ key, memberships' key = if key = userNo then none else memberships key) :
    Shrinks rooms memberships rooms' memberships' := by
  obtain ⟨⟨leaver, hleaver, hu⟩, hslots, ⟨hid, hinfo⟩, hport⟩ := removeParticipant_eq_ok hremove
  have hstands : Stands rooms owner slot leaver := ⟨room, hroom, hleaver⟩
  have hsound := hr.sound owner room hroom
  -- a room that is there afterwards is the changed one, or was there before
  have hcases : ∀ key other, rooms' key = some other →
      (key = owner ∧ other = room' ∧ room'.mappedCount ≠ 0) ∨ (key ≠ owner ∧ rooms key = some other) := by
    intro key other hother
    rw [hrooms'] at hother
    by_cases hk : key = owner
    · rw [if_pos hk] at hother
      split at hother
      · cases hother
      · rename_i hcount
        cases hother
        exact .inl ⟨hk, rfl, hcount⟩
    · rw [if_neg hk] at hother
      exact .inr ⟨hk, hother⟩
  refine ⟨?_, ?_, ?_, ?_, ?_⟩
  · intro key other hother
    rcases hcases key other hother with ⟨rfl, rfl, -⟩ | ⟨-, hold⟩
    · refine ⟨by rw [hid]; exact hsound.owner, hport hsound.port, by rw [hinfo]; exact hsound.info, ?_⟩
      intro slot' participant hp
      rw [hslots, Function.update_apply] at hp
      split at hp
      · cases hp
      · exact hsound.ownSlot slot' participant hp
    · exact hr.sound key other hold
  · intro key other hother
    rcases hcases key other hother with ⟨-, rfl, hcount⟩ | ⟨-, hold⟩
    · exact hcount
    · exact hr.occupied key other hold
  · intro key other hother
    rcases hcases key other hother with ⟨rfl, rfl, -⟩ | ⟨-, hold⟩
    · exact ⟨room, hroom, hid⟩
    · exact ⟨other, hold, rfl⟩
  · intro key membership hkey
    rw [hmemberships'] at hkey
    split at hkey
    · cases hkey
    · exact hkey
  · intro key slot' participant
    rw [hmemberships']
    constructor
    · rintro ⟨other, hother, hp⟩
      rcases hcases key other hother with ⟨rfl, rfl, -⟩ | ⟨hne, hold⟩
      · rw [hslots, Function.update_apply] at hp
        split at hp
        · cases hp
        · rename_i hslot
          have hp' : Stands rooms key slot' participant := ⟨room, hroom, hp⟩
          refine ⟨hp', ?_⟩
          rw [if_neg, hr.member hp']
          · rfl
          · exact fun hc => hslot (hr.stands_unique hp' hstands (hc.trans hu.symm)).2
      · have hp' : Stands rooms key slot' participant := ⟨other, hold, hp⟩
        refine ⟨hp', ?_⟩
        rw [if_neg, hr.member hp']
        · rfl
        · exact fun hc => hne (hr.stands_unique hp' hstands (hc.trans hu.symm)).1
    · rintro ⟨⟨other, hold, hp⟩, hsome⟩
      have hne : participant.identity.userNo ≠ userNo := by
        intro hc
        rw [if_pos hc] at hsome
        cases hsome
      by_cases hk : key = owner
      · subst hk
        rw [hroom] at hold
        cases hold
        have hslot : slot' ≠ slot := by
          rintro rfl
          rw [hleaver] at hp
          cases hp
          exact hne hu
        have hp' : room'.participant slot' = some participant := by rw [hslots, Function.update_of_ne hslot, hp]
        refine ⟨room', ?_, hp'⟩
        rw [hrooms', if_pos rfl, if_neg (mappedCount_ne_zero hp')]
      · exact ⟨other, by rw [hrooms', if_neg hk, hold], hp⟩

/-- A room closes, and everyone in it loses the slot. -/
theorem Roles.close (hr : Roles rooms memberships) (owner : UserNo)
    (hrooms' : ∀ key, rooms' key = if key = owner then none else rooms key)
    (hmemberships' : ∀ key membership, memberships' key = some membership ↔
      memberships key = some membership ∧ membership.owner ≠ owner) :
    Shrinks rooms memberships rooms' memberships' := by
  have hkeep : ∀ key other, rooms' key = some other → key ≠ owner ∧ rooms key = some other := by
    intro key other hother
    rw [hrooms'] at hother
    split at hother
    · cases hother
    · rename_i hk
      exact ⟨hk, hother⟩
  refine ⟨?_, ?_, ?_, ?_, ?_⟩
  · exact fun key other hother => hr.sound key other (hkeep key other hother).2
  · exact fun key other hother => hr.occupied key other (hkeep key other hother).2
  · exact fun key other hother => ⟨other, (hkeep key other hother).2, rfl⟩
  · exact fun key membership hm => ((hmemberships' key membership).1 hm).1
  · intro key slot participant
    constructor
    · rintro ⟨other, hother, hp⟩
      obtain ⟨hk, hold⟩ := hkeep key other hother
      have hp' : Stands rooms key slot participant := ⟨other, hold, hp⟩
      refine ⟨hp', ?_⟩
      rw [(hmemberships' _ _).2 ⟨hr.member hp', hk⟩]
      rfl
    · rintro ⟨⟨other, hold, hp⟩, hsome⟩
      obtain ⟨membership, hm⟩ := Option.isSome_iff_exists.1 hsome
      obtain ⟨hm, hne⟩ := (hmemberships' _ _).1 hm
      rw [hr.member ⟨other, hold, hp⟩] at hm
      cases hm
      exact ⟨other, by rw [hrooms', if_neg hne, hold], hp⟩

/-! ## Getting a slot -/

section Enter

variable {key : UserNo} {slot : MyRoomSlotIndex} {participant : MyRoomParticipant U} {room room' : MyRoomState U}

/-- What it takes to put a new member in a slot of a room, which may be a new one. -/
structure Enters (rooms : UserNo → Option (MyRoomState U)) (memberships : UserNo → Option MyRoomMembership) (key : UserNo)
    (slot : MyRoomSlotIndex) (participant : MyRoomParticipant U) (room room' : MyRoomState U) : Prop where
  outside : memberships participant.identity.userNo = none
  same : ∀ other, rooms key = some other → other = room
  fresh : rooms key = none → ∀ slot, room.participant slot = none
  sound : MyRoomState.Sound key room
  free : room.participant slot = none
  ownSlot : slot = 0 ↔ participant.identity.userNo = key
  added : room.addMember slot participant = .ok room'

/-- Who stands where afterwards: the new member, and who stood somewhere before. -/
theorem Enters.stands (h : Enters rooms memberships key slot participant room room')
    (hrooms' : ∀ owner, rooms' owner = if owner = key then some room' else rooms owner) :
    ∃ added : MyRoomParticipant U, added.identity = participant.identity ∧ ∀ owner slot' other,
      Stands rooms' owner slot' other ↔ (owner = key ∧ slot' = slot ∧ other = added) ∨ Stands rooms owner slot' other := by
  obtain ⟨⟨added, hid, hslots⟩, -, -⟩ := addMember_eq_ok h.added
  refine ⟨added, hid, fun owner slot' other => ⟨?_, ?_⟩⟩
  · rintro ⟨there, hthere, hp⟩
    rw [hrooms'] at hthere
    by_cases hk : owner = key
    · rw [if_pos hk] at hthere
      cases hthere
      rw [hslots, Function.update_apply] at hp
      split at hp
      · rename_i hs
        cases hp
        exact .inl ⟨hk, hs, rfl⟩
      · -- an old participant of the room: the room is not a new one
        cases hold : rooms key with
        | none =>
          rw [h.fresh hold] at hp
          cases hp
        | some before => exact .inr ⟨before, by rw [hk, hold], by rw [h.same before hold, hp]⟩
    · rw [if_neg hk] at hthere
      exact .inr ⟨there, hthere, hp⟩
  · rintro (⟨rfl, rfl, rfl⟩ | ⟨there, hthere, hp⟩)
    · exact ⟨room', by rw [hrooms', if_pos rfl], by rw [hslots, Function.update_self]⟩
    · by_cases hk : owner = key
      · subst hk
        have hroom := h.same there hthere
        subst hroom
        have hne : slot' ≠ slot := by
          rintro rfl
          rw [h.free] at hp
          cases hp
        exact ⟨room', by rw [hrooms', if_pos rfl], by rw [hslots, Function.update_of_ne hne, hp]⟩
      · exact ⟨there, by rw [hrooms', if_neg hk, hthere], hp⟩

/-- The room is sound with the new member. -/
theorem Enters.sound' (h : Enters rooms memberships key slot participant room room') : MyRoomState.Sound key room' := by
  obtain ⟨⟨added, hid, hslots⟩, ⟨howner, hinfo⟩, hport⟩ := addMember_eq_ok h.added
  refine ⟨by rw [howner]; exact h.sound.owner, hport h.sound.port, by rw [hinfo]; exact h.sound.info, ?_⟩
  intro slot' other hp hu
  rw [hslots, Function.update_apply] at hp
  split at hp
  · rename_i hs
    cases hp
    rw [hs]
    exact h.ownSlot.2 (by rw [← hid, hu])
  · exact h.sound.ownSlot slot' other hp hu

/-- The roles with the new member are as they should be. -/
theorem Enters.roles (h : Enters rooms memberships key slot participant room room') (hr : Roles rooms memberships)
    (hrooms' : ∀ owner, rooms' owner = if owner = key then some room' else rooms owner)
    (hmemberships' : ∀ userNo, memberships' userNo =
      if userNo = participant.identity.userNo then some ⟨key, slot⟩ else memberships userNo) : Roles rooms' memberships' := by
  obtain ⟨added, hid, hstands⟩ := h.stands hrooms'
  refine ⟨?_, ?_, ?_⟩
  · intro owner other hother
    rw [hrooms'] at hother
    split at hother
    · rename_i hk
      cases hother
      rw [hk]
      exact h.sound'
    · exact hr.sound owner other hother
  · intro owner other hother
    rw [hrooms'] at hother
    split at hother
    · cases hother
      obtain ⟨there, hthere, hp⟩ := (hstands key slot added).2 (.inl ⟨rfl, rfl, rfl⟩)
      rw [hrooms', if_pos rfl] at hthere
      cases hthere
      exact mappedCount_ne_zero hp
    · exact hr.occupied owner other hother
  · intro userNo owner slot'
    rw [hmemberships']
    by_cases hu : userNo = participant.identity.userNo
    · rw [if_pos hu]
      constructor
      · rintro ⟨⟩
        exact ⟨added, (hstands _ _ _).2 (.inl ⟨rfl, rfl, rfl⟩), by rw [hid, hu]⟩
      · rintro ⟨other, hp, hother⟩
        rcases (hstands _ _ _).1 hp with ⟨rfl, rfl, -⟩ | hold
        · rfl
        · have hm := hr.member hold
          rw [hother, hu, h.outside] at hm
          cases hm
    · rw [if_neg hu, hr.inverse]
      refine exists_congr fun other => and_congr_left fun hother => ?_
      rw [hstands]
      refine ⟨.inr, ?_⟩
      rintro (⟨-, -, rfl⟩ | hold)
      · exact absurd (hother.symm.trans (congrArg _ hid)) hu
      · exact hold

/-- The bindings stay canonical when those of the new member and of the owner of its room are recorded. -/
theorem Enters.canonical (h : Enters rooms memberships key slot participant room room') (hc : Canonical rooms generations)
    (hrooms' : ∀ owner, rooms' owner = if owner = key then some room' else rooms owner)
    (hmember : generations' participant.identity.userNo = some participant.identity)
    (howner : generations' key = some room.owner.identity)
    (hold : ∀ userNo identity, generations userNo = some identity → generations' userNo = some identity) :
    Canonical rooms' generations' := by
  obtain ⟨added, hid, hstands⟩ := h.stands hrooms'
  refine ⟨?_, ?_⟩
  · intro owner other hother
    rw [hrooms'] at hother
    split at hother
    · rename_i hk
      cases hother
      obtain ⟨-, ⟨hsame, -⟩, -⟩ := addMember_eq_ok h.added
      rw [hk, hsame, howner]
    · exact hold _ _ (hc.owners owner other hother)
  · intro owner slot' other hp
    rcases (hstands _ _ _).1 hp with ⟨-, -, rfl⟩ | hp
    · rw [hid, hmember]
    · exact hold _ _ (hc.members owner slot' other hp)

end Enter

/-! ## Another binding or presentation of a user -/

/-- The binding of a user in place of another one of the same user. -/
def advanced (identity current : IdentityBinding) : IdentityBinding :=
  if current.userNo = identity.userNo then identity else current

@[simp] theorem advanced_userNo (identity current : IdentityBinding) :
    (advanced identity current).userNo = current.userNo := by
  unfold advanced
  split
  · rename_i h
    exact h.symm
  · rfl

/-- In a room, a user stands under this binding, and nothing else of who stands where changes. -/
structure Replaced (identity : IdentityBinding) (room room' : MyRoomState U) : Prop where
  owner : room'.owner.identity = advanced identity room.owner.identity
  slots : ∀ slot, (room'.participant slot).map (·.identity) =
    (room.participant slot).map (fun participant => advanced identity participant.identity)
  port : PortOk room → PortOk room'
  info : validateMyroomInfo room.info = .ok () → validateMyroomInfo room'.info = .ok ()

/-- In every room, a user stands under this binding. -/
def Advances (identity : IdentityBinding) (rooms rooms' : UserNo → Option (MyRoomState U)) : Prop :=
  ∀ owner, (rooms owner = none ∧ rooms' owner = none) ∨
    ∃ room room', rooms owner = some room ∧ rooms' owner = some room' ∧ Replaced identity room room'

/-- Whoever stands somewhere afterwards is who stood there before, under the new binding if it is that user. -/
theorem Advances.stands {identity : IdentityBinding} (h : Advances identity rooms rooms') {owner : UserNo}
    {slot : MyRoomSlotIndex} :
    (∀ participant', Stands rooms' owner slot participant' →
      ∃ participant, Stands rooms owner slot participant ∧ participant'.identity = advanced identity participant.identity) ∧
    (∀ participant, Stands rooms owner slot participant →
      ∃ participant', Stands rooms' owner slot participant' ∧
        participant'.identity = advanced identity participant.identity) := by
  rcases h owner with ⟨hnone, hnone'⟩ | ⟨room, room', hroom, hroom', hreplaced⟩
  · constructor
    · rintro participant' ⟨there, hthere, -⟩
      rw [hnone'] at hthere
      cases hthere
    · rintro participant ⟨there, hthere, -⟩
      rw [hnone] at hthere
      cases hthere
  · have hslot := hreplaced.slots slot
    constructor
    · rintro participant' ⟨there, hthere, hp'⟩
      rw [hroom'] at hthere
      cases hthere
      rw [hp'] at hslot
      obtain ⟨participant, hp, hid⟩ := Option.map_eq_some_iff.1 hslot.symm
      exact ⟨participant, ⟨room, hroom, hp⟩, hid.symm⟩
    · rintro participant ⟨there, hthere, hp⟩
      rw [hroom] at hthere
      cases hthere
      rw [hp] at hslot
      obtain ⟨participant', hp', hid⟩ := Option.map_eq_some_iff.1 hslot
      exact ⟨participant', ⟨room', hroom', hp'⟩, hid⟩

/-- The same rooms are there. -/
theorem Advances.isSome {identity : IdentityBinding} (h : Advances identity rooms rooms') (owner : UserNo) :
    (rooms' owner).isSome = (rooms owner).isSome := by
  rcases h owner with ⟨hnone, hnone'⟩ | ⟨room, room', hroom, hroom', -⟩
  · rw [hnone, hnone']
  · rw [hroom, hroom']
    rfl

/-- The roles stay as they should be. -/
theorem Advances.roles {identity : IdentityBinding} (h : Advances identity rooms rooms') (hr : Roles rooms memberships) :
    Roles rooms' memberships := by
  refine ⟨?_, ?_, ?_⟩
  · intro owner other hother
    rcases h owner with ⟨-, hnone'⟩ | ⟨room, room', hroom, hroom', hreplaced⟩
    · rw [hnone'] at hother
      cases hother
    · rw [hroom'] at hother
      cases hother
      have hsound := hr.sound owner room hroom
      refine ⟨by rw [hreplaced.owner, advanced_userNo, hsound.owner], hreplaced.port hsound.port,
        hreplaced.info hsound.info, ?_⟩
      intro slot participant' hp' hu
      obtain ⟨participant, ⟨there, hthere, hp⟩, hid⟩ := h.stands.1 participant' ⟨_, hroom', hp'⟩
      rw [hroom] at hthere
      cases hthere
      exact hsound.ownSlot slot participant hp (by rw [← hu, hid, advanced_userNo])
  · intro owner other hother hcount
    rcases h owner with ⟨-, hnone'⟩ | ⟨room, room', hroom, hroom', hreplaced⟩
    · rw [hnone'] at hother
      cases hother
    · rw [hroom'] at hother
      cases hother
      refine hr.occupied owner room hroom (mappedCount_eq_zero.2 fun slot => ?_)
      have hslot := hreplaced.slots slot
      rw [mappedCount_eq_zero.1 hcount slot] at hslot
      exact Option.map_eq_none_iff.1 hslot.symm
  · intro userNo owner slot
    rw [hr.inverse]
    constructor
    · rintro ⟨participant, hp, rfl⟩
      obtain ⟨participant', hp', hid⟩ := h.stands.2 participant hp
      exact ⟨participant', hp', by rw [hid, advanced_userNo]⟩
    · rintro ⟨participant', hp', rfl⟩
      obtain ⟨participant, hp, hid⟩ := h.stands.1 participant' hp'
      exact ⟨participant, hp, by rw [hid, advanced_userNo]⟩

/-- The bindings are canonical with that of the user recorded. -/
theorem Advances.canonical {identity : IdentityBinding} (h : Advances identity rooms rooms') (hr : Roles rooms memberships)
    (hc : Canonical rooms generations) (hg : ∀ userNo, generations' userNo =
      if userNo = identity.userNo then some identity else generations userNo) : Canonical rooms' generations' := by
  refine ⟨?_, ?_⟩
  · intro owner other hother
    rcases h owner with ⟨-, hnone'⟩ | ⟨room, room', hroom, hroom', hreplaced⟩
    · rw [hnone'] at hother
      cases hother
    · rw [hroom'] at hother
      cases hother
      have howner := (hr.sound owner room hroom).owner
      rw [hg, hreplaced.owner, advanced, howner]
      split
      · rfl
      · exact hc.owners owner room hroom
  · intro owner slot participant' hp'
    obtain ⟨participant, hp, hid⟩ := h.stands.1 participant' hp'
    rw [hg, hid, advanced_userNo, advanced]
    split
    · rfl
    · exact hc.members owner slot participant hp

end MyRoomHub

end P5136
