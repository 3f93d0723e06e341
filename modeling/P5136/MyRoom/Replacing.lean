import P5136.MyRoom.Entering

/-!
# Other presentations and bindings

A refresh gives a user another presentation wherever it stands, and an advance gives it another binding as well: in the slot it
has, and in the room it owns when that is another one. Who stands where stays as it is.
-/

namespace P5136

namespace MyRoomHub

open Checks MyRoomState Option Avoids

open MyRoomHubError (Internal)

variable {U : Unicode} {hub : MyRoomHub U} {α : Type}

/-! ## Rooms in which nothing changes -/

/-- A room in which every owner and participant of the user has this binding already. -/
theorem replaced_refl {identity : IdentityBinding} {room : MyRoomState U}
    (howner : room.owner.identity.userNo = identity.userNo → room.owner.identity = identity)
    (hslots : ∀ slot participant, room.participant slot = some participant →
      participant.identity.userNo = identity.userNo → participant.identity = identity) : Replaced identity room room := by
  have hsame : ∀ current : IdentityBinding, (current.userNo = identity.userNo → current = identity) →
      advanced identity current = current := by
    intro current hc
    unfold advanced
    split
    · rename_i hu
      exact (hc hu).symm
    · rfl
  refine ⟨(hsame _ howner).symm, fun slot => ?_, fun hp => hp, fun hi => hi⟩
  cases hp : room.participant slot with
  | none => rfl
  | some participant => rw [map_some, map_some, hsame _ (hslots slot participant hp)]

/-- A room under a binding that is canonical already. -/
theorem replaced_of_canonical (h : hub.Inv) {identity : IdentityBinding}
    (hid : hub.generations.lookup identity.userNo = some identity) {key : UserNo} {room : MyRoomState U}
    (hroom : hub.rooms.lookup key = some room) : Replaced identity room room := by
  refine replaced_refl (fun hu => ?_) fun slot participant hp hu => ?_
  · have hcanonical : hub.generations.lookup identity.userNo = some room.owner.identity := by
      rw [← hu, (h.roles.sound _ _ hroom).owner]
      exact h.canonical.owners _ _ hroom
    exact some.inj (hcanonical.symm.trans hid)
  · have hcanonical : hub.generations.lookup identity.userNo = some participant.identity := by
      rw [← hu]
      exact h.canonical.members key slot participant ⟨room, hroom, hp⟩
    exact some.inj (hcanonical.symm.trans hid)

/-- A room that the user neither owns nor has a slot in. -/
theorem replaced_of_elsewhere (h : hub.Inv) {identity : IdentityBinding} {key : UserNo} {room : MyRoomState U}
    (hroom : hub.rooms.lookup key = some room) (hkey : key ≠ identity.userNo)
    (hm : ∀ slot, hub.memberships.lookup identity.userNo ≠ some ⟨key, slot⟩) : Replaced identity room room := by
  refine replaced_refl (fun hu => ?_) fun slot participant hp hu => ?_
  · rw [(h.roles.sound _ _ hroom).owner] at hu
    exact absurd hu hkey
  · have : hub.memberships.lookup participant.identity.userNo = some ⟨key, slot⟩ := h.roles.member ⟨room, hroom, hp⟩
    rw [hu] at this
    exact absurd this (hm slot)

/-! ## Changed rooms -/

/-- The changes put rooms under the binding that were there, and every other room is under it already. -/
structure Rewrites (hub : MyRoomHub U) (identity : IdentityBinding) (changes : List (Change UserNo (MyRoomState U))) : Prop where
  replaced : ∀ change ∈ changes, ∃ room room', change.value = some room' ∧ hub.rooms.lookup change.key = some room ∧
    Replaced identity room room'
  nodup : (changes.map Change.key).Nodup
  others : ∀ key room, hub.rooms.lookup key = some room → key ∉ changes.map Change.key → Replaced identity room room

namespace Rewrites

variable {identity : IdentityBinding} {changes : List (Change UserNo (MyRoomState U))}

/-- A changed room is what its change says. -/
theorem after_of_mem (h : Rewrites hub identity changes) {change : Change UserNo (MyRoomState U)} (hc : change ∈ changes) :
    Change.after hub.rooms changes change.key = change.value :=
  Change.after_of_mem ⟨change, hc, rfl⟩ fun _ ho hk =>
    congrArg Change.value (List.inj_on_of_nodup_map h.nodup ho hc hk)

/-- The rooms are under the binding afterwards. -/
theorem advances (h : Rewrites hub identity changes) :
    Advances identity (fun key => hub.rooms.lookup key) (Change.after hub.rooms changes) := by
  intro key
  by_cases hk : key ∈ changes.map Change.key
  · obtain ⟨change, hc, rfl⟩ := List.mem_map.1 hk
    obtain ⟨room, room', hvalue, hroom, hreplaced⟩ := h.replaced change hc
    exact .inr ⟨room, room', hroom, by rw [h.after_of_mem hc, hvalue], hreplaced⟩
  · have hafter : Change.after hub.rooms changes key = hub.rooms.lookup key :=
      Change.after_of_forall_ne fun change hc hck => hk (List.mem_map.2 ⟨change, hc, hck⟩)
    cases hroom : hub.rooms.lookup key with
    | none => exact .inl ⟨hroom, by rw [hafter, hroom]⟩
    | some room => exact .inr ⟨room, room, hroom, by rw [hafter, hroom], h.others key room hroom hk⟩

/-- The changed rooms are published as they are. -/
theorem published (h : Rewrites hub identity changes) {publication : RoomPublication} (hp : publication ∈ publicationsOf changes) :
    ∃ room, Change.after hub.rooms changes publication.owner = some room ∧ publication = room.publication publication.owner := by
  obtain ⟨change, hc, hp⟩ := List.mem_filterMap.1 hp
  obtain ⟨room', hvalue, rfl⟩ := map_eq_some_iff.1 hp
  exact ⟨room', (h.after_of_mem hc).trans hvalue, rfl⟩

end Rewrites

/-- When the rooms are put under a binding of a tracked user that becomes the canonical one, the hub keeps its invariant. -/
theorem inv_of_rewrites (h : hub.Inv) {transition : MyRoomTransition U α} {identity : IdentityBinding}
    (hrewrites : Rewrites hub identity transition.rooms) (hmemberships : transition.memberships = [])
    (htracked : (hub.generations.lookup identity.userNo).isSome)
    (hg : ∀ key, Change.after hub.generations transition.generations key =
      if key = identity.userNo then some identity else hub.generations.lookup key) : (transition.applyTo hub).Inv := by
  have hadvances := hrewrites.advances
  have hm : Change.after hub.memberships transition.memberships = fun key => hub.memberships.lookup key := by
    rw [hmemberships]
    rfl
  have hsome : ∀ key, (Change.after hub.generations transition.generations key).isSome → (hub.generations.lookup key).isSome := by
    intro key hkey
    rw [hg] at hkey
    split at hkey
    · rename_i hk
      rw [hk]
      exact htracked
    · exact hkey
  refine inv_applyTo ?_ (hadvances.canonical h.roles h.canonical hg) ?_ ?_
  · rw [hm]
    exact hadvances.roles h.roles
  · intro key hkey
    rw [hm]
    rcases h.referenced key (hsome key hkey) with href | href
    · exact .inl href
    · exact .inr (by rw [hadvances.isSome]; exact href)
  · refine le_trans (FiniteMap.size_le_of_lookup fun key hkey => ?_) h.capacity
    rw [Change.lookup_foldl_apply] at hkey
    exact hsome key hkey

/-- A canonical binding stays what it is. -/
theorem after_nil_of_canonical {identity : IdentityBinding} (hid : hub.generations.lookup identity.userNo = some identity)
    (key : UserNo) : Change.after hub.generations [] key =
      if key = identity.userNo then some identity else hub.generations.lookup key := by
  rw [Change.after_nil]
  split
  · rename_i hk
    rw [hk, hid]
  · rfl

/-! ## Replacing a user in its roles -/

/-- What the fresh presentations of a user have to be: under the binding, or none where it is the canonical one already. -/
structure Fresh (hub : MyRoomHub U) (identity : IdentityBinding)
    (freshMember : MyRoomParticipant U → Except MyRoomHubError (Option (MyRoomParticipant U)))
    (freshOwner : MyRoomState U → Except MyRoomHubError (Option (MyRoomParticipant U))) : Prop where
  member : ∀ current participant, hub.generations.lookup identity.userNo = some current.identity →
    freshMember current = .ok (some participant) → participant.identity = identity
  owner : ∀ room participant, hub.generations.lookup identity.userNo = some room.owner.identity →
    freshOwner room = .ok (some participant) → participant.identity = identity
  memberNone : ∀ current, freshMember current = .ok none → hub.generations.lookup identity.userNo = some identity
  ownerNone : ∀ room, freshOwner room = .ok none → hub.generations.lookup identity.userNo = some identity

/-- The user replaced in its slot: nothing else in the room changes. -/
theorem replaced_member (h : hub.Inv) {identity : IdentityBinding} {key : UserNo} {slot : MyRoomSlotIndex}
    (hm : hub.memberships.lookup identity.userNo = some ⟨key, slot⟩) {room room' : MyRoomState U}
    (hroom : hub.rooms.lookup key = some room) {participant : MyRoomParticipant U} (hp : participant.identity = identity)
    (hreplace : room.replaceParticipant slot participant = .ok room') : Replaced identity room room' := by
  obtain ⟨hslots, howner, hinfo, hport⟩ := replaceParticipant_eq_ok hreplace
  obtain ⟨there, current, hthere, hcurrent, hu, -⟩ := h.of_membership hm
  rw [hroom] at hthere
  cases hthere
  have hsound := h.roles.sound _ _ hroom
  refine ⟨?_, fun slot' => ?_, hport, fun hi => by rw [hinfo]; exact hi⟩
  · rw [howner]
    split
    · rename_i hzero
      subst hzero
      rw [hp, advanced, if_pos]
      rw [hsound.owner, ← hu, hsound.of_zero hcurrent]
    · rename_i hne
      rw [advanced, if_neg]
      intro hc
      exact hne (hsound.ownSlot slot current hcurrent (by rw [hu, ← hc, hsound.owner]))
  · rw [hslots, Function.update_apply]
    split
    · rename_i hs
      rw [hs, hcurrent, map_some, map_some, hp, advanced, if_pos hu]
    · rename_i hs
      cases hother : room.participant slot' with
      | none => rfl
      | some other =>
        rw [map_some, map_some, advanced, if_neg]
        intro hc
        exact hs (h.roles.stands_unique ⟨room, hroom, hother⟩ ⟨room, hroom, hcurrent⟩ (hc.trans hu.symm)).2

/-- The owner replaced in its room when it is not there: nothing else in the room changes. -/
theorem replaced_owner (h : hub.Inv) {identity : IdentityBinding}
    (hm : ∀ slot, hub.memberships.lookup identity.userNo ≠ some ⟨identity.userNo, slot⟩) {room room' : MyRoomState U}
    (hroom : hub.rooms.lookup identity.userNo = some room) {participant : MyRoomParticipant U} (hp : participant.identity = identity)
    (hreplace : room.replaceOwnerPresentation participant = .ok room') : Replaced identity room room' := by
  obtain ⟨hslots, howner, hinfo, hport⟩ := replaceOwnerPresentation_eq_ok hreplace
  have hsound := h.roles.sound _ _ hroom
  have hnobody : ∀ slot other, room.participant slot = some other → other.identity.userNo ≠ identity.userNo := by
    intro slot other hother hc
    have : hub.memberships.lookup other.identity.userNo = some ⟨identity.userNo, slot⟩ :=
      h.roles.member ⟨room, hroom, hother⟩
    rw [hc] at this
    exact hm slot this
  have habsent : room.ownerPresent = false := by
    cases hpresent : room.ownerPresent with
    | false => rfl
    | true =>
      have hzero : room.participant 0 = some room.owner := by rw [participant_zero, if_pos hpresent]
      exact absurd hsound.owner (hnobody 0 room.owner hzero)
  refine ⟨?_, fun slot => ?_, fun _ => hport, fun hi => by rw [hinfo]; exact hi⟩
  · rw [howner, hp, advanced, if_pos hsound.owner]
  · rw [hslots, habsent, Function.update_apply]
    split
    · rename_i hs
      rw [hs, participant_zero, habsent]
      rfl
    · cases hother : room.participant slot with
      | none => rfl
      | some other => rw [map_some, map_some, advanced, if_neg (hnobody slot other hother)]

variable {identity : IdentityBinding}
  {freshMember : MyRoomParticipant U → Except MyRoomHubError (Option (MyRoomParticipant U))}
  {freshOwner : MyRoomState U → Except MyRoomHubError (Option (MyRoomParticipant U))}

/-- What replacing a member makes: nothing when there is no slot or nothing to change, or its changed room. -/
theorem replaceMembership_eq_ok (h : hub.Inv) (hfresh : Fresh hub identity freshMember freshOwner)
    {changes : List (Change UserNo (MyRoomState U))} (hok : hub.replaceMembership identity.userNo freshMember = .ok changes) :
    (hub.memberships.lookup identity.userNo = none ∧ changes = []) ∨
      (changes = [] ∧ hub.generations.lookup identity.userNo = some identity) ∨
      ∃ key slot room room', hub.memberships.lookup identity.userNo = some ⟨key, slot⟩ ∧
        hub.rooms.lookup key = some room ∧ changes = [⟨key, some room'⟩] ∧ Replaced identity room room' := by
  unfold replaceMembership at hok
  cases hm : hub.memberships.lookup identity.userNo with
  | none =>
    simp only [hm] at hok
    cases hok
    exact .inl ⟨rfl, rfl⟩
  | some mapped =>
    simp only [hm] at hok
    obtain ⟨key, slot⟩ := mapped
    obtain ⟨room, hroom, hok⟩ := bind_eq_ok.1 hok
    obtain ⟨current, hcurrent, hok⟩ := bind_eq_ok.1 hok
    obtain ⟨replacement, hreplacement, hok⟩ := bind_eq_ok.1 hok
    have hroom' := orElse_eq_ok.1 hroom
    have hcanonical : hub.generations.lookup identity.userNo = some current.identity := by
      obtain ⟨there, participant, hthere, hp, -, hid⟩ := h.of_membership hm
      rw [hroom'] at hthere
      cases hthere
      rw [orElse_eq_ok.1 hcurrent] at hp
      cases hp
      exact hid
    cases replacement with
    | none =>
      cases hok
      exact .inr (.inl ⟨rfl, hfresh.memberNone current hreplacement⟩)
    | some participant =>
      have hid := hfresh.member current participant hcanonical hreplacement
      cases hreplace : room.replaceParticipant slot participant with
      | error e =>
        simp only [hreplace] at hok
        cases hok
      | ok room' =>
        simp only [hreplace] at hok
        cases hok
        exact .inr (.inr ⟨key, slot, room, room', rfl, hroom', rfl, replaced_member h hm hroom' hid hreplace⟩)

/-- What replacing an owner makes: nothing when it has no other room than the one it is in or nothing changes, or its changed
room. -/
theorem replaceOwned_eq_ok (h : hub.Inv) (hfresh : Fresh hub identity freshMember freshOwner)
    {changes : List (Change UserNo (MyRoomState U))} (hok : hub.replaceOwned identity.userNo freshOwner = .ok changes) :
    (changes = [] ∧ ((hub.rooms.lookup identity.userNo).isSome →
        ∃ slot, hub.memberships.lookup identity.userNo = some ⟨identity.userNo, slot⟩)) ∨
      (changes = [] ∧ hub.generations.lookup identity.userNo = some identity) ∨
      ∃ room room', hub.rooms.lookup identity.userNo = some room ∧
        (∀ slot, hub.memberships.lookup identity.userNo ≠ some ⟨identity.userNo, slot⟩) ∧
        changes = [⟨identity.userNo, some room'⟩] ∧ Replaced identity room room' := by
  unfold replaceOwned at hok
  split at hok
  · rename_i hcond
    obtain ⟨-, hall⟩ := hcond
    have hm : ∀ slot, hub.memberships.lookup identity.userNo ≠ some ⟨identity.userNo, slot⟩ := by
      intro slot hc
      rw [hc] at hall
      simp at hall
    obtain ⟨room, hroom, hok⟩ := bind_eq_ok.1 hok
    obtain ⟨replacement, hreplacement, hok⟩ := bind_eq_ok.1 hok
    have hroom' := orElse_eq_ok.1 hroom
    cases replacement with
    | none =>
      cases hok
      exact .inr (.inl ⟨rfl, hfresh.ownerNone room hreplacement⟩)
    | some participant =>
      have hid := hfresh.owner room participant (h.canonical.owners _ _ hroom') hreplacement
      cases hreplace : room.replaceOwnerPresentation participant with
      | error e =>
        simp only [hreplace] at hok
        cases hok
      | ok room' =>
        simp only [hreplace] at hok
        cases hok
        exact .inr (.inr ⟨room, room', hroom', hm, rfl, replaced_owner h hm hroom' hid hreplace⟩)
  · rename_i hcond
    cases hok
    refine .inl ⟨rfl, fun hsome => ?_⟩
    rw [not_and] at hcond
    have hall := hcond hsome
    cases hm : hub.memberships.lookup identity.userNo with
    | none =>
      rw [hm] at hall
      exact absurd rfl hall
    | some mapped =>
      rw [hm] at hall
      have hown : mapped.owner = identity.userNo := by simpa using hall
      exact ⟨mapped.slot, by rw [← hown]⟩

/-- Replacing a user in its roles rewrites the rooms. -/
theorem rewrites_replaceRoles (h : hub.Inv) (hfresh : Fresh hub identity freshMember freshOwner)
    {changes : List (Change UserNo (MyRoomState U))}
    (hok : hub.replaceRoles identity.userNo freshMember freshOwner = .ok changes) : Rewrites hub identity changes := by
  unfold replaceRoles at hok
  obtain ⟨_, -, hok⟩ := bind_eq_ok.1 hok
  obtain ⟨member, hmember, hok⟩ := bind_eq_ok.1 hok
  obtain ⟨owner, howner, hok⟩ := bind_eq_ok.1 hok
  cases hok
  have hmembers := replaceMembership_eq_ok h hfresh hmember
  have howners := replaceOwned_eq_ok h hfresh howner
  refine ⟨?_, ?_, ?_⟩
  · intro change hc
    rcases List.mem_append.1 hc with hc | hc
    · rcases hmembers with ⟨-, rfl⟩ | ⟨rfl, -⟩ | ⟨key, slot, room, room', -, hroom, rfl, hreplaced⟩
      · cases hc
      · cases hc
      · rw [List.mem_singleton.1 hc]
        exact ⟨room, room', rfl, hroom, hreplaced⟩
    · rcases howners with ⟨rfl, -⟩ | ⟨rfl, -⟩ | ⟨room, room', hroom, -, rfl, hreplaced⟩
      · cases hc
      · cases hc
      · rw [List.mem_singleton.1 hc]
        exact ⟨room, room', rfl, hroom, hreplaced⟩
  · -- the room of the slot is another one than the room that is replaced for its owner
    rcases hmembers with ⟨-, rfl⟩ | ⟨rfl, -⟩ | ⟨key, slot, room, room', hm, -, rfl, -⟩ <;>
      rcases howners with ⟨rfl, -⟩ | ⟨rfl, -⟩ | ⟨owned, owned', -, hnot, rfl, -⟩
    all_goals try simp
    rintro rfl
    exact hnot slot hm
  · intro key room hroom hk
    by_cases hcanonical : hub.generations.lookup identity.userNo = some identity
    · exact replaced_of_canonical h hcanonical hroom
    · rw [List.map_append, List.mem_append, not_or] at hk
      have hslot : ∀ slot, hub.memberships.lookup identity.userNo ≠ some ⟨key, slot⟩ := by
        intro slot hc
        rcases hmembers with ⟨hnone, -⟩ | ⟨-, hid⟩ | ⟨other, _, _, _, hm, -, rfl, -⟩
        · rw [hnone] at hc
          cases hc
        · exact hcanonical hid
        · rw [hm] at hc
          cases hc
          exact hk.1 (List.mem_singleton_self _)
      refine replaced_of_elsewhere h hroom ?_ hslot
      rintro rfl
      rcases howners with ⟨-, hown⟩ | ⟨-, hid⟩ | ⟨_, _, -, -, rfl, -⟩
      · obtain ⟨slot, hc⟩ := hown (by rw [hroom]; rfl)
        exact hslot slot hc
      · exact hcanonical hid
      · exact hk.2 (List.mem_singleton_self _)

/-- At most two rooms are rewritten. -/
theorem length_replaceRoles_le {userNo : UserNo} {changes : List (Change UserNo (MyRoomState U))}
    (hok : hub.replaceRoles userNo freshMember freshOwner = .ok changes) : changes.length ≤ 2 := by
  unfold replaceRoles at hok
  obtain ⟨_, -, hok⟩ := bind_eq_ok.1 hok
  obtain ⟨member, hmember, hok⟩ := bind_eq_ok.1 hok
  obtain ⟨owner, howner, hok⟩ := bind_eq_ok.1 hok
  cases hok
  have hmap : ∀ (x : Except MyRoomHubError (MyRoomState U)) (key : UserNo) (result : List (Change UserNo (MyRoomState U))),
      x.map (fun room => [(⟨key, some room⟩ : Change UserNo (MyRoomState U))]) = .ok result → result.length ≤ 1 := by
    intro x key result hx
    cases x with
    | error e => cases hx
    | ok room =>
      cases hx
      exact Nat.le_refl 1
  have h1 : member.length ≤ 1 := by
    unfold replaceMembership at hmember
    split at hmember
    · cases hmember
      exact Nat.zero_le _
    · obtain ⟨_, -, hmember⟩ := bind_eq_ok.1 hmember
      obtain ⟨_, -, hmember⟩ := bind_eq_ok.1 hmember
      obtain ⟨replacement, -, hmember⟩ := bind_eq_ok.1 hmember
      cases replacement with
      | none =>
        cases hmember
        exact Nat.zero_le _
      | some participant => exact hmap _ _ _ hmember
  have h2 : owner.length ≤ 1 := by
    unfold replaceOwned at howner
    split at howner
    · obtain ⟨_, -, howner⟩ := bind_eq_ok.1 howner
      obtain ⟨replacement, -, howner⟩ := bind_eq_ok.1 howner
      cases replacement with
      | none =>
        cases howner
        exact Nat.zero_le _
      | some participant => exact hmap _ _ _ howner
    · cases howner
      exact Nat.zero_le _
  rw [List.length_append]
  omega

/-- Replacing a tracked user in its roles has no internal failure, when making the presentations has none. -/
theorem avoids_replaceRoles (h : hub.Inv) (htracked : (hub.generations.lookup identity.userNo).isSome)
    (hfresh : Fresh hub identity freshMember freshOwner) (hmember : ∀ current, Avoids Internal (freshMember current))
    (howner : ∀ room, Avoids Internal (freshOwner room)) :
    Avoids Internal (hub.replaceRoles identity.userNo freshMember freshOwner) := by
  have hmap : ∀ {β γ : Type} (b : β) (f : β → γ), Avoids Internal ((Except.ok b : Except MyRoomHubError β).map f) :=
    fun b f => avoids_ok _
  unfold replaceRoles
  refine bind (avoids_ensure (.inl ?_)) fun _ _ => ?_
  · rintro ⟨hnone, hnone'⟩
    rcases h.referenced _ htracked with href | href
    · simp [isNone_iff_eq_none.1 hnone] at href
    · simp [isNone_iff_eq_none.1 hnone'] at href
  refine bind ?_ fun _ _ => bind ?_ fun _ _ => avoids_pure _
  · unfold replaceMembership
    cases hm : hub.memberships.lookup identity.userNo with
    | none => exact avoids_ok _
    | some mapped =>
      obtain ⟨key, slot⟩ := mapped
      obtain ⟨room, current, hroom, hp, hu, hid⟩ := h.of_membership hm
      simp only [replaceMemberRole, MyRoomHub.room, hroom]
      refine bind (avoids_ok _) fun there hthere => ?_
      cases hthere
      rw [hp]
      refine bind (avoids_ok _) fun there hthere => ?_
      cases hthere
      refine bind (hmember current) fun replacement hreplacement => ?_
      cases replacement with
      | none => exact avoids_ok _
      | some participant =>
        have hsame := hfresh.member current participant hid hreplacement
        obtain ⟨room', hreplace⟩ := replaceParticipant_isOk participant hp (by rw [hu, hsame])
        simp only [hreplace]
        exact hmap _ _
  · unfold replaceOwned
    split
    · rename_i hcond
      obtain ⟨room, hroom⟩ := isSome_iff_exists.1 hcond.1
      simp only [replaceOwnerRole, MyRoomHub.room, hroom]
      refine bind (avoids_ok _) fun there hthere => ?_
      cases hthere
      refine bind (howner room) fun replacement hreplacement => ?_
      cases replacement with
      | none => exact avoids_ok _
      | some participant =>
        have hsame := hfresh.owner room participant (h.canonical.owners _ _ hroom) hreplacement
        obtain ⟨room', hreplace⟩ := replaceOwnerPresentation_isOk room participant
          (by rw [hsame, (h.roles.sound _ _ hroom).owner])
        simp only [hreplace]
        exact hmap _ _
    · exact avoids_ok _

/-! ## Refreshes and advances -/

/-- Building a participant has no internal failure. -/
theorem avoids_newParticipant (identity : IdentityBinding) (player : MyRoomPlayerSlot) :
    Avoids Internal (MyRoomParticipant.new identity player : Except MyRoomHubError (MyRoomParticipant U)) := by
  unfold MyRoomParticipant.new
  split
  · exact avoids_error id
  · split
    · split
      · exact avoids_ok _
      · exact avoids_error id
    · exact avoids_error id

/-- A fresh presentation that is always made, under the binding. -/
theorem fresh_map {identity : IdentityBinding} (member : MyRoomParticipant U → Except MyRoomHubError (MyRoomParticipant U))
    (hmember : ∀ current participant, member current = .ok participant → participant.identity = identity) :
    Fresh hub identity (fun current => (member current).map some) (fun room => (member room.owner).map some) := by
  have hmap : ∀ (x : Except MyRoomHubError (MyRoomParticipant U)) (o : Option (MyRoomParticipant U)),
      x.map some = .ok o → ∃ participant, x = .ok participant ∧ o = some participant := by
    intro x o hx
    cases x with
    | error e => cases hx
    | ok participant =>
      cases hx
      exact ⟨participant, rfl, rfl⟩
  refine ⟨fun current participant _ hok => ?_, fun room participant _ hok => ?_, fun current hok => ?_, fun room hok => ?_⟩
  · obtain ⟨other, hother, hsome⟩ := hmap _ _ hok
    cases hsome
    exact hmember current _ hother
  · obtain ⟨other, hother, hsome⟩ := hmap _ _ hok
    cases hsome
    exact hmember room.owner _ hother
  · obtain ⟨other, -, hnone⟩ := hmap _ _ hok
    cases hnone
  · obtain ⟨other, -, hnone⟩ := hmap _ _ hok
    cases hnone

/-- A mapped computation has the failures it had. -/
theorem avoids_map {β γ : Type} {x : Except MyRoomHubError β} (f : β → γ) (h : Avoids Internal x) :
    Avoids Internal (x.map f) := by
  cases x with
  | ok b => exact avoids_ok _
  | error e => exact avoids_error (h e rfl)

/-- The given presentation. -/
theorem fresh_replacement (hub : MyRoomHub U) (replacement : MyRoomParticipant U) :
    Fresh hub replacement.identity (fun _ => .ok (some replacement)) (fun _ => .ok (some replacement)) :=
  fresh_map (fun _ => .ok replacement) fun _ participant hok => by
    cases hok
    rfl

/-- The presentation of a profile. -/
theorem fresh_profile (hub : MyRoomHub U) (identity : IdentityBinding) (presentation : MyRoomProfilePresentation) :
    Fresh hub identity (fun current => (participantWithProfile current identity presentation).map some)
      (fun room => (participantWithProfile room.owner identity presentation).map some) :=
  fresh_map _ fun _ _ hok => (MyRoomParticipant.new_eq_ok hok).1

/-- The presentation under a migrated binding. -/
theorem fresh_migrated (hub : MyRoomHub U) (identity : IdentityBinding) :
    Fresh hub identity (fun current => (migratedParticipant current identity).map some)
      (fun room => (migratedParticipant room.owner identity).map some) :=
  fresh_map _ fun _ _ hok => (MyRoomParticipant.new_eq_ok hok).1

/-- The presentation with another endpoint, under the binding it had. -/
theorem patchedEndpoint_eq_ok {identity : IdentityBinding} {port : UInt16} {current participant : MyRoomParticipant U}
    (hok : patchedEndpoint identity port current = .ok (some participant)) : participant.identity = current.identity := by
  unfold patchedEndpoint at hok
  cases hp : participantWithP2pEndpoint current identity port with
  | error e =>
    rw [hp] at hok
    cases hok
  | ok patched =>
    rw [hp] at hok
    simp only [Except.map, Except.ok.injEq] at hok
    split at hok
    · cases hok
      exact (MyRoomParticipant.new_eq_ok hp).1
    · cases hok

/-- The presentation with another endpoint, where there is one and it is another. -/
theorem fresh_endpoint {identity : IdentityBinding} (hid : hub.generations.lookup identity.userNo = some identity)
    (port : UInt16) : Fresh hub identity (patchedEndpoint identity port)
      (fun room => if room.ownerPresent then patchedEndpoint identity port room.owner else .ok none) := by
  refine ⟨fun current participant hc hok => ?_, fun room participant hc hok => ?_, fun _ _ => hid, fun _ _ => hid⟩
  · rw [patchedEndpoint_eq_ok hok]
    exact some.inj (hc.symm.trans hid)
  · split at hok
    · rw [patchedEndpoint_eq_ok hok]
      exact some.inj (hc.symm.trans hid)
    · cases hok

/-- A transition that only rewrites rooms under a canonical binding is planned on the hub. -/
theorem planned_rewrites (h : hub.Inv) {identity : IdentityBinding}
    (hid : hub.generations.lookup identity.userNo = some identity) {rooms : List (Change UserNo (MyRoomState U))}
    (hrewrites : Rewrites hub identity rooms) {next : Nat} (hnext : hub.nextRevision = .ok next) {outcome : α}
    {t : MyRoomTransition U α} (ht : hub.transition next rooms [] [] outcome = .ok t) {publications : List RoomPublication}
    (hp : ∀ publication ∈ publications, publication ∈ publicationsOf rooms) : Planned hub t publications := by
  cases transition_eq_ok ht
  refine ⟨rfl, .inl (nextRevision_eq_ok hnext), ?_, fun publication hpub => ?_⟩
  · exact inv_of_rewrites h hrewrites rfl (by rw [hid]; rfl) (after_nil_of_canonical hid)
  · rw [lookup_rooms_applyTo]
    exact hrewrites.published (hp publication hpub)

/-- A transition that gives a tracked user another binding is planned on the hub. -/
theorem planned_advance (h : hub.Inv) {identity : IdentityBinding}
    (htracked : (hub.generations.lookup identity.userNo).isSome) {rooms : List (Change UserNo (MyRoomState U))}
    (hrewrites : Rewrites hub identity rooms) {next : Nat} (hnext : hub.nextRevision = .ok next) {outcome : α}
    {t : MyRoomTransition U α} (ht : hub.transition next rooms [] [⟨identity.userNo, some identity⟩] outcome = .ok t) :
    Planned hub t (publicationsOf rooms) := by
  cases transition_eq_ok ht
  refine ⟨rfl, .inl (nextRevision_eq_ok hnext), ?_, fun publication hpub => ?_⟩
  · exact inv_of_rewrites h hrewrites rfl htracked (Change.after_singleton _ _)
  · rw [lookup_rooms_applyTo]
    exact hrewrites.published hpub

theorem planned_refreshParticipant (h : hub.Inv) {participant : MyRoomParticipant U}
    {t : MyRoomTransition U (List RoomPublication)} (ht : hub.refreshParticipant participant = .ok t) :
    Planned hub t t.outcome := by
  unfold refreshParticipant at ht
  obtain ⟨_, hid, ht⟩ := bind_eq_ok.1 ht
  obtain ⟨next, hnext, ht⟩ := bind_eq_ok.1 ht
  obtain ⟨rooms, hrooms, ht⟩ := bind_eq_ok.1 ht
  refine planned_rewrites h (requireCanonicalIdentity_eq_ok.1 hid)
    (rewrites_replaceRoles h (fresh_replacement hub participant) hrooms) hnext ht fun publication hp => ?_
  rw [transition_eq_ok ht] at hp
  exact hp

theorem avoids_refreshParticipant (h : hub.Inv) {participant : MyRoomParticipant U}
    (htracked : (hub.generations.lookup participant.identity.userNo).isSome) :
    Avoids Internal (hub.refreshParticipant participant) := by
  refine bind (avoids_requireCanonicalIdentity htracked) fun _ _ => ?_
  refine bind avoids_nextRevision fun _ _ => ?_
  refine bind (avoids_replaceRoles h htracked (fresh_replacement hub participant)
    (fun _ => avoids_ok _) fun _ => avoids_ok _) fun rooms hrooms => ?_
  exact avoids_transition (length_replaceRoles_le hrooms) (Nat.zero_le _) (Nat.zero_le _)

/-- Whether a user has a role decides between a plan and nothing. -/
theorem tracked_of_hasRole (h : hub.Inv) {userNo : UserNo} (hrole : hub.hasRole userNo = .ok true) :
    (hub.generations.lookup userNo).isSome := by
  rw [hasRole_eq h, Except.ok.injEq, Bool.or_eq_true] at hrole
  obtain ⟨identity, hid, -⟩ := h.canonical_of_referenced hrole
  rw [hid]
  rfl

/-- A tagged value is one that was computed. -/
theorem some_map_eq_ok {β : Type} {x : Except MyRoomHubError β} {o : Option β} (h : (some <$> x) = .ok o) :
    ∃ b, x = .ok b ∧ o = some b := by
  cases x with
  | error e => cases h
  | ok b =>
    cases h
    exact ⟨b, rfl, rfl⟩

theorem planned_refreshProfileIfTracked (h : hub.Inv) {identity : IdentityBinding} {presentation : MyRoomProfilePresentation}
    {t : MyRoomTransition U Unit} (ht : hub.refreshProfileIfTracked identity presentation = .ok (some t)) : Planned hub t [] := by
  unfold refreshProfileIfTracked at ht
  obtain ⟨role, hrole, ht⟩ := bind_eq_ok.1 ht
  cases role with
  | false => cases ht
  | true =>
    simp only [if_true] at ht
    obtain ⟨_, hid, ht⟩ := bind_eq_ok.1 ht
    obtain ⟨next, hnext, ht⟩ := bind_eq_ok.1 ht
    obtain ⟨rooms, hrooms, ht⟩ := bind_eq_ok.1 ht
    obtain ⟨t', ht, hsome⟩ := some_map_eq_ok ht
    cases hsome
    exact planned_rewrites h (requireCanonicalIdentity_eq_ok.1 hid)
      (rewrites_replaceRoles h (fresh_profile hub identity presentation) hrooms) hnext ht fun _ hp => by cases hp

theorem avoids_refreshProfileIfTracked (h : hub.Inv) (identity : IdentityBinding) (presentation : MyRoomProfilePresentation) :
    Avoids Internal (hub.refreshProfileIfTracked identity presentation) := by
  unfold refreshProfileIfTracked
  refine bind (by rw [hasRole_eq h]; exact avoids_ok _) fun role hrole => ?_
  split
  · rename_i htrue
    rw [htrue] at hrole
    have htracked := tracked_of_hasRole h hrole
    refine bind (avoids_requireCanonicalIdentity htracked) fun _ _ => ?_
    refine bind avoids_nextRevision fun _ _ => ?_
    refine bind (avoids_replaceRoles h htracked (fresh_profile hub identity presentation)
      (fun _ => avoids_map _ (avoids_newParticipant _ _)) fun _ => avoids_map _ (avoids_newParticipant _ _))
      fun rooms hrooms => ?_
    exact avoids_map _ (avoids_transition (length_replaceRoles_le hrooms) (Nat.zero_le _) (Nat.zero_le _))
  · exact avoids_pure _

theorem planned_refreshP2pEndpointIfTracked (h : hub.Inv) {identity : IdentityBinding} {port : UInt16}
    {t : MyRoomTransition U Unit} (ht : hub.refreshP2pEndpointIfTracked identity port = .ok (some t)) : Planned hub t [] := by
  unfold refreshP2pEndpointIfTracked at ht
  obtain ⟨role, hrole, ht⟩ := bind_eq_ok.1 ht
  cases role with
  | false => cases ht
  | true =>
    simp only [if_true] at ht
    obtain ⟨_, hid, ht⟩ := bind_eq_ok.1 ht
    obtain ⟨rooms, hrooms, ht⟩ := bind_eq_ok.1 ht
    have hcanonical := requireCanonicalIdentity_eq_ok.1 hid
    split at ht
    · cases ht
    · obtain ⟨next, hnext, ht⟩ := bind_eq_ok.1 ht
      obtain ⟨t', ht, hsome⟩ := some_map_eq_ok ht
      cases hsome
      exact planned_rewrites h hcanonical (rewrites_replaceRoles h (fresh_endpoint hcanonical port) hrooms) hnext ht
        fun _ hp => by cases hp

/-- Patching an endpoint has no internal failure. -/
theorem avoids_patchedEndpoint (identity : IdentityBinding) (port : UInt16) (current : MyRoomParticipant U) :
    Avoids Internal (patchedEndpoint identity port current) :=
  avoids_map _ (avoids_newParticipant _ _)

theorem avoids_refreshP2pEndpointIfTracked (h : hub.Inv) (identity : IdentityBinding) (port : UInt16) :
    Avoids Internal (hub.refreshP2pEndpointIfTracked identity port) := by
  unfold refreshP2pEndpointIfTracked
  refine bind (by rw [hasRole_eq h]; exact avoids_ok _) fun role hrole => ?_
  split
  · rename_i htrue
    rw [htrue] at hrole
    have htracked := tracked_of_hasRole h hrole
    refine bind (avoids_requireCanonicalIdentity htracked) fun _ hid => ?_
    have hfresh := fresh_endpoint (requireCanonicalIdentity_eq_ok.1 hid) port
    refine bind (avoids_replaceRoles h htracked hfresh (avoids_patchedEndpoint identity port) fun room => ?_)
      fun rooms hrooms => ?_
    · split
      · exact avoids_patchedEndpoint identity port room.owner
      · exact avoids_ok _
    · split
      · exact avoids_pure _
      · refine bind avoids_nextRevision fun _ _ => ?_
        exact avoids_map _ (avoids_transition (length_replaceRoles_le hrooms) (Nat.zero_le _) (Nat.zero_le _))
  · exact avoids_pure _

/-- The replacement of a binding is one of the same user. -/
theorem validateIdentityAdvance_userNo {previous replacement : IdentityBinding} {x : Unit}
    (h : validateIdentityAdvance U previous replacement = .ok x) : previous.userNo = replacement.userNo := by
  unfold validateIdentityAdvance at h
  obtain ⟨_, hu, -⟩ := bind_eq_ok.1 h
  exact ensure_eq_ok.1 hu

/-- The check of an advance is no internal failure. -/
theorem avoids_validateIdentityAdvance (previous replacement : IdentityBinding) :
    Avoids Internal (validateIdentityAdvance U previous replacement) := by
  unfold validateIdentityAdvance
  refine bind (avoids_ensure (.inr id)) fun _ _ => ?_
  exact bind (avoids_ensure (.inr id)) fun _ _ => avoids_ensure (.inr id)

theorem planned_advanceIdentity (h : hub.Inv) {previous : IdentityBinding} {replacement : MyRoomParticipant U}
    {t : MyRoomTransition U IdentityAdvanceEffects} (ht : hub.advanceIdentity previous replacement = .ok t) :
    Planned hub t t.outcome.publications := by
  unfold advanceIdentity at ht
  obtain ⟨_, hid, ht⟩ := bind_eq_ok.1 ht
  obtain ⟨_, hadvance, ht⟩ := bind_eq_ok.1 ht
  obtain ⟨next, hnext, ht⟩ := bind_eq_ok.1 ht
  obtain ⟨rooms, hrooms, ht⟩ := bind_eq_ok.1 ht
  have hcanonical := requireCanonicalIdentity_eq_ok.1 hid
  rw [validateIdentityAdvance_userNo hadvance] at hcanonical hrooms ht
  have hplanned := planned_advance h (by rw [hcanonical]; rfl)
    (rewrites_replaceRoles h (fresh_replacement hub replacement) hrooms) hnext ht
  rw [transition_eq_ok ht] at hplanned ⊢
  exact hplanned

theorem avoids_advanceIdentity (h : hub.Inv) {previous : IdentityBinding} (replacement : MyRoomParticipant U)
    (htracked : (hub.generations.lookup previous.userNo).isSome) :
    Avoids Internal (hub.advanceIdentity previous replacement) := by
  refine bind (avoids_requireCanonicalIdentity htracked) fun _ _ => ?_
  refine bind (avoids_validateIdentityAdvance _ _) fun _ hadvance => ?_
  refine bind avoids_nextRevision fun _ _ => ?_
  rw [validateIdentityAdvance_userNo hadvance] at htracked ⊢
  refine bind (avoids_replaceRoles h htracked (fresh_replacement hub replacement)
    (fun _ => avoids_ok _) fun _ => avoids_ok _) fun rooms hrooms => ?_
  exact avoids_transition (length_replaceRoles_le hrooms) (Nat.zero_le _) (by simp)

theorem planned_advanceProfiledIdentityIfTracked (h : hub.Inv) {previous replacement : IdentityBinding}
    {presentation : MyRoomProfilePresentation} {t : MyRoomTransition U IdentityAdvanceEffects}
    (ht : hub.advanceProfiledIdentityIfTracked previous replacement presentation = .ok (some t)) :
    Planned hub t t.outcome.publications := by
  unfold advanceProfiledIdentityIfTracked at ht
  obtain ⟨role, -, ht⟩ := bind_eq_ok.1 ht
  cases role with
  | false => cases ht
  | true =>
    simp only [if_true] at ht
    obtain ⟨participant, -, ht⟩ := bind_eq_ok.1 ht
    obtain ⟨t', ht, hsome⟩ := some_map_eq_ok ht
    cases hsome
    exact planned_advanceIdentity h ht

theorem avoids_advanceProfiledIdentityIfTracked (h : hub.Inv) (previous replacement : IdentityBinding)
    (presentation : MyRoomProfilePresentation) :
    Avoids Internal (hub.advanceProfiledIdentityIfTracked previous replacement presentation) := by
  unfold advanceProfiledIdentityIfTracked
  refine bind (by rw [hasRole_eq h]; exact avoids_ok _) fun role hrole => ?_
  split
  · rename_i htrue
    rw [htrue] at hrole
    refine bind (avoids_newParticipant _ _) fun participant _ => ?_
    exact avoids_map _ (avoids_advanceIdentity h participant (tracked_of_hasRole h hrole))
  · exact avoids_pure _

theorem planned_advanceMigratedIdentityIfTracked (h : hub.Inv) {previous replacement : IdentityBinding}
    {t : MyRoomTransition U IdentityAdvanceEffects}
    (ht : hub.advanceMigratedIdentityIfTracked previous replacement = .ok (some t)) :
    Planned hub t t.outcome.publications := by
  unfold advanceMigratedIdentityIfTracked at ht
  obtain ⟨role, -, ht⟩ := bind_eq_ok.1 ht
  cases role with
  | false => cases ht
  | true =>
    simp only [if_true] at ht
    obtain ⟨_, hid, ht⟩ := bind_eq_ok.1 ht
    obtain ⟨_, hadvance, ht⟩ := bind_eq_ok.1 ht
    obtain ⟨next, hnext, ht⟩ := bind_eq_ok.1 ht
    obtain ⟨rooms, hrooms, ht⟩ := bind_eq_ok.1 ht
    obtain ⟨t', ht, hsome⟩ := some_map_eq_ok ht
    cases hsome
    have hcanonical := requireCanonicalIdentity_eq_ok.1 hid
    rw [validateIdentityAdvance_userNo hadvance] at hcanonical hrooms ht
    have hplanned := planned_advance h (by rw [hcanonical]; rfl)
      (rewrites_replaceRoles h (fresh_migrated hub replacement) hrooms) hnext ht
    rw [transition_eq_ok ht] at hplanned ⊢
    exact hplanned

theorem avoids_advanceMigratedIdentityIfTracked (h : hub.Inv) (previous replacement : IdentityBinding) :
    Avoids Internal (hub.advanceMigratedIdentityIfTracked previous replacement) := by
  unfold advanceMigratedIdentityIfTracked
  refine bind (by rw [hasRole_eq h]; exact avoids_ok _) fun role hrole => ?_
  split
  · rename_i htrue
    rw [htrue] at hrole
    have htracked := tracked_of_hasRole h hrole
    refine bind (avoids_requireCanonicalIdentity htracked) fun _ _ => ?_
    refine bind (avoids_validateIdentityAdvance _ _) fun _ hadvance => ?_
    refine bind avoids_nextRevision fun _ _ => ?_
    rw [validateIdentityAdvance_userNo hadvance] at htracked ⊢
    refine bind (avoids_replaceRoles h htracked (fresh_migrated hub replacement)
      (fun _ => avoids_map _ (avoids_newParticipant _ _)) fun _ => avoids_map _ (avoids_newParticipant _ _))
      fun rooms hrooms => ?_
    exact avoids_map _ (avoids_transition (length_replaceRoles_le hrooms) (Nat.zero_le _) (by simp))
  · exact avoids_pure _

/-! ## The information of a room -/

/-- Other information for the room of a tracked owner rewrites it and no other one. -/
theorem rewrites_info (h : hub.Inv) {identity : IdentityBinding}
    (hid : hub.generations.lookup identity.userNo = some identity) {room : MyRoomState U}
    (hroom : hub.rooms.lookup identity.userNo = some room) {info : MyRoomInfo} (hinfo : validateMyroomInfo info = .ok ())
    (infoRevision : Nat) :
    Rewrites hub identity [⟨identity.userNo, some { room with info := info, infoRevision := infoRevision }⟩] := by
  have hsame := replaced_of_canonical h hid hroom
  refine ⟨fun change hc => ?_, List.nodup_singleton _, fun key other hother _ => replaced_of_canonical h hid hother⟩
  rw [List.mem_singleton.1 hc]
  exact ⟨room, _, rfl, hroom, hsame.owner, hsame.slots, hsame.port, fun _ => hinfo⟩

theorem planned_updateOwnerInfo (h : hub.Inv) {identity : IdentityBinding} {info : MyRoomInfo}
    {t : MyRoomTransition U OwnerInfoUpdate} (ht : hub.updateOwnerInfo identity info = .ok t) : Planned hub t [] := by
  unfold updateOwnerInfo at ht
  obtain ⟨_, hinfo, ht⟩ := bind_eq_ok.1 ht
  obtain ⟨membership, hexact, ht⟩ := bind_eq_ok.1 ht
  obtain ⟨_, -, ht⟩ := bind_eq_ok.1 ht
  obtain ⟨next, hnext, ht⟩ := bind_eq_ok.1 ht
  obtain ⟨room, hroom, ht⟩ := bind_eq_ok.1 ht
  have hvalid : validateMyroomInfo info = .ok () := by
    cases hv : validateMyroomInfo info with
    | error e =>
      rw [hv] at hinfo
      cases hinfo
    | ok x => rfl
  obtain ⟨hid, -⟩ := membershipExact_eq_ok hexact
  exact planned_rewrites h hid (rewrites_info h hid (orElse_eq_ok.1 hroom) hvalid next) hnext ht fun _ hp => by cases hp

theorem avoids_updateOwnerInfo (h : hub.Inv) {identity : IdentityBinding} (info : MyRoomInfo)
    (htracked : (hub.generations.lookup identity.userNo).isSome) :
    Avoids Internal (hub.updateOwnerInfo identity info) := by
  unfold updateOwnerInfo
  refine bind ?_ fun _ _ => ?_
  · cases validateMyroomInfo info with
    | error e => exact avoids_error id
    | ok x => exact avoids_ok _
  refine bind (avoids_membershipExact h htracked) fun membership hexact => ?_
  refine bind (avoids_ensure (.inr id)) fun _ hown => ?_
  refine bind avoids_nextRevision fun next _ => ?_
  obtain ⟨-, hm⟩ := membershipExact_eq_ok hexact
  obtain ⟨key, slot⟩ := membership
  obtain ⟨room, -, hroom, -⟩ := h.of_membership hm
  have hkey : key = identity.userNo := by
    have := ensure_eq_ok.1 hown
    rw [not_or, not_not] at this
    exact this.1
  rw [hkey] at hroom
  refine bind (avoids_orElse (.inl (by rw [hroom]; rfl))) fun _ _ => ?_
  exact avoids_transition (by simp) (Nat.zero_le _) (Nat.zero_le _)

end MyRoomHub

end P5136
