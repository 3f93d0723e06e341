import P5136.MyRoom.Runs

/-!
# Policies of rooms

The revision of a room's information stamps it: a transition leaves the information of a room with its stamp, or gives it a stamp
that no room had before. So a room that has one stamp at two times has one policy.
-/

namespace P5136

open Checks List

variable {U : Unicode} {α : Type}

namespace MyRoomHub

variable {hub hub' hub'' : MyRoomHub U}

/-- Two rooms have one policy with one stamp. -/
def SamePolicy (room room' : MyRoomState U) : Prop := room'.info = room.info ∧ room'.infoRevision = room.infoRevision

/-- A change leaves the policy of the room, or stamps it with a new revision. -/
def KeepsPolicy (hub : MyRoomHub U) (nextRevision : Nat) (change : Change UserNo (MyRoomState U)) : Prop :=
  ∀ room', change.value = some room' → (∃ room, hub.rooms.lookup change.key = some room ∧ SamePolicy room room') ∨
    (hub.revision < room'.infoRevision ∧ room'.infoRevision ≤ nextRevision)

/-- A transition does so in every room. -/
structure KeepsPolicies (hub : MyRoomHub U) (t : MyRoomTransition U α) : Prop where
  revision : hub.revision ≤ t.nextRevision
  rooms : ∀ change ∈ t.rooms, hub.KeepsPolicy t.nextRevision change

/-- Since an earlier hub, every room has kept its policy or has got a newer stamp. -/
structure PoliciesSince (hub hub' : MyRoomHub U) : Prop where
  revision : hub.revision ≤ hub'.revision
  rooms : ∀ key room', hub'.rooms.lookup key = some room' →
    (∃ room, hub.rooms.lookup key = some room ∧ SamePolicy room room') ∨ hub.revision < room'.infoRevision

/-- No stamp is newer than the hub. -/
def Stamped (hub : MyRoomHub U) : Prop := ∀ key room, hub.rooms.lookup key = some room → room.infoRevision ≤ hub.revision

/-! ## Policies over time -/

/-- A hub and itself. -/
theorem PoliciesSince.refl (hub : MyRoomHub U) : PoliciesSince hub hub :=
  ⟨Nat.le_refl _, fun _ room' h => .inl ⟨room', h, rfl, rfl⟩⟩

/-- Times follow each other. -/
theorem PoliciesSince.trans (h : PoliciesSince hub hub') (h' : PoliciesSince hub' hub'') : PoliciesSince hub hub'' := by
  refine ⟨Nat.le_trans h.revision h'.revision, fun key room'' hroom'' => ?_⟩
  rcases h'.rooms key room'' hroom'' with ⟨room', hroom', hinfo, hstamp⟩ | hnew
  · rcases h.rooms key room' hroom' with ⟨room, hroom, hinfo', hstamp'⟩ | hnew
    · exact .inl ⟨room, hroom, hinfo.trans hinfo', hstamp.trans hstamp'⟩
    · exact .inr (hstamp ▸ hnew)
  · exact .inr (Nat.lt_of_le_of_lt h.revision hnew)

/-- A room with one stamp at two times has one policy. -/
theorem PoliciesSince.info_eq (h : PoliciesSince hub hub') (hstamped : hub.Stamped) {key : UserNo} {room room' : MyRoomState U}
    (hroom : hub.rooms.lookup key = some room) (hroom' : hub'.rooms.lookup key = some room')
    (hstamp : room'.infoRevision = room.infoRevision) : room'.info = room.info := by
  rcases h.rooms key room' hroom' with ⟨old, hold, hinfo, -⟩ | hnew
  · rw [hroom] at hold
    cases hold
    exact hinfo
  · have hle := hstamped key room hroom
    omega

/-- The changes of a transition. -/
theorem KeepsPolicies.since {t : MyRoomTransition U α} (h : hub.KeepsPolicies t) : PoliciesSince hub (t.applyTo hub) := by
  refine ⟨h.revision, fun key room' hroom' => ?_⟩
  rw [lookup_rooms_applyTo] at hroom'
  by_cases hmem : ∃ change ∈ t.rooms, change.key = key ∧ change.value = some room'
  · obtain ⟨change, hc, rfl, hvalue⟩ := hmem
    rcases h.rooms change hc room' hvalue with hkept | hnew
    · exact .inl hkept
    · exact .inr hnew.1
  · refine .inl ⟨room', ?_, rfl, rfl⟩
    unfold Change.after at hroom'
    split at hroom'
    · rename_i change hfind
      have hkey := find?_some hfind
      exact absurd ⟨change, mem_reverse.1 (mem_of_find?_eq_some hfind), of_decide_eq_true hkey, hroom'⟩ hmem
    · exact hroom'

/-- A transition stamps no room with a later revision than its own. -/
theorem KeepsPolicies.stamped {t : MyRoomTransition U α} (h : hub.KeepsPolicies t) (hstamped : hub.Stamped) :
    (t.applyTo hub).Stamped := by
  intro key room' hroom'
  rw [lookup_rooms_applyTo] at hroom'
  unfold Change.after at hroom'
  split at hroom'
  · rename_i change hfind
    have hmem := mem_reverse.1 (mem_of_find?_eq_some hfind)
    rcases h.rooms change hmem room' hroom' with ⟨room, hroom, -, hstamp⟩ | hnew
    · rw [hstamp]
      exact Nat.le_trans (hstamped _ room hroom) h.revision
    · exact hnew.2
  · exact Nat.le_trans (hstamped key room' hroom') h.revision

/-! ## What the calls do to a room -/

/-- A change of a room that leaves its policy. -/
theorem keepsPolicy_of_same {next : Nat} {key : UserNo} {room room' : MyRoomState U} (h : hub.rooms.lookup key = some room)
    (hsame : SamePolicy room room') : hub.KeepsPolicy next ⟨key, some room'⟩ := by
  rintro _ ⟨⟩
  exact .inl ⟨room, h, hsame⟩

/-- A room that is gone. -/
theorem keepsPolicy_none {next : Nat} {key : UserNo} : hub.KeepsPolicy next ⟨key, none⟩ := by
  rintro _ ⟨⟩

/-- No change. -/
theorem keepsPolicies_nil {revision : Nat} {outcome : α} {t : MyRoomTransition U α} (hle : hub.revision ≤ revision)
    {memberships : List (Change UserNo MyRoomMembership)} {generations : List (Change UserNo IdentityBinding)}
    (h : hub.transition revision [] memberships generations outcome = .ok t) : hub.KeepsPolicies t := by
  cases transition_eq_ok h
  exact ⟨hle, fun change hc => by cases hc⟩

/-- A member leaves. -/
theorem samePolicy_removeParticipant {room room' : MyRoomState U} {slot : MyRoomSlotIndex} {userNo : UserNo}
    (h : room.removeParticipant slot userNo = .ok room') : SamePolicy room room' := by
  unfold MyRoomState.removeParticipant at h
  split at h <;> split at h <;> cases h <;> exact ⟨rfl, rfl⟩

/-- A member enters. -/
theorem samePolicy_addMember {room room' : MyRoomState U} {slot : MyRoomSlotIndex} {participant : MyRoomParticipant U}
    (h : room.addMember slot participant = .ok room') : SamePolicy room room' := by
  unfold MyRoomState.addMember at h
  split at h <;> split at h <;> cases h <;> exact ⟨rfl, rfl⟩

/-- A member is replaced. -/
theorem samePolicy_replaceParticipant {room room' : MyRoomState U} {slot : MyRoomSlotIndex}
    {participant : MyRoomParticipant U} (h : room.replaceParticipant slot participant = .ok room') : SamePolicy room room' := by
  unfold MyRoomState.replaceParticipant at h
  split at h <;> split at h <;> cases h <;> exact ⟨rfl, rfl⟩

/-- The owner is replaced. -/
theorem samePolicy_replaceOwnerPresentation {room room' : MyRoomState U} {participant : MyRoomParticipant U}
    (h : room.replaceOwnerPresentation participant = .ok room') : SamePolicy room room' := by
  unfold MyRoomState.replaceOwnerPresentation at h
  split at h <;> cases h
  exact ⟨rfl, rfl⟩

/-- A member leaves its room. -/
theorem keepsPolicy_vacate {next : Nat} {membership : MyRoomMembership} {userNo : UserNo}
    {vacated : Change UserNo (MyRoomState U) × MyRoomEffect} (h : hub.vacate membership userNo = .ok vacated) :
    hub.KeepsPolicy next vacated.1 := by
  unfold vacate at h
  simp only [bind_eq_ok] at h
  obtain ⟨room, hroom, room', hremoved, h⟩ := h
  have hsame := samePolicy_removeParticipant (mapError_eq_ok.1 hremoved)
  split at h <;> cases h
  · exact keepsPolicy_none
  · exact keepsPolicy_of_same (orElse_eq_ok.1 hroom) hsame

/-- A member that has vacated its room, if any. -/
theorem keepsPolicy_vacated {next : Nat} {vacated : Option (Change UserNo (MyRoomState U) × MyRoomEffect)}
    {membership : MyRoomMembership} {userNo : UserNo} (h : (hub.vacate membership userNo).map some = .ok vacated) :
    ∀ change ∈ (vacated.map (·.1)).toList, hub.KeepsPolicy next change := by
  cases hv : hub.vacate membership userNo with
  | error e =>
    rw [hv] at h
    cases h
  | ok v =>
    rw [hv] at h
    cases h
    intro change hc
    rw [mem_singleton.1 hc]
    exact keepsPolicy_vacate hv

/-! ## The transitions -/

/-- An entry. -/
theorem keepsPolicies_enter {member : MyRoomParticipant U} {owner : MyRoomOwner U} {t : MyRoomTransition U MyRoomEnterOutcome}
    (h : hub.enter member owner = .ok t) : hub.KeepsPolicies t := by
  have hmove : ∀ {ownerIsNew memberIsNew current}, hub.move member owner ownerIsNew memberIsNew current = .ok t →
      hub.KeepsPolicies t := by
    intro ownerIsNew memberIsNew current h
    unfold move at h
    simp only [bind_eq_ok] at h
    obtain ⟨slot, -, _, -, next, hnext, h⟩ := h
    have hnext := nextRevision_eq_ok hnext
    unfold buildEnterTransition at h
    simp only [bind_eq_ok] at h
    obtain ⟨vacated, hvacated, destination, hdestination, h⟩ := h
    cases transition_eq_ok h
    refine ⟨by simp only [hnext]; omega, fun change hc => ?_⟩
    rcases mem_append.1 hc with hc | hc
    · unfold vacateCurrent at hvacated
      split at hvacated
      · cases hvacated
        cases hc
      · exact keepsPolicy_vacated hvacated change hc
    · rw [mem_singleton.1 hc]
      have hsame := samePolicy_addMember (mapError_eq_ok.1 hdestination)
      cases hroom : hub.rooms.lookup owner.key with
      | some room =>
        rw [hroom] at hsame
        exact keepsPolicy_of_same hroom hsame
      | none =>
        rw [hroom] at hsame
        rintro _ ⟨⟩
        have hstamp : destination.infoRevision = next := hsame.2
        exact .inr ⟨by omega, Nat.le_of_eq hstamp⟩
  unfold enter at h
  simp only [bind_eq_ok] at h
  obtain ⟨ownerIsNew, -, memberIsNew, -, h⟩ := h
  split at h
  · exact hmove h
  · simp only [bind_eq_ok] at h
    obtain ⟨_, -, h⟩ := h
    split at h
    · unfold reenter at h
      simp only [bind_eq_ok] at h
      obtain ⟨_, -, h⟩ := h
      exact keepsPolicies_nil (Nat.le_refl _) h
    · exact hmove h

/-- A departure. -/
theorem keepsPolicies_leave {identity : IdentityBinding} {t : MyRoomTransition U MyRoomEffect}
    (h : hub.leave identity = .ok t) : hub.KeepsPolicies t := by
  unfold leave at h
  simp only [bind_eq_ok] at h
  obtain ⟨membership, -, next, hnext, vacated, hvacated, h⟩ := h
  have hnext := nextRevision_eq_ok hnext
  cases transition_eq_ok h
  refine ⟨by simp only [hnext]; omega, fun change hc => ?_⟩
  rw [mem_singleton.1 hc]
  exact keepsPolicy_vacate hvacated

/-- A disconnection. -/
theorem keepsPolicies_disconnect {identity : IdentityBinding} {t : MyRoomTransition U MyRoomDisconnectOutcome}
    (h : hub.disconnect identity = .ok t) : hub.KeepsPolicies t := by
  unfold disconnect at h
  split at h
  · exact keepsPolicies_nil (Nat.le_refl _) h
  simp only [bind_eq_ok] at h
  obtain ⟨_, -, _, -, _, -, _, -, next, hnext, h⟩ := h
  have hnext := nextRevision_eq_ok hnext
  unfold buildDisconnectTransition at h
  simp only [bind_eq_ok] at h
  obtain ⟨vacated, hvacated, h⟩ := h
  cases transition_eq_ok h
  refine ⟨by simp only [hnext]; omega, fun change hc => ?_⟩
  rcases mem_append.1 hc with hc | hc
  · unfold vacateVisited at hvacated
    split at hvacated
    · cases hvacated
      cases hc
    · split at hvacated
      · exact keepsPolicy_vacated hvacated change hc
      · cases hvacated
        cases hc
  · split at hc
    · rw [mem_singleton.1 hc]
      exact keepsPolicy_none
    · cases hc

/-- A release. -/
theorem keepsPolicies_disconnectReleased {released : ReleasedIdentity} {t : MyRoomTransition U MyRoomDisconnectOutcome}
    (h : hub.disconnectReleased released = .ok t) : hub.KeepsPolicies t := by
  unfold disconnectReleased at h
  simp only [bind_eq_ok] at h
  obtain ⟨hasRole, -, h⟩ := h
  split at h
  · simp only [bind_eq_ok] at h
    obtain ⟨canonical, -, _, -, h⟩ := h
    exact keepsPolicies_disconnect h
  · exact keepsPolicies_nil (Nat.le_refl _) h

/-- A change of the information of a room. -/
theorem keepsPolicies_updateOwnerInfo {identity : IdentityBinding} {info : MyRoomInfo}
    {t : MyRoomTransition U OwnerInfoUpdate} (h : hub.updateOwnerInfo identity info = .ok t) : hub.KeepsPolicies t := by
  unfold updateOwnerInfo at h
  simp only [bind_eq_ok] at h
  obtain ⟨_, -, membership, -, _, -, next, hnext, room, -, h⟩ := h
  have hnext := nextRevision_eq_ok hnext
  cases transition_eq_ok h
  refine ⟨by simp only [hnext]; omega, fun change hc => ?_⟩
  rw [mem_singleton.1 hc]
  rintro _ ⟨⟩
  exact .inr ⟨by simp only [hnext]; omega, Nat.le_refl _⟩

/-- Replaced presentations. -/
theorem keepsPolicy_replaceRoles {next : Nat} {userNo : UserNo}
    {freshMember : MyRoomParticipant U → Except MyRoomHubError (Option (MyRoomParticipant U))}
    {freshOwner : MyRoomState U → Except MyRoomHubError (Option (MyRoomParticipant U))}
    {rooms : List (Change UserNo (MyRoomState U))} (h : hub.replaceRoles userNo freshMember freshOwner = .ok rooms) :
    ∀ change ∈ rooms, hub.KeepsPolicy next change := by
  unfold replaceRoles at h
  simp only [bind_eq_ok] at h
  obtain ⟨_, -, member, hmember, owner, howner, h⟩ := h
  cases h
  intro change hc
  rcases mem_append.1 hc with hc | hc
  · unfold replaceMembership at hmember
    split at hmember
    · cases hmember
      cases hc
    unfold replaceMemberRole at hmember
    simp only [bind_eq_ok] at hmember
    obtain ⟨room, hroom, _, -, replacement, -, hmember⟩ := hmember
    split at hmember
    · cases hmember
      cases hc
    · obtain ⟨room', hroom', hmember⟩ := RunsAux.map_eq_ok hmember
      subst hmember
      rw [mem_singleton.1 hc]
      exact keepsPolicy_of_same (orElse_eq_ok.1 hroom) (samePolicy_replaceParticipant (mapError_eq_ok.1 hroom'))
  · unfold replaceOwned at howner
    split at howner
    swap
    · cases howner
      cases hc
    unfold replaceOwnerRole at howner
    simp only [bind_eq_ok] at howner
    obtain ⟨room, hroom, replacement, -, howner⟩ := howner
    split at howner
    · cases howner
      cases hc
    · obtain ⟨room', hroom', howner⟩ := RunsAux.map_eq_ok howner
      subst howner
      rw [mem_singleton.1 hc]
      exact keepsPolicy_of_same (orElse_eq_ok.1 hroom) (samePolicy_replaceOwnerPresentation (mapError_eq_ok.1 hroom'))

/-- A transition of replaced presentations. -/
theorem keepsPolicies_replaced {next : Nat} {userNo : UserNo}
    {freshMember : MyRoomParticipant U → Except MyRoomHubError (Option (MyRoomParticipant U))}
    {freshOwner : MyRoomState U → Except MyRoomHubError (Option (MyRoomParticipant U))}
    {rooms : List (Change UserNo (MyRoomState U))} {generations : List (Change UserNo IdentityBinding)} {outcome : α}
    {t : MyRoomTransition U α} (hrooms : hub.replaceRoles userNo freshMember freshOwner = .ok rooms)
    (hnext : hub.nextRevision = .ok next) (h : hub.transition next rooms [] generations outcome = .ok t) :
    hub.KeepsPolicies t := by
  have hnext := nextRevision_eq_ok hnext
  cases transition_eq_ok h
  exact ⟨by simp only [hnext]; omega, keepsPolicy_replaceRoles hrooms⟩

/-- An advance. -/
theorem keepsPolicies_advanceIdentity {previous : IdentityBinding} {replacement : MyRoomParticipant U}
    {t : MyRoomTransition U IdentityAdvanceEffects} (h : hub.advanceIdentity previous replacement = .ok t) :
    hub.KeepsPolicies t := by
  unfold advanceIdentity at h
  simp only [bind_eq_ok] at h
  obtain ⟨_, -, _, -, next, hnext, rooms, hrooms, h⟩ := h
  exact keepsPolicies_replaced hrooms hnext h

/-- A transition has the same changes with another outcome. -/
theorem KeepsPolicies.map {β : Type} {t : MyRoomTransition U α} (h : hub.KeepsPolicies t) (f : α → β) :
    hub.KeepsPolicies (t.map f) := ⟨h.revision, h.rooms⟩

/-- A call that is planned. -/
theorem keepsPolicies_map {β : Type} {x : Except MyRoomHubError (MyRoomTransition U α)} {f : α → β} {t : MyRoomTransition U β}
    (h : x.map (fun t => some (t.map f)) = .ok (some t)) (hx : ∀ t', x = .ok t' → hub.KeepsPolicies t') : hub.KeepsPolicies t := by
  obtain ⟨t', ht', hmap⟩ := RunsAux.map_eq_ok h
  cases hmap
  exact (hx t' ht').map f

/-- A call that is planned if there is something to change. -/
theorem keepsPolicies_mapOption {β : Type} {x : Except MyRoomHubError (Option (MyRoomTransition U α))} {f : α → β}
    {t : MyRoomTransition U β} (h : x.map (Option.map fun t => t.map f) = .ok (some t))
    (hx : ∀ t', x = .ok (some t') → hub.KeepsPolicies t') : hub.KeepsPolicies t := by
  obtain ⟨o, ho, hmap⟩ := RunsAux.map_eq_ok h
  cases o with
  | none => cases hmap
  | some t' =>
    cases hmap
    exact (hx t' ho).map f

/-- Every call keeps the policies. -/
theorem keepsPolicies_plan {call : MyRoomCall U} {t : MyRoomTransition U MyRoomOutcome} (h : hub.plan call = .ok (some t)) :
    hub.KeepsPolicies t := by
  cases call with
  | enter member owner => exact keepsPolicies_map h fun _ => keepsPolicies_enter
  | leave identity => exact keepsPolicies_map h fun _ => keepsPolicies_leave
  | disconnect identity => exact keepsPolicies_map h fun _ => keepsPolicies_disconnect
  | disconnectReleased released => exact keepsPolicies_map h fun _ => keepsPolicies_disconnectReleased
  | updateOwnerInfo identity info => exact keepsPolicies_map h fun _ => keepsPolicies_updateOwnerInfo
  | refreshParticipant participant =>
    refine keepsPolicies_map h fun t' ht' => ?_
    unfold refreshParticipant at ht'
    simp only [bind_eq_ok] at ht'
    obtain ⟨_, -, next, hnext, rooms, hrooms, ht'⟩ := ht'
    exact keepsPolicies_replaced hrooms hnext ht'
  | refreshProfileIfTracked identity presentation =>
    refine keepsPolicies_mapOption h fun t' ht' => ?_
    unfold refreshProfileIfTracked at ht'
    simp only [bind_eq_ok] at ht'
    obtain ⟨hasRole, -, ht'⟩ := ht'
    split at ht'
    · simp only [bind_eq_ok] at ht'
      obtain ⟨_, -, next, hnext, rooms, hrooms, ht'⟩ := ht'
      obtain ⟨t'', ht'', heq⟩ := RunsAux.map_eq_ok ht'
      cases heq
      exact keepsPolicies_replaced hrooms hnext ht''
    · cases ht'
  | refreshP2pEndpointIfTracked identity port =>
    refine keepsPolicies_mapOption h fun t' ht' => ?_
    unfold refreshP2pEndpointIfTracked at ht'
    simp only [bind_eq_ok] at ht'
    obtain ⟨hasRole, -, ht'⟩ := ht'
    split at ht'
    · simp only [bind_eq_ok] at ht'
      obtain ⟨_, -, rooms, hrooms, ht'⟩ := ht'
      split at ht'
      · cases ht'
      · simp only [bind_eq_ok] at ht'
        obtain ⟨next, hnext, ht'⟩ := ht'
        obtain ⟨t'', ht'', heq⟩ := RunsAux.map_eq_ok ht'
        cases heq
        exact keepsPolicies_replaced hrooms hnext ht''
    · cases ht'
  | advanceIdentity previous replacement => exact keepsPolicies_map h fun _ => keepsPolicies_advanceIdentity
  | advanceProfiledIdentityIfTracked previous replacement presentation =>
    refine keepsPolicies_mapOption h fun t' ht' => ?_
    unfold advanceProfiledIdentityIfTracked at ht'
    simp only [bind_eq_ok] at ht'
    obtain ⟨hasRole, -, ht'⟩ := ht'
    split at ht'
    · simp only [bind_eq_ok] at ht'
      obtain ⟨participant, -, ht'⟩ := ht'
      obtain ⟨t'', ht'', heq⟩ := RunsAux.map_eq_ok ht'
      cases heq
      exact keepsPolicies_advanceIdentity ht''
    · cases ht'
  | advanceMigratedIdentityIfTracked previous replacement =>
    refine keepsPolicies_mapOption h fun t' ht' => ?_
    unfold advanceMigratedIdentityIfTracked at ht'
    simp only [bind_eq_ok] at ht'
    obtain ⟨hasRole, -, ht'⟩ := ht'
    split at ht'
    · simp only [bind_eq_ok] at ht'
      obtain ⟨_, -, _, -, next, hnext, rooms, hrooms, ht'⟩ := ht'
      obtain ⟨t'', ht'', heq⟩ := RunsAux.map_eq_ok ht'
      cases heq
      exact keepsPolicies_replaced hrooms hnext ht''
    · cases ht'

end MyRoomHub

end P5136
