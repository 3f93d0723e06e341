import P5136.MyRoom.Plans

/-!
# Giving up roles

A member that leaves vacates its slot; a user that disconnects vacates the slot it visits and closes the room it owns. Then the
bindings of the users that lost their last role go.
-/

namespace P5136

namespace MyRoomHub

open Checks MyRoomState List

open MyRoomHubError (Internal)

variable {U : Unicode} {hub : MyRoomHub U}

/-! ## Vacating a slot -/

/-- What is left of a room after a member vacated its slot. -/
theorem vacate_eq_ok {membership : MyRoomMembership} {userNo : UserNo} {change : Change UserNo (MyRoomState U)}
    {effect : MyRoomEffect} (h : hub.vacate membership userNo = .ok (change, effect)) :
    ∃ room room', hub.rooms.lookup membership.owner = some room ∧
      room.removeParticipant membership.slot userNo = .ok room' ∧
      change = ⟨membership.owner, if room'.mappedCount = 0 then none else some room'⟩ ∧
      effect = (if room'.mappedCount = 0 then .deleted membership.owner else .updated (room'.publication membership.owner)) := by
  unfold vacate at h
  obtain ⟨room, hroom, h⟩ := bind_eq_ok.1 h
  obtain ⟨room', hremove, h⟩ := bind_eq_ok.1 h
  have hremoved : room.removeParticipant membership.slot userNo = .ok room' := by
    cases hr : room.removeParticipant membership.slot userNo with
    | error e =>
      rw [hr] at hremove
      cases hremove
    | ok other =>
      rw [hr] at hremove
      cases hremove
      rfl
  refine ⟨room, room', orElse_eq_ok.1 hroom, hremoved, ?_⟩
  split at h
  · rename_i hcount
    cases h
    rw [if_pos hcount, if_pos hcount]
    exact ⟨rfl, rfl⟩
  · rename_i hcount
    cases h
    rw [if_neg hcount, if_neg hcount]
    exact ⟨rfl, rfl⟩

/-- A member can vacate its slot. -/
theorem vacate_isOk (h : hub.Inv) {membership : MyRoomMembership} {userNo : UserNo}
    (hm : hub.memberships.lookup userNo = some membership) : ∃ vacated, hub.vacate membership userNo = .ok vacated := by
  obtain ⟨owner, slot⟩ := membership
  obtain ⟨room, participant, hroom, hp, rfl, -⟩ := h.of_membership hm
  obtain ⟨room', hremove⟩ := removeParticipant_isOk hp
  simp only [vacate, MyRoomHub.room, hroom, hremove, orElse, mapError_ok, bind, Except.bind]
  split
  · exact ⟨_, rfl⟩
  · exact ⟨_, rfl⟩

/-- Vacating a slot gives up a role. -/
theorem shrinks_vacate (h : hub.Inv) {membership : MyRoomMembership} {userNo : UserNo}
    {change : Change UserNo (MyRoomState U)} {effect : MyRoomEffect} (hm : hub.memberships.lookup userNo = some membership)
    (hv : hub.vacate membership userNo = .ok (change, effect)) {rooms' : UserNo → Option (MyRoomState U)}
    {memberships' : UserNo → Option MyRoomMembership}
    (hrooms' : ∀ key, rooms' key = if key = change.key then change.value else hub.rooms.lookup key)
    (hmemberships' : ∀ key, memberships' key = if key = userNo then none else hub.memberships.lookup key) :
    Shrinks (fun key => hub.rooms.lookup key) (fun key => hub.memberships.lookup key) rooms' memberships' := by
  obtain ⟨room, room', hroom, hremove, rfl, -⟩ := vacate_eq_ok hv
  exact h.roles.vacate hm hroom hremove hrooms' hmemberships'

/-- The room that a vacated slot leaves is published as it is. -/
theorem vacate_published {membership : MyRoomMembership} {userNo : UserNo} {change : Change UserNo (MyRoomState U)}
    {effect : MyRoomEffect} (hv : hub.vacate membership userNo = .ok (change, effect)) {publication : RoomPublication}
    (hp : publication ∈ effect.publications) : publication.owner = membership.owner ∧
      ∃ room', change = ⟨membership.owner, some room'⟩ ∧ publication = room'.publication membership.owner := by
  obtain ⟨room, room', -, -, rfl, rfl⟩ := vacate_eq_ok hv
  split at hp
  · cases hp
  · rename_i hcount
    rw [MyRoomEffect.publications, mem_singleton] at hp
    exact ⟨by rw [hp]; rfl, room', by rw [if_neg hcount], hp⟩

/-- The room of a deleted slot is gone. -/
theorem vacate_effect {membership : MyRoomMembership} {userNo : UserNo} {change : Change UserNo (MyRoomState U)}
    {effect : MyRoomEffect} (hv : hub.vacate membership userNo = .ok (change, effect)) :
    change.key = membership.owner ∧
      ((effect = .deleted membership.owner ∧ change.value = none) ∨
        ∃ room', effect = .updated (room'.publication membership.owner) ∧ change.value = some room') := by
  obtain ⟨room, room', -, -, rfl, rfl⟩ := vacate_eq_ok hv
  refine ⟨rfl, ?_⟩
  by_cases hcount : room'.mappedCount = 0
  · exact .inl ⟨if_pos hcount, if_pos hcount⟩
  · exact .inr ⟨room', if_neg hcount, if_neg hcount⟩

/-! ## Leaving -/

theorem planned_leave (h : hub.Inv) {identity : IdentityBinding} {t : MyRoomTransition U MyRoomEffect}
    (ht : hub.leave identity = .ok t) : Planned hub t t.outcome.publications := by
  unfold leave at ht
  obtain ⟨membership, hexact, ht⟩ := bind_eq_ok.1 ht
  obtain ⟨next, hnext, ht⟩ := bind_eq_ok.1 ht
  obtain ⟨⟨change, effect⟩, hv, ht⟩ := bind_eq_ok.1 ht
  obtain ⟨-, hm⟩ := membershipExact_eq_ok hexact
  obtain ⟨hkey, -⟩ := vacate_effect hv
  cases transition_eq_ok ht
  have hrooms : ∀ key, Change.after hub.rooms [change] key = if key = change.key then change.value else hub.rooms.lookup key :=
    Change.after_singleton hub.rooms change
  have hmemberships : ∀ key, Change.after hub.memberships [⟨identity.userNo, none⟩] key =
      if key = identity.userNo then none else hub.memberships.lookup key :=
    Change.after_singleton hub.memberships ⟨identity.userNo, none⟩
  refine ⟨rfl, .inl (nextRevision_eq_ok hnext), ?_, ?_⟩
  · refine inv_of_shrinks h (shrinks_vacate h hm hv hrooms hmemberships)
      ((Prunes.nil _ _ _).foldl [identity.userNo, membership.owner]) ?_
    intro userNo huser href
    simp only [nil_append, mem_cons, not_mem_nil, or_false, not_or] at huser
    rcases href with href | href
    · exact .inl (by rw [hmemberships, if_neg huser.1]; exact href)
    · exact .inr (by rw [hrooms, hkey, if_neg huser.2]; exact href)
  · intro publication hp
    obtain ⟨hown, room', rfl, rfl⟩ := vacate_published hv hp
    refine ⟨room', ?_, rfl⟩
    rw [lookup_rooms_applyTo]
    exact (hrooms _).trans (if_pos rfl)

theorem avoids_leave (h : hub.Inv) {identity : IdentityBinding}
    (htracked : (hub.generations.lookup identity.userNo).isSome) : Avoids Internal (hub.leave identity) := by
  refine Avoids.bind (avoids_membershipExact h htracked) fun membership hexact => ?_
  obtain ⟨-, hm⟩ := membershipExact_eq_ok hexact
  obtain ⟨vacated, hv⟩ := vacate_isOk h hm
  refine Avoids.bind avoids_nextRevision fun next _ => ?_
  rw [hv]
  refine Avoids.bind (avoids_ok _) fun vacated' _ => ?_
  have hlength := ((Prunes.nil hub [vacated'.1] [⟨identity.userNo, none⟩]).foldl [identity.userNo, membership.owner]).length
  refine avoids_transition ?_ ?_ ?_
  · simp
  · simp
  · exact le_trans hlength (by simp)

/-! ## Closing the owned room -/

/-- Taking out the memberships of some users: each is named once, and nothing else is. -/
theorem foldl_pushMembershipDelete (users : List IdentityBinding) {changes : List (Change UserNo MyRoomMembership)}
    (hchanges : ∀ change ∈ changes, change.value = none) :
    (∀ change ∈ users.foldl (fun changes user => pushMembershipDelete changes user.userNo) changes, change.value = none) ∧
      (∀ key, key ∈ (users.foldl (fun changes user => pushMembershipDelete changes user.userNo) changes).map Change.key ↔
        key ∈ changes.map Change.key ∨ key ∈ users.map (·.userNo)) ∧
      (users.foldl (fun changes user => pushMembershipDelete changes user.userNo) changes).length ≤
        changes.length + users.length := by
  induction users generalizing changes with
  | nil => exact ⟨hchanges, fun key => by simp, Nat.le_refl _⟩
  | cons user users ih =>
    have hpush : (∀ change ∈ pushMembershipDelete changes user.userNo, change.value = none) ∧
        (∀ key, key ∈ (pushMembershipDelete changes user.userNo).map Change.key ↔
          key ∈ changes.map Change.key ∨ key = user.userNo) ∧
        (pushMembershipDelete changes user.userNo).length ≤ changes.length + 1 := by
      unfold pushMembershipDelete
      split
      · rename_i hnamed
        obtain ⟨change, hc, hk⟩ := any_eq_true.1 hnamed
        refine ⟨hchanges, fun key => ⟨.inl, ?_⟩, Nat.le_succ _⟩
        rintro (hkey | rfl)
        · exact hkey
        · exact mem_map.2 ⟨change, hc, of_decide_eq_true hk⟩
      · refine ⟨?_, fun key => by simp, by simp⟩
        intro change hc
        rcases mem_append.1 hc with hc | hc
        · exact hchanges change hc
        · rw [mem_singleton.1 hc]
    obtain ⟨hnone, hkeys, hlength⟩ := hpush
    obtain ⟨hnone', hkeys', hlength'⟩ := ih hnone
    refine ⟨hnone', fun key => ?_, ?_⟩
    · rw [foldl_cons, hkeys', hkeys, map_cons, mem_cons, or_assoc]
    · rw [foldl_cons, length_cons]
      omega

/-- The users that are ejected from a room that closes are its members but the owner. -/
theorem mem_ejected (h : hub.Inv) {identity : IdentityBinding} {room : MyRoomState U}
    (hroom : hub.rooms.lookup identity.userNo = some room) {userNo : UserNo} :
    userNo ∈ (closeOwned identity room).ejected.map (·.userNo) ↔
      userNo ≠ identity.userNo ∧ ∃ slot, hub.memberships.lookup userNo = some ⟨identity.userNo, slot⟩ := by
  simp only [closeOwned, map_map, mem_map, mem_filter, Function.comp_apply, ne_eq, decide_not,
    Bool.not_eq_true', decide_eq_false_iff_not]
  constructor
  · rintro ⟨participant, ⟨hmem, hne⟩, rfl⟩
    obtain ⟨slot, hp⟩ := mem_mappedParticipants.1 hmem
    exact ⟨hne, slot, h.roles.member ⟨room, hroom, hp⟩⟩
  · rintro ⟨hne, slot, hm⟩
    obtain ⟨there, participant, hthere, hp, rfl, -⟩ := h.of_membership hm
    rw [hroom] at hthere
    cases hthere
    exact ⟨participant, ⟨mem_mappedParticipants.2 ⟨slot, hp⟩, hne⟩, rfl⟩

/-- At most seven users are ejected: the owner is not. -/
theorem length_ejected_le (h : hub.Inv) {identity : IdentityBinding} {room : MyRoomState U}
    (hroom : hub.rooms.lookup identity.userNo = some room) : (closeOwned identity room).ejected.length ≤ 7 := by
  have howner : room.owner.identity.userNo = identity.userNo := (h.roles.sound _ _ hroom).owner
  have hpresent : (if room.ownerPresent then [room.owner] else []).filter
      (fun participant => decide (participant.identity.userNo ≠ identity.userNo)) = [] := by
    split
    · simp [howner]
    · rfl
  unfold closeOwned mappedParticipants
  rw [length_map, filter_append, hpresent, nil_append]
  exact le_trans (length_filter_le _ _) room.length_visitors_le

/-- The members of the room that is to be closed point back to it. -/
theorem checkOwnedRoom_ok (h : hub.Inv) {identity : IdentityBinding}
    (hid : hub.generations.lookup identity.userNo = some identity) : hub.checkOwnedRoom identity = .ok () := by
  unfold checkOwnedRoom
  cases hroom : hub.rooms.lookup identity.userNo with
  | none => rfl
  | some room =>
    have howner : room.owner.identity = identity := by
      have := h.canonical.owners _ _ hroom
      rw [hid] at this
      cases this
      rfl
    have hsame := (requireSameBinding_eq_ok (x := ())).2 howner
    have hmembers : all (hub.checkOwnedMember identity.userNo) room.mappedParticipants = .ok () := by
      refine all_eq_ok.2 fun participant hmem => ?_
      obtain ⟨slot, hp⟩ := mem_mappedParticipants.1 hmem
      have hm : hub.memberships.lookup participant.identity.userNo = some ⟨identity.userNo, slot⟩ :=
        h.roles.member ⟨room, hroom, hp⟩
      simp [checkOwnedMember, hm, orElse, ensure, bind, Except.bind]
    simp only [hsame, hmembers, bind, Except.bind]

/-- A user that disconnects vacates the slot it visits, but not that of the room that is to be closed. -/
theorem vacateVisited_eq_ok {identity : IdentityBinding} {membership : Option MyRoomMembership} {owned : Option (MyRoomState U)}
    {vacated : Option (Change UserNo (MyRoomState U) × MyRoomEffect)}
    (h : hub.vacateVisited identity membership owned = .ok vacated) :
    (vacated = none ∧ ∀ mapped, membership = some mapped → mapped.owner = identity.userNo ∧ owned.isSome) ∨
      ∃ mapped change effect, membership = some mapped ∧ vacated = some (change, effect) ∧
        (mapped.owner ≠ identity.userNo ∨ owned = none) ∧
        hub.vacate mapped identity.userNo = .ok (change, effect) := by
  unfold vacateVisited at h
  cases membership with
  | none =>
    cases h
    exact .inl ⟨rfl, fun mapped hm => by cases hm⟩
  | some mapped =>
    simp only at h
    split at h
    · rename_i hc
      cases hv : hub.vacate mapped identity.userNo with
      | error e =>
        rw [hv] at h
        cases h
      | ok result =>
        rw [hv] at h
        cases h
        exact .inr ⟨mapped, result.1, result.2, rfl, rfl, hc.imp_right Option.isNone_iff_eq_none.1, hv⟩
    · rename_i hc
      cases h
      rw [not_or, not_not] at hc
      refine .inl ⟨rfl, fun other hother => ?_⟩
      cases hother
      exact ⟨hc.1, by simpa [Option.isNone_iff_eq_none, Option.isSome_iff_ne_none] using hc.2⟩

/-- The slot that is vacated is not one of the room of the user. -/
theorem visited_owner_ne (h : hub.Inv) {identity : IdentityBinding} {mapped : MyRoomMembership}
    (hm : hub.memberships.lookup identity.userNo = some mapped)
    (hother : mapped.owner ≠ identity.userNo ∨ hub.rooms.lookup identity.userNo = none) :
    mapped.owner ≠ identity.userNo := by
  rcases hother with hne | hnone
  · exact hne
  · intro hc
    obtain ⟨owner, slot⟩ := mapped
    obtain ⟨room, -, hroom, -⟩ := h.of_membership hm
    simp only at hc
    rw [hc, hnone] at hroom
    cases hroom

/-- What is left of the rooms and the memberships when a user vacated the slot it visits and closed its own room. -/
theorem shrinks_disconnect (h : hub.Inv) {identity : IdentityBinding}
    {vacated : Option (Change UserNo (MyRoomState U) × MyRoomEffect)}
    (hv : hub.vacateVisited identity (hub.memberships.lookup identity.userNo) (hub.rooms.lookup identity.userNo) = .ok vacated)
    {memberships' : UserNo → Option MyRoomMembership}
    (hmemberships' : ∀ key mapped, memberships' key = some mapped ↔ hub.memberships.lookup key = some mapped ∧
      key ≠ identity.userNo ∧ ((hub.rooms.lookup identity.userNo).isSome → mapped.owner ≠ identity.userNo)) :
    Shrinks (fun key => hub.rooms.lookup key) (fun key => hub.memberships.lookup key)
      (Change.after hub.rooms ((vacated.map (·.1)).toList ++
        (if (hub.rooms.lookup identity.userNo).isSome then [⟨identity.userNo, none⟩] else []))) memberships' := by
  rcases vacateVisited_eq_ok hv with ⟨rfl, hown⟩ | ⟨mapped, change, effect, hm, rfl, hother, hvacate⟩
  · cases hroom : hub.rooms.lookup identity.userNo with
    | none =>
      -- the user has no role at all
      have hnone : hub.memberships.lookup identity.userNo = none := by
        cases hm : hub.memberships.lookup identity.userNo with
        | none => rfl
        | some mapped =>
          have := (hown mapped hm).2
          rw [hroom] at this
          cases this
      have hsame : memberships' = fun key => hub.memberships.lookup key := by
        funext key
        refine Option.ext fun mapped => ?_
        rw [hmemberships', hroom]
        refine ⟨fun hc => hc.1, fun hc => ⟨hc, ?_, fun hf => by cases hf⟩⟩
        rintro rfl
        rw [hnone] at hc
        cases hc
      rw [hsame]
      exact Shrinks.refl h.roles
    | some room =>
      refine h.roles.close identity.userNo (fun key => Change.after_singleton _ _ key) fun key mapped => ?_
      rw [hmemberships', hroom]
      refine and_congr_right fun hm => ⟨fun hc => hc.2 rfl, fun hne => ⟨?_, fun _ => hne⟩⟩
      rintro rfl
      exact hne (hown mapped hm).1
  · have hfirst : Shrinks (fun key => hub.rooms.lookup key) (fun key => hub.memberships.lookup key)
        (fun key => if key = change.key then change.value else hub.rooms.lookup key)
        (fun key => if key = identity.userNo then none else hub.memberships.lookup key) :=
      shrinks_vacate h hm hvacate (fun key => rfl) fun key => rfl
    cases hroom : hub.rooms.lookup identity.userNo with
    | none =>
      have hsame : memberships' = fun key => if key = identity.userNo then none else hub.memberships.lookup key := by
        funext key
        refine Option.ext fun mapped => ?_
        rw [hmemberships', hroom]
        split
        · rename_i hk
          exact iff_of_false (fun hc => hc.2.1 hk) (fun hc => by cases hc)
        · rename_i hk
          exact ⟨fun hc => hc.1, fun hc => ⟨hc, hk, fun hf => by cases hf⟩⟩
      rw [hsame]
      have hafter : Change.after hub.rooms [change] =
          fun key => if key = change.key then change.value else hub.rooms.lookup key := funext (Change.after_singleton _ _)
      exact hafter ▸ hfirst
    | some room =>
      refine hfirst.trans ((hfirst.roles h.roles).close identity.userNo
        (fun key => Change.after_pair _ _ _ key) fun key mapped => ?_)
      rw [hmemberships', hroom]
      by_cases hk : key = identity.userNo
      · rw [if_pos hk]
        exact iff_of_false (fun hc => hc.2.1 hk) (fun hc => by cases hc.1)
      · rw [if_neg hk]
        exact and_congr_right fun _ => ⟨fun hc => hc.2 rfl, fun hc => ⟨hk, fun _ => hc⟩⟩

/-- The memberships that a disconnection leaves. -/
theorem after_disconnect (h : hub.Inv) (identity : IdentityBinding) {memberships : List (Change UserNo MyRoomMembership)}
    (hmemberships : memberships =
      ((((hub.rooms.lookup identity.userNo).map (closeOwned identity)).map (·.ejected)).getD []).foldl
        (fun changes participant => pushMembershipDelete changes participant.userNo)
        (if (hub.memberships.lookup identity.userNo).isSome then [⟨identity.userNo, none⟩] else []))
    (key : UserNo) (mapped : MyRoomMembership) :
    Change.after hub.memberships memberships key = some mapped ↔ hub.memberships.lookup key = some mapped ∧
      key ≠ identity.userNo ∧ ((hub.rooms.lookup identity.userNo).isSome → mapped.owner ≠ identity.userNo) := by
  have hfirst : ∀ change ∈ (if (hub.memberships.lookup identity.userNo).isSome then
      [(⟨identity.userNo, none⟩ : Change UserNo MyRoomMembership)] else []), change.value = none := by
    intro change hc
    split at hc
    · rw [mem_singleton.1 hc]
    · cases hc
  obtain ⟨hnone, hkeys, -⟩ := foldl_pushMembershipDelete
    ((((hub.rooms.lookup identity.userNo).map (closeOwned identity)).map (·.ejected)).getD []) hfirst
  rw [← hmemberships] at hnone hkeys
  -- the users that the first change and the ejection name
  have hself : key ∈ (if (hub.memberships.lookup identity.userNo).isSome then
      [(⟨identity.userNo, none⟩ : Change UserNo MyRoomMembership)] else []).map Change.key ↔
        key = identity.userNo ∧ (hub.memberships.lookup identity.userNo).isSome := by
    split
    · rename_i hs
      simp [hs]
    · rename_i hs
      simp [hs]
  rw [Change.after_of_deletes hnone, Option.ite_none_left_eq_some, hkeys, hself, not_or]
  constructor
  · rintro ⟨⟨hk, hejected⟩, hm⟩
    have hne : key ≠ identity.userNo := fun hc => hk ⟨hc, by rw [← hc, hm]; rfl⟩
    refine ⟨hm, hne, fun hsome hown => ?_⟩
    obtain ⟨room, hroom⟩ := Option.isSome_iff_exists.1 hsome
    rw [hroom] at hejected
    exact hejected ((mem_ejected h hroom).2 ⟨hne, mapped.slot, by rw [hm, ← hown]⟩)
  · rintro ⟨hm, hk, hown⟩
    refine ⟨⟨fun hc => hk hc.1, fun hejected => ?_⟩, hm⟩
    cases hroom : hub.rooms.lookup identity.userNo with
    | none =>
      rw [hroom] at hejected
      cases hejected
    | some room =>
      rw [hroom] at hejected hown
      obtain ⟨-, slot, hm'⟩ := (mem_ejected h hroom).1 hejected
      rw [hm] at hm'
      cases hm'
      exact hown rfl rfl

/-- The rooms of other users after a disconnection: the visited one is as it was left, the others are as they were. -/
theorem after_rooms_disconnect {identity : IdentityBinding} (owned : Bool) (rooms : List (Change UserNo (MyRoomState U)))
    {key : UserNo} (hk : key ≠ identity.userNo) :
    Change.after hub.rooms (rooms ++ (if owned then [⟨identity.userNo, none⟩] else [])) key = Change.after hub.rooms rooms key := by
  cases owned with
  | true =>
    simp only [if_true]
    rw [Change.after_append_singleton, if_neg hk]
  | false =>
    simp only [Bool.false_eq_true, if_false]
    rw [append_nil]

/-- A disconnection is planned on the hub. -/
theorem planned_buildDisconnect (h : hub.Inv) {identity : IdentityBinding} {next : Nat} (hnext : hub.nextRevision = .ok next)
    {t : MyRoomTransition U MyRoomDisconnectOutcome} (ht : hub.buildDisconnectTransition identity
      (hub.memberships.lookup identity.userNo) (hub.rooms.lookup identity.userNo) next = .ok t) :
    Planned hub t t.outcome.publications := by
  unfold buildDisconnectTransition at ht
  obtain ⟨vacated, hv, ht⟩ := bind_eq_ok.1 ht
  cases transition_eq_ok ht
  have hafter := after_disconnect h identity rfl
  refine ⟨rfl, .inl (nextRevision_eq_ok hnext), ?_, ?_⟩
  · refine inv_of_shrinks h (shrinks_disconnect h hv hafter) ((Prunes.nil _ _ _).foldl _) ?_
    intro userNo huser href
    simp only [nil_append, cons_append, mem_cons, mem_append, not_or] at huser
    obtain ⟨hself, hejected, hdeleted⟩ := huser
    rcases href with href | href
    · -- a member that stays a member
      obtain ⟨mapped, hm⟩ : ∃ mapped, hub.memberships.lookup userNo = some mapped := Option.isSome_iff_exists.1 href
      refine .inl (Option.isSome_iff_exists.2 ⟨mapped, (hafter userNo mapped).2 ⟨hm, hself, fun hsome hown => ?_⟩⟩)
      obtain ⟨room, hroom⟩ := Option.isSome_iff_exists.1 hsome
      rw [hroom] at hejected
      exact hejected ((mem_ejected h hroom).2 ⟨hself, mapped.slot, by rw [hm, ← hown]⟩)
    · -- an owner whose room stays
      refine .inr ?_
      rw [after_rooms_disconnect _ _ hself]
      rcases vacateVisited_eq_ok hv with ⟨rfl, -⟩ | ⟨mapped, change, effect, hm, rfl, -, hvacate⟩
      · exact href
      · rw [Option.map_some, Option.toList_some, Change.after_singleton]
        split
        · rename_i hk
          obtain ⟨hkey, ⟨rfl, -⟩ | ⟨room', -, hvalue⟩⟩ := vacate_effect hvacate
          · exact absurd (mem_singleton.2 (hk.trans hkey)) hdeleted
          · rw [hvalue]
            rfl
        · exact href
  · intro publication hp
    rcases vacateVisited_eq_ok hv with ⟨rfl, -⟩ | ⟨mapped, change, effect, hm, rfl, hother, hvacate⟩
    · cases hp
    · obtain ⟨hown, room', rfl, rfl⟩ := vacate_published hvacate hp
      refine ⟨room', ?_, rfl⟩
      rw [lookup_rooms_applyTo]
      refine (after_rooms_disconnect _ _ (visited_owner_ne h hm hother)).trans ?_
      exact (Change.after_singleton _ _ _).trans (if_pos rfl)

/-- A disconnection has no internal failure. -/
theorem avoids_buildDisconnect (h : hub.Inv) {identity : IdentityBinding} {next : Nat} :
    Avoids Internal (hub.buildDisconnectTransition identity (hub.memberships.lookup identity.userNo)
      (hub.rooms.lookup identity.userNo) next) := by
  unfold buildDisconnectTransition
  refine Avoids.bind ?_ fun vacated hv => ?_
  · unfold vacateVisited
    split
    · exact avoids_ok _
    · rename_i mapped hm
      split
      · obtain ⟨vacated, hvacate⟩ := vacate_isOk h hm
        rw [hvacate]
        exact avoids_ok _
      · exact avoids_ok _
  · have hejected : ((((hub.rooms.lookup identity.userNo).map (closeOwned identity)).map (·.ejected)).getD []).length ≤ 7 := by
      cases hroom : hub.rooms.lookup identity.userNo with
      | none => exact Nat.zero_le _
      | some room => exact length_ejected_le h hroom
    refine avoids_transition ?_ ?_ ?_
    · cases vacated <;> cases hub.rooms.lookup identity.userNo <;> simp
    · have hfirst : ∀ change ∈ (if (hub.memberships.lookup identity.userNo).isSome then
          [(⟨identity.userNo, none⟩ : Change UserNo MyRoomMembership)] else []), change.value = none := by
        intro change hc
        split at hc
        · rw [mem_singleton.1 hc]
        · cases hc
      refine le_trans (foldl_pushMembershipDelete _ hfirst).2.2 ?_
      split <;> simp only [length_cons, length_nil] <;> omega
    · refine le_trans ((Prunes.nil _ _ _).foldl _).length ?_
      rw [nil_append, length_append, length_cons, length_map]
      split <;> simp only [length_cons, length_nil] <;> omega

theorem planned_disconnect (h : hub.Inv) {identity : IdentityBinding} {t : MyRoomTransition U MyRoomDisconnectOutcome}
    (ht : hub.disconnect identity = .ok t) : Planned hub t t.outcome.publications := by
  unfold disconnect at ht
  cases hid : hub.generations.lookup identity.userNo with
  | none =>
    simp only [hid] at ht
    obtain ⟨hout, -, hplanned⟩ := planned_nothing h ht
    rw [hout]
    exact hplanned _ fun publication hp => by cases hp
  | some canonical =>
    simp only [hid] at ht
    obtain ⟨-, -, ht⟩ := bind_eq_ok.1 ht
    obtain ⟨-, -, ht⟩ := bind_eq_ok.1 ht
    obtain ⟨-, -, ht⟩ := bind_eq_ok.1 ht
    obtain ⟨-, -, ht⟩ := bind_eq_ok.1 ht
    obtain ⟨next, hnext, ht⟩ := bind_eq_ok.1 ht
    exact planned_buildDisconnect h hnext ht

theorem avoids_disconnect (h : hub.Inv) (identity : IdentityBinding) : Avoids Internal (hub.disconnect identity) := by
  unfold disconnect
  cases hid : hub.generations.lookup identity.userNo with
  | none => exact avoids_transition (Nat.zero_le _) (Nat.zero_le _) (Nat.zero_le _)
  | some canonical =>
    simp only
    refine Avoids.bind (avoids_requireSameBinding _ _) fun _ hsame => ?_
    rw [requireSameBinding_eq_ok.1 hsame] at hid
    have hmember : hub.checkMembership identity (hub.memberships.lookup identity.userNo) = .ok () := by
      cases hm : hub.memberships.lookup identity.userNo with
      | none => rfl
      | some membership => exact requireExactMember_ok h hid hm
    rw [hmember, checkOwnedRoom_ok h hid]
    refine Avoids.bind (avoids_ok _) fun _ _ => Avoids.bind (avoids_ok _) fun _ _ => ?_
    refine Avoids.bind (avoids_ensure (.inl ?_)) fun _ _ => ?_
    · rintro ⟨hnone, hnone'⟩
      rcases h.referenced identity.userNo (by rw [hid]; rfl) with href | href
      · simp [Option.isNone_iff_eq_none.1 hnone] at href
      · simp [Option.isNone_iff_eq_none.1 hnone'] at href
    · exact Avoids.bind avoids_nextRevision fun next _ => avoids_buildDisconnect h

/-- A released binding is compared by what it keeps. -/
theorem avoids_requireSameReleasedBinding (canonical : IdentityBinding) (released : ReleasedIdentity) :
    Avoids Internal (requireSameReleasedBinding canonical released) := by
  unfold requireSameReleasedBinding
  refine Avoids.bind (avoids_ensure (.inr ?_)) fun _ _ => avoids_ensure (.inr ?_)
  · exact id
  · exact id

theorem planned_disconnectReleased (h : hub.Inv) {released : ReleasedIdentity} {t : MyRoomTransition U MyRoomDisconnectOutcome}
    (ht : hub.disconnectReleased released = .ok t) : Planned hub t t.outcome.publications := by
  unfold disconnectReleased at ht
  obtain ⟨role, -, ht⟩ := bind_eq_ok.1 ht
  cases role with
  | true =>
    simp only [if_true] at ht
    obtain ⟨canonical, -, ht⟩ := bind_eq_ok.1 ht
    obtain ⟨-, -, ht⟩ := bind_eq_ok.1 ht
    exact planned_disconnect h ht
  | false =>
    obtain ⟨hout, -, hplanned⟩ := planned_nothing h ht
    rw [hout]
    exact hplanned _ fun publication hp => by cases hp

theorem avoids_disconnectReleased (h : hub.Inv) (released : ReleasedIdentity) :
    Avoids Internal (hub.disconnectReleased released) := by
  unfold disconnectReleased
  rw [hasRole_eq h]
  refine Avoids.bind (avoids_ok _) fun role hrole => ?_
  cases hrole
  split
  · rename_i href
    obtain ⟨canonical, hid, -⟩ := h.canonical_of_referenced (Bool.or_eq_true_iff.1 href)
    refine Avoids.bind (avoids_orElse (.inl (by rw [hid]; rfl))) fun canonical' _ => ?_
    exact Avoids.bind (avoids_requireSameReleasedBinding _ _) fun _ _ => avoids_disconnect h _
  · exact avoids_transition (Nat.zero_le _) (Nat.zero_le _) (Nat.zero_le _)

end MyRoomHub

end P5136
