import P5136.MyRoom.Audit

/-!
# Planned transitions

What a transition that is planned on a hub with the invariant is: it starts at the revision of the hub, it makes one more
revision or changes nothing, it leads to a hub with the invariant, and what it publishes of a room is the room it leads to. Here,
the parts the plans have in common, with the failures each part has.
-/

namespace P5136

open Checks Change List

/-- The failures that say that the hub disagrees with itself. -/
def MyRoomHubError.Internal : MyRoomHubError → Prop
  | .invariant _ => True
  | .transitionTooLarge _ _ _ => True
  | .roomMissing _ => True
  | _ => False

variable {U : Unicode}

/-- The publications of a room effect. -/
def MyRoomEffect.publications : MyRoomEffect → List RoomPublication
  | .updated publication => [publication]
  | .deleted _ => []

/-- The publications of an entry. -/
def MyRoomEnterOutcome.publications : MyRoomEnterOutcome → List RoomPublication
  | .reentered _ publication => [publication]
  | .moved _ previous current => (previous.map MyRoomEffect.publications).getD [] ++ [current]

/-- The publications of a disconnection. -/
def MyRoomDisconnectOutcome.publications : MyRoomDisconnectOutcome → List RoomPublication
  | .notTracked => []
  | .applied membershipRoom _ => (membershipRoom.map MyRoomEffect.publications).getD []

namespace MyRoomHub

open MyRoomHubError (Internal)

variable {α : Type} {hub : MyRoomHub U}

/-- A transition that is planned on a hub. -/
structure Planned (hub : MyRoomHub U) (transition : MyRoomTransition U α) (publications : List RoomPublication) : Prop where
  base : transition.baseRevision = hub.revision
  next : transition.nextRevision = hub.revision + 1 ∨
    (transition.nextRevision = hub.revision ∧ transition.rooms = [] ∧ transition.memberships = [] ∧ transition.generations = [])
  inv : (transition.applyTo hub).Inv
  published : ∀ publication ∈ publications, ∃ room, (transition.applyTo hub).rooms.lookup publication.owner = some room ∧
    publication = room.publication publication.owner

/-- A transition without changes leads to the same hub. -/
theorem applyTo_eq_self {transition : MyRoomTransition U α} (hnext : transition.nextRevision = hub.revision)
    (hrooms : transition.rooms = []) (hmemberships : transition.memberships = []) (hgenerations : transition.generations = []) :
    transition.applyTo hub = hub := by
  unfold MyRoomTransition.applyTo
  rw [hnext, hrooms, hmemberships, hgenerations]
  rfl

/-- The invariant of the hub that a transition leads to, by what its changes make of every key. -/
theorem inv_applyTo {transition : MyRoomTransition U α}
    (hroles : Roles (after hub.rooms transition.rooms) (after hub.memberships transition.memberships))
    (hcanonical : Canonical (after hub.rooms transition.rooms) (after hub.generations transition.generations))
    (hreferenced : ∀ userNo, (after hub.generations transition.generations userNo).isSome →
      Referenced (after hub.rooms transition.rooms) (after hub.memberships transition.memberships) userNo)
    (hcapacity : FiniteMap.size (transition.generations.foldl apply hub.generations) ≤ hub.identityCapacity.get) :
    (transition.applyTo hub).Inv := by
  have hr : (fun key => (transition.applyTo hub).rooms.lookup key) = after hub.rooms transition.rooms :=
    funext (lookup_foldl_apply _ _)
  have hm : (fun key => (transition.applyTo hub).memberships.lookup key) =
      after hub.memberships transition.memberships := funext (lookup_foldl_apply _ _)
  have hg : (fun key => (transition.applyTo hub).generations.lookup key) =
      after hub.generations transition.generations := funext (lookup_foldl_apply _ _)
  refine ⟨by rw [hr, hm]; exact hroles, by rw [hr, hg]; exact hcanonical, ?_, hcapacity⟩
  intro userNo hid
  rw [hr, hm]
  refine hreferenced userNo ?_
  rw [← hg]
  exact hid

/-- The rooms that a transition leads to. -/
theorem lookup_rooms_applyTo (transition : MyRoomTransition U α) (key : UserNo) :
    (transition.applyTo hub).rooms.lookup key = after hub.rooms transition.rooms key :=
  lookup_foldl_apply _ _ key

/-! ## Checks -/

/-- A binding is checked by comparing all of it. -/
theorem requireSameBinding_eq_ok {canonical claimed : IdentityBinding} {x : Unit} :
    requireSameBinding canonical claimed = .ok x ↔ canonical = claimed := by
  unfold requireSameBinding
  rw [bind_eq_ok]
  constructor
  · rintro ⟨-, -, h⟩
    exact ensure_eq_ok.1 h
  · rintro rfl
    exact ⟨(), by simp, by simp⟩

/-- A binding that is another one is no internal failure. -/
theorem avoids_requireSameBinding (canonical claimed : IdentityBinding) :
    Avoids Internal (requireSameBinding canonical claimed) := by
  unfold requireSameBinding
  refine Avoids.bind (avoids_ensure (.inr ?_)) fun _ _ => avoids_ensure (.inr ?_)
  · exact id
  · exact id

/-- The canonical binding is the claimed one. -/
theorem requireCanonicalIdentity_eq_ok {identity : IdentityBinding} {x : Unit} :
    hub.requireCanonicalIdentity identity = .ok x ↔ hub.generations.lookup identity.userNo = some identity := by
  unfold requireCanonicalIdentity
  rw [bind_eq_ok]
  simp only [orElse_eq_ok, requireSameBinding_eq_ok]
  constructor
  · rintro ⟨canonical, hid, rfl⟩
    exact hid
  · exact fun hid => ⟨identity, hid, rfl⟩

/-- The check of a tracked user is no internal failure. -/
theorem avoids_requireCanonicalIdentity {identity : IdentityBinding}
    (h : (hub.generations.lookup identity.userNo).isSome) :
    Avoids Internal (hub.requireCanonicalIdentity identity) :=
  Avoids.bind (avoids_orElse (.inl h)) fun canonical _ => avoids_requireSameBinding canonical identity

/-- A tracked user stands where its membership says. -/
theorem requireExactMember_ok (h : hub.Inv) {identity : IdentityBinding} {membership : MyRoomMembership}
    (hid : hub.generations.lookup identity.userNo = some identity)
    (hm : hub.memberships.lookup identity.userNo = some membership) :
    hub.requireExactMember identity membership = .ok () := by
  obtain ⟨owner, slot⟩ := membership
  obtain ⟨room, participant, hroom, hp, hu, hcanonical⟩ := h.of_membership hm
  rw [hid] at hcanonical
  cases hcanonical
  have hsame := (requireSameBinding_eq_ok (x := ())).2 (rfl : participant.identity = participant.identity)
  simp only [requireExactMember, MyRoomHub.room, hroom, hp, hsame, orElse, ensure, bind, Except.bind, if_true]

/-- The membership of a tracked member. -/
theorem membershipExact_eq_ok {identity : IdentityBinding} {membership : MyRoomMembership}
    (h : hub.membershipExact identity = .ok membership) :
    hub.generations.lookup identity.userNo = some identity ∧ hub.memberships.lookup identity.userNo = some membership := by
  unfold membershipExact at h
  obtain ⟨_, hid, h⟩ := bind_eq_ok.1 h
  obtain ⟨mapped, hm, h⟩ := bind_eq_ok.1 h
  obtain ⟨-, -, h⟩ := bind_eq_ok.1 h
  cases h
  exact ⟨requireCanonicalIdentity_eq_ok.1 hid, orElse_eq_ok.1 hm⟩

/-- The membership of a tracked user is found without an internal failure. -/
theorem avoids_membershipExact (h : hub.Inv) {identity : IdentityBinding}
    (htracked : (hub.generations.lookup identity.userNo).isSome) :
    Avoids Internal (hub.membershipExact identity) := by
  refine Avoids.bind (avoids_requireCanonicalIdentity htracked) fun _ hid => ?_
  refine Avoids.bind (avoids_orElse (.inr id)) fun membership hm => ?_
  rw [requireExactMember_ok h (requireCanonicalIdentity_eq_ok.1 hid) (orElse_eq_ok.1 hm)]
  exact avoids_ok _

/-- A hub has a binding exactly for the users with a role, so the search for a role does not fail. -/
theorem hasRole_eq (h : hub.Inv) (userNo : UserNo) :
    hub.hasRole userNo = .ok ((hub.memberships.lookup userNo).isSome || (hub.rooms.lookup userNo).isSome) := by
  unfold hasRole
  rw [bind_eq_ok]
  refine ⟨(), ?_, rfl⟩
  rw [ensure_eq_ok]
  rintro ⟨hnone, hsome⟩
  rcases h.referenced userNo hsome with href | href
  · simp [href] at hnone
  · simp [href] at hnone

/-- The next revision is one more. -/
theorem nextRevision_eq_ok {next : Nat} (h : hub.nextRevision = .ok next) : next = hub.revision + 1 := by
  have := orElse_eq_ok.1 h
  exact (Checked.add_eq_some.1 this).1.symm

/-- The end of the revisions is no internal failure. -/
theorem avoids_nextRevision : Avoids Internal hub.nextRevision := avoids_orElse (.inr id)

/-- A transition that is built has the changes it was built from. -/
theorem transition_eq_ok {nextRevision : Nat} {rooms : List (Change UserNo (MyRoomState U))}
    {memberships : List (Change UserNo MyRoomMembership)} {generations : List (Change UserNo IdentityBinding)} {outcome : α}
    {t : MyRoomTransition U α} (h : hub.transition nextRevision rooms memberships generations outcome = .ok t) :
    t = ⟨hub.revision, nextRevision, rooms, memberships, generations, outcome⟩ := by
  unfold transition at h
  obtain ⟨-, -, h⟩ := bind_eq_ok.1 h
  cases h
  rfl

/-- A transition of few enough changes can be built. -/
theorem avoids_transition {nextRevision : Nat} {rooms : List (Change UserNo (MyRoomState U))}
    {memberships : List (Change UserNo MyRoomMembership)} {generations : List (Change UserNo IdentityBinding)} {outcome : α}
    (hrooms : rooms.length ≤ 2) (hmemberships : memberships.length ≤ 8) (hgenerations : generations.length ≤ 9) :
    Avoids Internal (hub.transition nextRevision rooms memberships generations outcome) := by
  refine Avoids.bind (avoids_ensure (.inl ?_)) fun _ _ => avoids_pure _
  simp only [maxTransitionRooms, maxTransitionMemberships, myroomSlotCount, maxTransitionGenerations]
  omega

/-- A transition without changes can be built, and is planned. -/
theorem planned_nothing (h : hub.Inv) {outcome : α} {t : MyRoomTransition U α}
    (ht : hub.transition hub.revision [] [] [] outcome = .ok t) : t.outcome = outcome ∧ t.applyTo hub = hub ∧
      (∀ publications, (∀ publication ∈ publications, ∃ room, hub.rooms.lookup publication.owner = some room ∧
        publication = room.publication publication.owner) → Planned hub t publications) := by
  cases transition_eq_ok ht
  have hself : MyRoomTransition.applyTo ⟨hub.revision, hub.revision, [], [], [], outcome⟩ hub = hub :=
    applyTo_eq_self rfl rfl rfl rfl
  exact ⟨rfl, hself, fun publications hp => ⟨rfl, .inr ⟨rfl, rfl, rfl, rfl⟩, by rw [hself]; exact h, by rw [hself]; exact hp⟩⟩

/-! ## Bindings that go -/

/-- The changes take out the bindings of the users in a list that no role refers to any more. -/
structure Prunes (hub : MyRoomHub U) (rooms : List (Change UserNo (MyRoomState U)))
    (memberships : List (Change UserNo MyRoomMembership)) (users : List UserNo)
    (changes : List (Change UserNo IdentityBinding)) : Prop where
  deletes : ∀ change ∈ changes, change.value = none ∧ hub.userReferencedAfter change.key rooms memberships = false
  covers : ∀ userNo ∈ users, (hub.generations.lookup userNo).isSome → hub.userReferencedAfter userNo rooms memberships = false →
    userNo ∈ changes.map key
  length : changes.length ≤ users.length

variable {rooms : List (Change UserNo (MyRoomState U))} {memberships : List (Change UserNo MyRoomMembership)}

/-- One more user. -/
theorem Prunes.push {users : List UserNo} {changes : List (Change UserNo IdentityBinding)}
    (h : Prunes hub rooms memberships users changes) (userNo : UserNo) :
    Prunes hub rooms memberships (users ++ [userNo]) (hub.pushGenerationPrune changes userNo rooms memberships) := by
  unfold pushGenerationPrune
  have hlength : (users ++ [userNo]).length = users.length + 1 := by simp
  split
  · rename_i hnamed
    refine ⟨h.deletes, fun user huser hsome href => ?_, by have := h.length; omega⟩
    rcases mem_append.1 huser with huser | huser
    · exact h.covers user huser hsome href
    · obtain ⟨change, hc, hk⟩ := any_eq_true.1 hnamed
      rw [mem_singleton.1 huser]
      exact mem_map.2 ⟨change, hc, of_decide_eq_true hk⟩
  · split
    · rename_i hgone
      obtain ⟨-, hgone⟩ := Bool.and_eq_true_iff.1 hgone
      refine ⟨fun change hc => ?_, fun user huser hsome href => ?_, by have := h.length; simp; omega⟩
      · rcases mem_append.1 hc with hc | hc
        · exact h.deletes change hc
        · rw [mem_singleton.1 hc]
          exact ⟨rfl, by simpa using hgone⟩
      · rw [map_append, mem_append]
        rcases mem_append.1 huser with huser | huser
        · exact .inl (h.covers user huser hsome href)
        · exact .inr (by rw [mem_singleton.1 huser]; exact mem_singleton_self _)
    · rename_i hkept
      refine ⟨h.deletes, fun user huser hsome href => ?_, by have := h.length; omega⟩
      rcases mem_append.1 huser with huser | huser
      · exact h.covers user huser hsome href
      · rw [mem_singleton.1 huser] at hsome href
        rw [hsome, href] at hkept
        exact absurd rfl hkept

/-- All users of a list. -/
theorem Prunes.foldl {users : List UserNo} {changes : List (Change UserNo IdentityBinding)}
    (h : Prunes hub rooms memberships users changes) (more : List UserNo) :
    Prunes hub rooms memberships (users ++ more)
      (more.foldl (fun changes userNo => hub.pushGenerationPrune changes userNo rooms memberships) changes) := by
  induction more generalizing users changes with
  | nil => rwa [append_nil]
  | cons userNo more ih =>
    have := ih (h.push userNo)
    rwa [append_assoc] at this

/-- No user. -/
theorem Prunes.nil (hub : MyRoomHub U) (rooms : List (Change UserNo (MyRoomState U)))
    (memberships : List (Change UserNo MyRoomMembership)) : Prunes hub rooms memberships [] [] := by
  refine ⟨?_, ?_, Nat.le_refl 0⟩
  · intro change hc
    cases hc
  · intro userNo huser
    cases huser

/-- Whether a role refers to a user after the changes. -/
theorem userReferencedAfter_iff {userNo : UserNo} : hub.userReferencedAfter userNo rooms memberships = true ↔
    Referenced (after hub.rooms rooms) (after hub.memberships memberships) userNo := by
  unfold userReferencedAfter Referenced
  exact Bool.or_eq_true_iff

/-- When roles are given up and the bindings of all users that may lose their last one are taken out if they did, the hub keeps
its invariant. -/
theorem inv_of_shrinks (h : hub.Inv) {transition : MyRoomTransition U α} {users : List UserNo}
    (hshrinks : Shrinks (fun key => hub.rooms.lookup key) (fun key => hub.memberships.lookup key)
      (after hub.rooms transition.rooms) (after hub.memberships transition.memberships))
    (hprunes : Prunes hub transition.rooms transition.memberships users transition.generations)
    (hothers : ∀ userNo, userNo ∉ users →
      Referenced (fun key => hub.rooms.lookup key) (fun key => hub.memberships.lookup key) userNo →
      Referenced (after hub.rooms transition.rooms) (after hub.memberships transition.memberships) userNo) :
    (transition.applyTo hub).Inv := by
  have hafter := after_of_deletes (m := hub.generations) fun change hc => (hprunes.deletes change hc).1
  have hkept : ∀ userNo,
      Referenced (after hub.rooms transition.rooms) (after hub.memberships transition.memberships) userNo →
      after hub.generations transition.generations userNo = hub.generations.lookup userNo := by
    intro userNo href
    rw [hafter, if_neg]
    intro hmem
    obtain ⟨change, hc, rfl⟩ := mem_map.1 hmem
    have := (hprunes.deletes change hc).2
    rw [userReferencedAfter_iff.2 href] at this
    cases this
  refine inv_applyTo (hshrinks.roles h.roles) ?_ ?_ ?_
  · exact (hshrinks.canonical h.canonical).congr (hshrinks.roles h.roles) hkept
  · intro userNo hsome
    by_contra href
    rw [hafter] at hsome
    split at hsome
    · cases hsome
    · rename_i hmem
      by_cases huser : userNo ∈ users
      · refine hmem (hprunes.covers userNo huser hsome ?_)
        rw [Bool.eq_false_iff]
        exact fun hc => href (userReferencedAfter_iff.1 hc)
      · exact href (hothers userNo huser (h.referenced userNo hsome))
  · refine le_trans (FiniteMap.size_le_of_lookup fun key hsome => ?_) h.capacity
    rw [lookup_foldl_apply, hafter] at hsome
    split at hsome
    · cases hsome
    · exact hsome

end MyRoomHub

end P5136
