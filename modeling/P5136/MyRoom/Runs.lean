import P5136.Lib.Transition
import P5136.MyRoom.Replacing

/-!
# Runs of the hub

Transitions are planned on the hub as it is and committed later, in any order, with other plans and commits in between. In every
state that is reached the audit succeeds, a transition that was planned before another one was committed is rejected, no plan
fails for an internal reason, but for calls on behalf of users without a role, and what is published goes to the members of the
room.
-/

namespace P5136

variable {U : Unicode}

/-- A planning call on the hub. -/
inductive MyRoomCall (U : Unicode) where
  | enter (member : MyRoomParticipant U) (owner : MyRoomOwner U)
  | leave (identity : IdentityBinding)
  | disconnect (identity : IdentityBinding)
  | disconnectReleased (released : ReleasedIdentity)
  | updateOwnerInfo (identity : IdentityBinding) (info : MyRoomInfo)
  | refreshParticipant (participant : MyRoomParticipant U)
  | refreshProfileIfTracked (identity : IdentityBinding) (presentation : MyRoomProfilePresentation)
  | refreshP2pEndpointIfTracked (identity : IdentityBinding) (port : UInt16)
  | advanceIdentity (previous : IdentityBinding) (replacement : MyRoomParticipant U)
  | advanceProfiledIdentityIfTracked (previous replacement : IdentityBinding) (presentation : MyRoomProfilePresentation)
  | advanceMigratedIdentityIfTracked (previous replacement : IdentityBinding)

/-- What a transition returns when it is committed. -/
inductive MyRoomOutcome where
  | entered (outcome : MyRoomEnterOutcome)
  | left (effect : MyRoomEffect)
  | disconnected (outcome : MyRoomDisconnectOutcome)
  | updated (update : OwnerInfoUpdate)
  | refreshed (publications : List RoomPublication)
  | silent
  | advanced (effects : IdentityAdvanceEffects)

/-- What a transition publishes of rooms. -/
def MyRoomOutcome.publications : MyRoomOutcome → List RoomPublication
  | .entered outcome => outcome.publications
  | .left effect => effect.publications
  | .disconnected outcome => outcome.publications
  | .updated _ => []
  | .refreshed publications => publications
  | .silent => []
  | .advanced effects => effects.publications

namespace MyRoomHub

open MyRoomHubError (Internal)

variable {hub : MyRoomHub U} {α β : Type}

/-- Plan a transition, if the call has anything to plan. -/
def plan (hub : MyRoomHub U) : MyRoomCall U → Except MyRoomHubError (Option (MyRoomTransition U MyRoomOutcome))
  | .enter member owner => (hub.enter member owner).map (fun t => some (t.map .entered))
  | .leave identity => (hub.leave identity).map (fun t => some (t.map .left))
  | .disconnect identity => (hub.disconnect identity).map (fun t => some (t.map .disconnected))
  | .disconnectReleased released => (hub.disconnectReleased released).map (fun t => some (t.map .disconnected))
  | .updateOwnerInfo identity info => (hub.updateOwnerInfo identity info).map (fun t => some (t.map .updated))
  | .refreshParticipant participant => (hub.refreshParticipant participant).map (fun t => some (t.map .refreshed))
  | .refreshProfileIfTracked identity presentation =>
    (hub.refreshProfileIfTracked identity presentation).map (Option.map fun t => t.map fun _ => .silent)
  | .refreshP2pEndpointIfTracked identity port =>
    (hub.refreshP2pEndpointIfTracked identity port).map (Option.map fun t => t.map fun _ => .silent)
  | .advanceIdentity previous replacement => (hub.advanceIdentity previous replacement).map (fun t => some (t.map .advanced))
  | .advanceProfiledIdentityIfTracked previous replacement presentation =>
    (hub.advanceProfiledIdentityIfTracked previous replacement presentation).map (Option.map fun t => t.map .advanced)
  | .advanceMigratedIdentityIfTracked previous replacement =>
    (hub.advanceMigratedIdentityIfTracked previous replacement).map (Option.map fun t => t.map .advanced)

/-- A call that does not speak for a user without a role as if it had one: `leave`, `update_owner_info`, `refresh_participant`
and `advance_identity` are for tracked users, and a user that enters its own new room does so under one binding. -/
def Regular (hub : MyRoomHub U) : MyRoomCall U → Prop
  | .enter member owner => member.identity.userNo = owner.key → hub.generations.lookup owner.key = none →
      member.identity = owner.participant.identity
  | .leave identity => (hub.generations.lookup identity.userNo).isSome
  | .updateOwnerInfo identity _ => (hub.generations.lookup identity.userNo).isSome
  | .refreshParticipant participant => (hub.generations.lookup participant.identity.userNo).isSome
  | .advanceIdentity previous _ => (hub.generations.lookup previous.userNo).isSome
  | _ => True

/-- Another outcome is planned with the same changes. -/
theorem Planned.map {t : MyRoomTransition U α} {publications : List RoomPublication} (h : Planned hub t publications)
    (f : α → β) : Planned hub (t.map f) publications :=
  ⟨h.base, h.next, h.inv, h.published⟩

namespace RunsAux

/-- What a mapped computation returns. -/
theorem map_eq_ok {x : Except MyRoomHubError α} {f : α → β} {b : β} (h : x.map f = .ok b) : ∃ a, x = .ok a ∧ f a = b := by
  cases x with
  | error e => cases h
  | ok a =>
    cases h
    exact ⟨a, rfl, rfl⟩

/-- A plan that is always made. -/
theorem planned_of_map {x : Except MyRoomHubError (MyRoomTransition U α)} {f : α → MyRoomOutcome}
    {t : MyRoomTransition U MyRoomOutcome} (h : x.map (fun t => some (t.map f)) = .ok (some t))
    (hplanned : ∀ t', x = .ok t' → Planned hub t' (f t'.outcome).publications) : Planned hub t t.outcome.publications := by
  obtain ⟨t', hx, hsome⟩ := map_eq_ok h
  cases hsome
  exact (hplanned t' hx).map f

/-- A plan that is made when there is something to plan. -/
theorem planned_of_map_option {x : Except MyRoomHubError (Option (MyRoomTransition U α))} {f : α → MyRoomOutcome}
    {t : MyRoomTransition U MyRoomOutcome} (h : x.map (Option.map fun t => t.map f) = .ok (some t))
    (hplanned : ∀ t', x = .ok (some t') → Planned hub t' (f t'.outcome).publications) :
    Planned hub t t.outcome.publications := by
  obtain ⟨o, hx, hsome⟩ := map_eq_ok h
  obtain ⟨t', rfl, rfl⟩ := Option.map_eq_some_iff.1 hsome
  exact (hplanned t' hx).map f

end RunsAux

/-- Every transition that a call plans is planned on the hub. -/
theorem planned_plan (h : hub.Inv) {call : MyRoomCall U} {t : MyRoomTransition U MyRoomOutcome}
    (ht : hub.plan call = .ok (some t)) : Planned hub t t.outcome.publications := by
  cases call with
  | enter member owner => exact RunsAux.planned_of_map ht fun _ => planned_enter h
  | leave identity => exact RunsAux.planned_of_map ht fun _ => planned_leave h
  | disconnect identity => exact RunsAux.planned_of_map ht fun _ => planned_disconnect h
  | disconnectReleased released => exact RunsAux.planned_of_map ht fun _ => planned_disconnectReleased h
  | updateOwnerInfo identity info => exact RunsAux.planned_of_map ht fun _ => planned_updateOwnerInfo h
  | refreshParticipant participant => exact RunsAux.planned_of_map ht fun _ => planned_refreshParticipant h
  | refreshProfileIfTracked identity presentation =>
    exact RunsAux.planned_of_map_option ht fun _ => planned_refreshProfileIfTracked h
  | refreshP2pEndpointIfTracked identity port =>
    exact RunsAux.planned_of_map_option ht fun _ => planned_refreshP2pEndpointIfTracked h
  | advanceIdentity previous replacement => exact RunsAux.planned_of_map ht fun _ => planned_advanceIdentity h
  | advanceProfiledIdentityIfTracked previous replacement presentation =>
    exact RunsAux.planned_of_map_option ht fun _ => planned_advanceProfiledIdentityIfTracked h
  | advanceMigratedIdentityIfTracked previous replacement =>
    exact RunsAux.planned_of_map_option ht fun _ => planned_advanceMigratedIdentityIfTracked h

/-- No regular call fails for an internal reason. -/
theorem avoids_plan (h : hub.Inv) {call : MyRoomCall U} (hregular : hub.Regular call) :
    Checks.Avoids Internal (hub.plan call) := by
  cases call with
  | enter member owner => exact avoids_map _ (avoids_enter h hregular)
  | leave identity => exact avoids_map _ (avoids_leave h hregular)
  | disconnect identity => exact avoids_map _ (avoids_disconnect h identity)
  | disconnectReleased released => exact avoids_map _ (avoids_disconnectReleased h released)
  | updateOwnerInfo identity info => exact avoids_map _ (avoids_updateOwnerInfo h info hregular)
  | refreshParticipant participant => exact avoids_map _ (avoids_refreshParticipant h hregular)
  | refreshProfileIfTracked identity presentation =>
    exact avoids_map _ (avoids_refreshProfileIfTracked h identity presentation)
  | refreshP2pEndpointIfTracked identity port => exact avoids_map _ (avoids_refreshP2pEndpointIfTracked h identity port)
  | advanceIdentity previous replacement => exact avoids_map _ (avoids_advanceIdentity h replacement hregular)
  | advanceProfiledIdentityIfTracked previous replacement presentation =>
    exact avoids_map _ (avoids_advanceProfiledIdentityIfTracked h previous replacement presentation)
  | advanceMigratedIdentityIfTracked previous replacement =>
    exact avoids_map _ (avoids_advanceMigratedIdentityIfTracked h previous replacement)

/-! ## Commits -/

/-- A transition of another revision is rejected, and nothing changes. -/
theorem commit_stale {t : MyRoomTransition U α} (h : t.baseRevision ≠ hub.revision) :
    t.commit hub = (.error (.staleRevision t.baseRevision hub.revision), hub) := by
  have hne : ¬hub.revision = t.baseRevision := Ne.symm h
  unfold MyRoomTransition.commit
  simp only [bind, Act.andThen, Act.get, Act.require, hne, if_false]

/-- A transition of the revision of the hub is made. -/
theorem commit_current {t : MyRoomTransition U α} (h : t.baseRevision = hub.revision) :
    t.commit hub = (.ok t.outcome, t.applyTo hub) := by
  unfold MyRoomTransition.commit
  simp only [bind, Act.andThen, Act.get, Act.require, h, if_true, Act.modify, pure, Act.ret]

end MyRoomHub

/-! ## The system -/

/-- The hub, with the transitions that were planned and are neither committed nor dropped yet. -/
structure MyRoomSystem (U : Unicode) where
  hub : MyRoomHub U
  planned : List (MyRoomTransition U MyRoomOutcome)

/-- What happens. -/
inductive MyRoomEvent (U : Unicode) where
  | plan (call : MyRoomCall U)
  | commit (transition : MyRoomTransition U MyRoomOutcome)
  | drop (transition : MyRoomTransition U MyRoomOutcome)

namespace MyRoomSystem

/-- A hub starts empty. -/
def Init (s : MyRoomSystem U) : Prop := ∃ identityCapacity, s = ⟨.withIdentityCapacity identityCapacity, []⟩

/-- A call plans a transition, a planned transition is committed, or it is dropped. -/
inductive Step : MyRoomSystem U → MyRoomEvent U → MyRoomSystem U → Prop where
  | plan {s : MyRoomSystem U} {call : MyRoomCall U} {transition : MyRoomTransition U MyRoomOutcome}
    (h : s.hub.plan call = .ok (some transition)) : Step s (.plan call) ⟨s.hub, s.planned ++ [transition]⟩
  | commit {s : MyRoomSystem U} {before after : List (MyRoomTransition U MyRoomOutcome)}
    {transition : MyRoomTransition U MyRoomOutcome} (h : s.planned = before ++ transition :: after) :
    Step s (.commit transition) ⟨(transition.commit s.hub).2, before ++ after⟩
  | drop {s : MyRoomSystem U} {before after : List (MyRoomTransition U MyRoomOutcome)}
    {transition : MyRoomTransition U MyRoomOutcome} (h : s.planned = before ++ transition :: after) :
    Step s (.drop transition) ⟨s.hub, before ++ after⟩

/-- The states that are reached from an empty hub. -/
def Reachable : MyRoomSystem U → Prop := Transition.Reachable Init Step

/-- The hub has its invariant, and a planned transition is of an older revision, or is what a call plans on the hub as it is. -/
structure Inv (s : MyRoomSystem U) : Prop where
  hub : s.hub.Inv
  planned : ∀ t ∈ s.planned, t.baseRevision < s.hub.revision ∨
    (t.baseRevision = s.hub.revision ∧ ∃ call, s.hub.plan call = .ok (some t))

/-- Taking one transition out leaves the others. -/
theorem mem_of_split {planned before after : List (MyRoomTransition U MyRoomOutcome)} {transition t : MyRoomTransition U MyRoomOutcome}
    (hsplit : planned = before ++ transition :: after) (ht : t ∈ before ++ after) : t ∈ planned := by
  rw [hsplit]
  rcases List.mem_append.1 ht with ht | ht
  · exact List.mem_append.2 (.inl ht)
  · exact List.mem_append.2 (.inr (List.mem_cons_of_mem _ ht))

/-- Every step keeps the invariant. -/
theorem Inv.step {s s' : MyRoomSystem U} {event : MyRoomEvent U} (h : s.Inv) (hs : Step s event s') : s'.Inv := by
  cases hs with
  | @plan call transition hplan =>
    refine ⟨h.hub, fun t ht => ?_⟩
    rcases List.mem_append.1 ht with ht | ht
    · exact h.planned t ht
    · rw [List.mem_singleton.1 ht]
      exact .inr ⟨(MyRoomHub.planned_plan h.hub hplan).base, call, hplan⟩
  | @drop before after transition hsplit => exact ⟨h.hub, fun t ht => h.planned t (mem_of_split hsplit ht)⟩
  | @commit before after transition hsplit =>
    have hrest : ∀ t ∈ before ++ after, t.baseRevision < s.hub.revision ∨
        (t.baseRevision = s.hub.revision ∧ ∃ call, s.hub.plan call = .ok (some t)) :=
      fun t ht => h.planned t (mem_of_split hsplit ht)
    have hmem : transition ∈ s.planned := by
      rw [hsplit]
      simp
    rcases h.planned transition hmem with hlt | ⟨hbase, call, hplan⟩
    · rw [MyRoomHub.commit_stale (Nat.ne_of_lt hlt)]
      exact ⟨h.hub, hrest⟩
    · obtain ⟨-, hnext, hinv, -⟩ := MyRoomHub.planned_plan h.hub hplan
      rw [MyRoomHub.commit_current hbase]
      refine ⟨hinv, fun t ht => ?_⟩
      rcases hnext with hnext | ⟨hnext, hrooms, hmemberships, hgenerations⟩
      · -- every other plan is an older one now
        refine .inl ?_
        change t.baseRevision < transition.nextRevision
        rw [hnext]
        rcases hrest t ht with hlt | ⟨heq, -⟩
        · omega
        · omega
      · simp only [MyRoomHub.applyTo_eq_self hnext hrooms hmemberships hgenerations]
        exact hrest t ht

/-- Every reachable state has the invariant. -/
theorem Reachable.inv {s : MyRoomSystem U} (h : Reachable s) : s.Inv := by
  refine Transition.Reachable.invariant (I := Inv) ?_ (fun _ _ _ => Inv.step) h
  rintro s ⟨identityCapacity, rfl⟩
  exact ⟨MyRoomHub.inv_withIdentityCapacity identityCapacity, fun t ht => by cases ht⟩

end MyRoomSystem

/-! ## What holds in every reachable state -/

/-- In every reachable state the audit succeeds, memberships and slots are inverse, no room is empty, an owner has the owner's
slot of its own room and no other one has it, and there is a binding for exactly the users with a role. A transition of another
revision is rejected and changes nothing, and a planned one of this revision is a plan for the hub as it is. No regular call
fails for an internal reason. A transition that is planned here can be committed here, and its publications go to the members
of the rooms it leads to, in the order of the slots. -/
theorem MyRoomSystem.reachable_sound {s : MyRoomSystem U} (h : Reachable s) :
    s.hub.auditInvariants = .ok () ∧
    (∀ userNo owner slot, s.hub.memberships.lookup userNo = some ⟨owner, slot⟩ ↔
      ∃ room participant, s.hub.rooms.lookup owner = some room ∧ room.participant slot = some participant ∧
        participant.identity.userNo = userNo) ∧
    (∀ owner room, s.hub.rooms.lookup owner = some room → (∃ slot participant, room.participant slot = some participant) ∧
      ∀ slot participant, room.participant slot = some participant → (participant.identity.userNo = owner ↔ slot = 0)) ∧
    (∀ userNo, (s.hub.generations.lookup userNo).isSome ↔
      (s.hub.memberships.lookup userNo).isSome ∨ (s.hub.rooms.lookup userNo).isSome) ∧
    (∀ t : MyRoomTransition U MyRoomOutcome, t.baseRevision ≠ s.hub.revision →
      t.commit s.hub = (.error (.staleRevision t.baseRevision s.hub.revision), s.hub)) ∧
    (∀ t ∈ s.planned, t.baseRevision = s.hub.revision → ∃ call, s.hub.plan call = .ok (some t)) ∧
    (∀ call, s.hub.Regular call → ∀ error, s.hub.plan call = .error error → ¬error.Internal) ∧
    (∀ call t, s.hub.plan call = .ok (some t) → ∃ hub', t.commit s.hub = (.ok t.outcome, hub') ∧
      ∀ publication ∈ t.outcome.publications, ∃ room, hub'.rooms.lookup publication.owner = some room ∧
        publication.audience = (List.finRange 8).filterMap (fun slot => (room.participant slot).map (·.identity))) := by
  obtain ⟨hinv, hplanned⟩ := h.inv
  refine ⟨hinv.auditInvariants_ok, ?_, ?_, ?_, fun t => MyRoomHub.commit_stale, ?_, fun call hregular error =>
    MyRoomHub.avoids_plan hinv hregular error, ?_⟩
  · intro userNo owner slot
    refine (hinv.roles.inverse userNo owner slot).trans ⟨?_, ?_⟩
    · rintro ⟨participant, ⟨room, hroom, hp⟩, hu⟩
      exact ⟨room, participant, hroom, hp, hu⟩
    · rintro ⟨room, participant, hroom, hp, hu⟩
      exact ⟨participant, ⟨room, hroom, hp⟩, hu⟩
  · intro owner room hroom
    have hsound := hinv.roles.sound owner room hroom
    refine ⟨?_, fun slot participant hp => ⟨hsound.ownSlot slot participant hp, ?_⟩⟩
    · by_contra hempty
      refine hinv.roles.occupied owner room hroom (MyRoomState.mappedCount_eq_zero.2 fun slot => ?_)
      rw [Option.eq_none_iff_forall_ne_some]
      exact fun participant hp => hempty ⟨slot, participant, hp⟩
    · rintro rfl
      exact hsound.of_zero hp
  · intro userNo
    refine ⟨hinv.referenced userNo, fun href => ?_⟩
    obtain ⟨identity, hid, -⟩ := hinv.canonical_of_referenced href
    rw [hid]
    rfl
  · intro t ht hbase
    rcases hplanned t ht with hlt | ⟨-, hcall⟩
    · omega
    · exact hcall
  · intro call t ht
    obtain ⟨hbase, -, -, hpublished⟩ := MyRoomHub.planned_plan hinv ht
    refine ⟨t.applyTo s.hub, MyRoomHub.commit_current hbase, fun publication hp => ?_⟩
    obtain ⟨room, hroom, heq⟩ := hpublished publication hp
    refine ⟨room, hroom, ?_⟩
    rw [heq]
    exact room.audience_eq

/-! ## A visit, and calls for users without a role -/

/-- Plan a transition and commit it at once. -/
def MyRoomHub.perform (hub : MyRoomHub U) (call : MyRoomCall U) : MyRoomHub U :=
  match hub.plan call with
  | .ok (some t) => t.applyTo hub
  | _ => hub

/-- Performing calls one after another leads to reachable states. -/
theorem MyRoomSystem.reachable_foldl_perform {hub : MyRoomHub U} (h : Reachable ⟨hub, []⟩) (calls : List (MyRoomCall U)) :
    Reachable ⟨calls.foldl MyRoomHub.perform hub, []⟩ := by
  induction calls generalizing hub with
  | nil => exact h
  | cons call calls ih =>
    refine ih ?_
    unfold MyRoomHub.perform
    split
    · rename_i t ht
      have hplanned := (h.snoc (Step.plan ht)).snoc (@Step.commit U _ [] [] t rfl)
      have hbase := (MyRoomHub.planned_plan h.inv.hub ht).base
      rw [MyRoomHub.commit_current hbase] at hplanned
      exact hplanned
    · exact h

/-- The bindings that a call names for users that may be tracked. -/
def MyRoomCall.identities : MyRoomCall U → List IdentityBinding
  | .enter member owner => [member.identity, owner.participant.identity]
  | .leave identity => [identity]
  | .disconnect identity => [identity]
  | .disconnectReleased _ => []
  | .updateOwnerInfo identity _ => [identity]
  | .refreshParticipant participant => [participant.identity]
  | .refreshProfileIfTracked identity _ => [identity]
  | .refreshP2pEndpointIfTracked identity _ => [identity]
  | .advanceIdentity previous _ => [previous]
  | .advanceProfiledIdentityIfTracked previous _ _ => [previous]
  | .advanceMigratedIdentityIfTracked previous _ => [previous]

/-- Every binding of the call is the canonical one of its user, or the user is not tracked. -/
def MyRoomHub.Faithful (hub : MyRoomHub U) (call : MyRoomCall U) : Prop :=
  ∀ identity ∈ call.identities, ∀ canonical, hub.generations.lookup identity.userNo = some canonical → identity = canonical

namespace RunsAux

/-- A rider with a generation. -/
def rider (n generation : Nat) (h : n + 1 < 2 ^ 32) : IdentityBinding :=
  ⟨"rider", ⟨n + 1, Nat.succ_ne_zero _, h⟩, ⟨generation⟩, ⟨n + 1⟩, .v4 0x7F000001, none⟩

/-- The presentation of a rider. -/
def player (identity : IdentityBinding) : MyRoomPlayerSlot :=
  ⟨identity.userNo.get, 0x7F000001, 5136, "rider", Vector.replicate 65 0, 0, ""⟩

/-- The presentation is valid. -/
theorem player_valid (identity : IdentityBinding) : validateMyroomPlayerSlot (player identity) = .ok () := by
  have hname : utf16Length "rider" = 5 := by decide +kernel
  have hclub : utf16Length "" = 0 := by decide +kernel
  simp only [validateMyroomPlayerSlot, validateMyroomString, player, hname, hclub, maxRiderNicknameUtf16Units,
    maxClubNameUtf16Units]
  rfl

/-- A rider with its presentation. -/
def participant (n generation : Nat) (h : n + 1 < 2 ^ 32) : MyRoomParticipant .ascii :=
  ⟨rider n generation h, player (rider n generation h), player_valid _, rfl, rfl⟩

def dao : MyRoomParticipant .ascii := participant 0 1 NonZero.one_lt_32
def daoLater : MyRoomParticipant .ascii := participant 0 2 NonZero.one_lt_32
def bazzi : MyRoomParticipant .ascii := participant 1 1 NonZero.two_lt_32

/-- The owner of a room. -/
def daoOwner : MyRoomOwner .ascii := ⟨dao, .default, rfl⟩

/-- A hub for eight identities. -/
def capacity : NonZero 64 := ⟨8, by decide, by decide⟩

/-- An empty hub. -/
def hub : MyRoomHub .ascii := .withIdentityCapacity capacity

/-- Bazzi visits the room of Dao, who comes home later, and leaves. -/
def visit : List (MyRoomCall .ascii) := [.enter bazzi daoOwner, .enter dao daoOwner, .leave bazzi.identity]

end RunsAux

/-- After a visit the owner is alone in its room, and the audit succeeds. -/
theorem MyRoomSystem.reachable_sound_visit :
    (RunsAux.visit.foldl MyRoomHub.perform RunsAux.hub).auditInvariants = .ok () ∧
    (RunsAux.visit.foldl MyRoomHub.perform RunsAux.hub).memberships.keys = [RunsAux.dao.identity.userNo] ∧
    (RunsAux.visit.foldl MyRoomHub.perform RunsAux.hub).generations.keys = [RunsAux.dao.identity.userNo] := by
  have hreach : Reachable ⟨RunsAux.hub, []⟩ := Transition.Reachable.of_init ⟨_, rfl⟩
  exact ⟨(reachable_sound (reachable_foldl_perform hreach RunsAux.visit)).1, by decide +kernel, by decide +kernel⟩

/-- A user without a role that leaves, and one that enters its own new room under two bindings, get internal failures. -/
theorem MyRoomSystem.plan_avoids_internal_false :
    RunsAux.hub.plan (.leave RunsAux.bazzi.identity) =
      .error (.invariant (.missingCanonicalGeneration RunsAux.bazzi.identity.userNo)) ∧
    RunsAux.hub.plan (.enter RunsAux.daoLater RunsAux.daoOwner) =
      .error (.invariant (.canonicalGenerationMismatch RunsAux.dao.identity.userNo 1 2)) ∧
    ¬∀ s : MyRoomSystem .ascii, Reachable s → ∀ call, s.hub.Faithful call → ∀ error, s.hub.plan call = .error error →
      ¬error.Internal := by
  have hleave : RunsAux.hub.plan (.leave RunsAux.bazzi.identity) =
      .error (.invariant (.missingCanonicalGeneration RunsAux.bazzi.identity.userNo)) := rfl
  refine ⟨hleave, rfl, fun hall => ?_⟩
  have hreach : Reachable ⟨RunsAux.hub, []⟩ := Transition.Reachable.of_init ⟨_, rfl⟩
  refine hall _ hreach (.leave RunsAux.bazzi.identity) ?_ _ hleave trivial
  intro identity _ canonical hid
  cases hid

end P5136
