import P5136.MyRoom.Policies
import P5136.MyRoom.Protection

/-!
# Admission to protected resources

Runs of password checks, preparations and publications on a hub that changes in between. What is published to a visitor was
prepared while the visitor was a member under the same policy, and either that policy asks for no password, or the same
generation of the visitor had supplied it, in a check that nothing has spent since.
-/

namespace P5136

open List RunsAux

variable {U : Unicode}

/-- The world with the plans of responses that are being loaded outside the actor. -/
structure MyRoomProtectionSystem (U : Unicode) where
  world : MyRoomProtection U
  items : List MyRoomOwnerItemsPlan
  responses : List (MyRoomProtectedResource × MyRoomOwnerResourceResponsePlan)

/-- A call with its result. A transition is any change of the hub: an entry, a departure, a policy change, a migration and so
on. -/
inductive MyRoomProtectionEvent (U : Unicode) where
  | checked (identity : IdentityBinding) (request : CheckPasswordRequest)
      (result : Except MyRoomProtectionError CheckPasswordStatus)
  | preparedItems (identity : IdentityBinding) (result : Except MyRoomProtectionError MyRoomOwnerItemsPlan)
  | preparedResource (identity : IdentityBinding) (resource : MyRoomProtectedResource)
      (result : Except MyRoomProtectionError (Option MyRoomOwnerResourceResponsePlan))
  | publishedItems (identity : IdentityBinding) (prepared : MyRoomPreparedOwnerItems)
      (result : Except MyRoomProtectionError (Option MyRoomOwnerReply))
  | publishedResource (identity : IdentityBinding) (resource : MyRoomProtectedResource)
      (prepared : MyRoomOwnerResourceResponsePlan) (result : Except MyRoomProtectionError (Option MyRoomOwnerReply))
  | abandoned
  | transition (call : MyRoomCall U)
  | revoked (user : UserNo)

/-- What becomes of the grants when a transition is committed: entering, leaving, migrating or being released revokes the grant
of the user. An owner of whom only the profile was loaded, and who comes online, advances without that. -/
def MyRoomCall.Revokes : MyRoomCall U → FiniteMap UserNo MyRoomPasswordGrant → FiniteMap UserNo MyRoomPasswordGrant → Prop
  | .enter member _, grants, grants' => grants' = grants.erase member.identity.userNo
  | .leave identity, grants, grants' => grants' = grants.erase identity.userNo
  | .disconnect identity, grants, grants' => grants' = grants.erase identity.userNo
  | .disconnectReleased released, grants, grants' => grants' = grants.erase released.userNo
  | .advanceIdentity previous _, grants, grants' => grants' = grants.erase previous.userNo ∨ grants' = grants
  | .advanceProfiledIdentityIfTracked previous _ _, grants, grants' => grants' = grants.erase previous.userNo ∨ grants' = grants
  | .advanceMigratedIdentityIfTracked previous _, grants, grants' => grants' = grants.erase previous.userNo ∨ grants' = grants
  | .updateOwnerInfo _ _, grants, grants' => grants' = grants
  | .refreshParticipant _, grants, grants' => grants' = grants
  | .refreshProfileIfTracked _ _, grants, grants' => grants' = grants
  | .refreshP2pEndpointIfTracked _ _, grants, grants' => grants' = grants

namespace MyRoomProtectionEvent

/-- The response that a call has authorized: for whom, of what, and by which plan. -/
def prepares : MyRoomProtectionEvent U → Option (MyRoomProtectedResource × MyRoomOwnerResourcePlan)
  | preparedItems _ (.ok plan) => if plan.ownerItemsVisible then plan.owner.map (.ownerItems, ·) else none
  | preparedResource _ resource (.ok (some plan)) => some (resource, plan.owner)
  | _ => none

/-- What a call has queued of a protected resource: to whom, and by which plan. -/
def publishes : MyRoomProtectionEvent U → Option (MyRoomProtectedResource × IdentityBinding × MyRoomOwnerResourcePlan)
  | publishedItems identity prepared (.ok (some (.packets _))) => prepared.owner.map (.ownerItems, identity, ·)
  | publishedResource identity resource prepared (.ok (some _)) => some (resource, identity, prepared.owner)
  | _ => none

/-- A check that a user made before is of no use any more for a resource: the user makes another check, enters a room, or is
authorized to the resource of a room that is not open. -/
def Spends (user : UserNo) (resource : MyRoomProtectedResource) : MyRoomProtectionEvent U → Prop
  | checked identity _ _ => identity.userNo = user
  | transition (.enter member _) => member.identity.userNo = user
  | e => ∃ plan, e.prepares = some (resource, plan) ∧ plan.requester.userNo = user ∧ plan.visible = false

end MyRoomProtectionEvent

namespace MyRoomProtectionSystem

/-- An empty hub. -/
def start (capacity : NonZero 64) : MyRoomProtectionSystem U := ⟨⟨.withIdentityCapacity capacity, ∅⟩, [], []⟩

/-- One step: a call on the world, the end of a response that is given up, a transition of the hub, or the revocation of a grant
by a stage without a transition. -/
inductive Step : MyRoomProtectionSystem U → MyRoomProtectionEvent U → MyRoomProtectionSystem U → Prop where
  | checked {s : MyRoomProtectionSystem U} (identity : IdentityBinding) (request : CheckPasswordRequest) :
      Step s (.checked identity request (MyRoomProtection.myroomCheckPassword identity request s.world).1)
        { s with world := (MyRoomProtection.myroomCheckPassword identity request s.world).2 }
  | preparedItems {s : MyRoomProtectionSystem U} (identity : IdentityBinding) :
      Step s (.preparedItems identity (MyRoomProtection.prepareMyroomOwnerItems identity s.world).1) { s with
        world := (MyRoomProtection.prepareMyroomOwnerItems identity s.world).2
        items := s.items ++ (MyRoomProtection.prepareMyroomOwnerItems identity s.world).1.toOption.toList }
  | preparedResource {s : MyRoomProtectionSystem U} (identity : IdentityBinding) (resource : MyRoomProtectedResource) :
      resource = .ownerEmblems ∨ resource = .career →
      Step s (.preparedResource identity resource (MyRoomProtection.prepareMyroomOwnerResource identity resource s.world).1) { s with
        world := (MyRoomProtection.prepareMyroomOwnerResource identity resource s.world).2
        responses := s.responses ++
          ((MyRoomProtection.prepareMyroomOwnerResource identity resource s.world).1.toOption.join.map (resource, ·)).toList }
  | publishedItems {s : MyRoomProtectionSystem U} (pre post : List MyRoomOwnerItemsPlan) (plan : MyRoomOwnerItemsPlan)
      (loaded : Option MyRoomOwnerItemLoad) (prepared : MyRoomPreparedOwnerItems) (identity : IdentityBinding) (room : Bool) :
      s.items = pre ++ plan :: post → plan.complete U loaded = .ok prepared →
      Step s (.publishedItems identity prepared (MyRoomProtection.publishMyroomOwnerItems identity prepared room s.world).1) { s with
        world := (MyRoomProtection.publishMyroomOwnerItems identity prepared room s.world).2
        items := pre ++ post }
  | publishedResource {s : MyRoomProtectionSystem U} (pre post : List (MyRoomProtectedResource × MyRoomOwnerResourceResponsePlan))
      (resource : MyRoomProtectedResource) (plan : MyRoomOwnerResourceResponsePlan) (packet : List UInt8)
      (identity : IdentityBinding) (room : Bool) : s.responses = pre ++ (resource, plan) :: post →
      Step s (.publishedResource identity resource plan (MyRoomProtection.publishMyroomOwnerResource identity plan packet room s.world).1) { s with
        world := (MyRoomProtection.publishMyroomOwnerResource identity plan packet room s.world).2
        responses := pre ++ post }
  | abandonedItems {s : MyRoomProtectionSystem U} (items : List MyRoomOwnerItemsPlan) : items.Sublist s.items →
      Step s .abandoned { s with items := items }
  | abandonedResponses {s : MyRoomProtectionSystem U}
      (responses : List (MyRoomProtectedResource × MyRoomOwnerResourceResponsePlan)) : responses.Sublist s.responses →
      Step s .abandoned { s with responses := responses }
  | transition {s : MyRoomProtectionSystem U} (call : MyRoomCall U) (t : MyRoomTransition U MyRoomOutcome)
      (grants : FiniteMap UserNo MyRoomPasswordGrant) : s.world.hub.plan call = .ok (some t) →
      call.Revokes s.world.pendingMyroomPasswordGrants grants →
      Step s (.transition call) { s with world := ⟨t.applyTo s.world.hub, grants⟩ }
  | revoked {s : MyRoomProtectionSystem U} (user : UserNo) :
      Step s (.revoked user) { s with world := ⟨s.world.hub, s.world.pendingMyroomPasswordGrants.erase user⟩ }

open MyRoomProtection Transition

variable {s t : MyRoomProtectionSystem U} {e : MyRoomProtectionEvent U}

/-! ## Policies over a run -/

/-- A step keeps the policies or stamps them anew. -/
theorem Step.policies (h : Step s e t) : MyRoomHub.PoliciesSince s.world.hub t.world.hub ∧
    (s.world.hub.Stamped → t.world.hub.Stamped) := by
  have hsame : ∀ {w : MyRoomProtection U}, w.hub = s.world.hub →
      MyRoomHub.PoliciesSince s.world.hub w.hub ∧ (s.world.hub.Stamped → w.hub.Stamped) := by
    rintro w hw
    rw [hw]
    exact ⟨.refl _, id⟩
  cases h with
  | checked identity request =>
    refine hsame ?_
    rcases myroomCheckPassword_cases identity request s.world with ⟨r, hr⟩ | ⟨grant, plan, -, -, -, hr⟩ <;> rw [hr]
  | preparedItems identity => exact hsame (onlyTakes_prepareMyroomOwnerItems identity s.world).1
  | preparedResource identity resource _ => exact hsame (onlyTakes_prepareMyroomOwnerResource identity resource s.world).1
  | publishedItems pre post plan loaded prepared identity room _ _ =>
    exact hsame (congrArg MyRoomProtection.hub (readOnly_publishMyroomOwnerItems identity prepared room s.world))
  | publishedResource pre post resource plan packet identity room _ =>
    exact hsame (congrArg MyRoomProtection.hub (readOnly_publishMyroomOwnerResource identity plan packet room s.world))
  | abandonedItems items _ => exact hsame rfl
  | abandonedResponses responses _ => exact hsame rfl
  | transition call t grants ht _ =>
    have hkeeps := MyRoomHub.keepsPolicies_plan ht
    exact ⟨hkeeps.since, hkeeps.stamped⟩
  | revoked user => exact hsame rfl

/-- Along a path the policies are kept or stamped anew. -/
theorem policies_path {es : List (MyRoomProtectionEvent U)} (h : Path Step s es t) :
    MyRoomHub.PoliciesSince s.world.hub t.world.hub ∧ (s.world.hub.Stamped → t.world.hub.Stamped) := by
  induction h with
  | nil => exact ⟨.refl _, id⟩
  | snoc _ hst ih => exact ⟨ih.1.trans hst.policies.1, fun hs => hst.policies.2 (ih.2 hs)⟩

/-- No room of an empty hub is stamped. -/
theorem stamped_start (capacity : NonZero 64) : (start (U := U) capacity).world.hub.Stamped := by
  intro key room hroom
  simp [start, MyRoomHub.withIdentityCapacity] at hroom

/-! ## Where grants come from -/

/-- The grant was minted by a successful check of its requester, who supplied the password. -/
def Mints (grant : MyRoomPasswordGrant) (s : MyRoomProtectionSystem U) (e : MyRoomProtectionEvent U) : Prop :=
  ∃ request plan, e = .checked grant.requester request (.ok .success) ∧
    grant = ⟨plan.requester, plan.owner, plan.policyRevision, grant.resource⟩ ∧
    Supplied s.world.hub request grant.resource plan

/-- No grant is left that was not there before. -/
theorem lookup_revokes {call : MyRoomCall U} {grants grants' : FiniteMap UserNo MyRoomPasswordGrant}
    (h : call.Revokes grants grants') {user : UserNo} {grant : MyRoomPasswordGrant} (hgrant : grants'.lookup user = some grant) :
    grants.lookup user = some grant ∧ ∀ member owner, call = .enter member owner → member.identity.userNo ≠ user := by
  have herase : ∀ {key : UserNo}, AList.lookup user (grants.erase key) = some grant →
      grants.lookup user = some grant ∧ user ≠ key := by
    intro key hlookup
    rw [FiniteMap.lookup_erase] at hlookup
    split at hlookup
    · cases hlookup
    · rename_i hne
      exact ⟨hlookup, hne⟩
  cases call with
  | enter member owner =>
    subst h
    obtain ⟨hlookup, hne⟩ := herase hgrant
    refine ⟨hlookup, ?_⟩
    rintro _ _ ⟨⟩
    exact hne.symm
  | leave identity =>
    subst h
    exact ⟨(herase hgrant).1, by simp⟩
  | disconnect identity =>
    subst h
    exact ⟨(herase hgrant).1, by simp⟩
  | disconnectReleased released =>
    subst h
    exact ⟨(herase hgrant).1, by simp⟩
  | updateOwnerInfo identity info =>
    subst h
    exact ⟨hgrant, by simp⟩
  | refreshParticipant participant =>
    subst h
    exact ⟨hgrant, by simp⟩
  | refreshProfileIfTracked identity presentation =>
    subst h
    exact ⟨hgrant, by simp⟩
  | refreshP2pEndpointIfTracked identity port =>
    subst h
    exact ⟨hgrant, by simp⟩
  | advanceIdentity previous replacement =>
    rcases h with rfl | rfl
    · exact ⟨(herase hgrant).1, by simp⟩
    · exact ⟨hgrant, by simp⟩
  | advanceProfiledIdentityIfTracked previous replacement presentation =>
    rcases h with rfl | rfl
    · exact ⟨(herase hgrant).1, by simp⟩
    · exact ⟨hgrant, by simp⟩
  | advanceMigratedIdentityIfTracked previous replacement =>
    rcases h with rfl | rfl
    · exact ⟨(herase hgrant).1, by simp⟩
    · exact ⟨hgrant, by simp⟩

/-- A grant that is there after a step was there before and the step has not spent it, or the step has minted it. -/
theorem Step.grant (h : Step s e t) {user : UserNo} {grant : MyRoomPasswordGrant}
    (hgrant : t.world.pendingMyroomPasswordGrants.lookup user = some grant) :
    (s.world.pendingMyroomPasswordGrants.lookup user = some grant ∧ ¬e.Spends user grant.resource) ∨
      (grant.requester.userNo = user ∧ Mints grant s e) := by
  cases h with
  | checked identity request =>
    rcases myroomCheckPassword_cases identity request s.world with ⟨r, hr⟩ | ⟨minted, plan, hrequester, heq, hsupplied, hr⟩
    · rw [hr, FiniteMap.lookup_erase] at hgrant
      split at hgrant
      · cases hgrant
      · rename_i hne
        exact .inl ⟨hgrant, Ne.symm hne⟩
    · rw [hr, FiniteMap.lookup_insert, FiniteMap.lookup_erase] at hgrant
      split at hgrant
      · rename_i hsame
        cases hgrant
        have hminted : grant.requester = identity := by rw [heq, hrequester]
        refine .inr ⟨by rw [hminted, hsame], request, plan, ?_, heq, hsupplied⟩
        rw [hr, hminted]
      · rename_i hne
        exact .inl ⟨hgrant, Ne.symm hne⟩
  | preparedItems identity =>
    refine .inl ⟨(onlyTakes_prepareMyroomOwnerItems identity s.world).2 user grant hgrant, ?_⟩
    rintro ⟨plan, hprepares, hsame, hhidden⟩
    rcases hr : prepareMyroomOwnerItems identity s.world with ⟨r, w⟩
    rw [hr] at hprepares hgrant
    cases r with
    | error er => cases hprepares
    | ok prepared =>
      simp only [MyRoomProtectionEvent.prepares] at hprepares
      split at hprepares
      swap
      · cases hprepares
      rename_i hvisible
      obtain ⟨owner, howner, hpair⟩ := Option.map_eq_some_iff.1 hprepares
      obtain ⟨hresource, rfl⟩ := Prod.mk.inj hpair
      obtain ⟨hrequester, -, hopen | ⟨-, hleft⟩⟩ := (prepareMyroomOwnerItems_ok hr).2 owner howner hvisible
      · rw [hhidden] at hopen
        cases hopen
      · refine hleft grant ?_ hresource.symm
        rw [← hrequester, hsame]
        exact hgrant
  | preparedResource identity resource _ =>
    refine .inl ⟨(onlyTakes_prepareMyroomOwnerResource identity resource s.world).2 user grant hgrant, ?_⟩
    rintro ⟨plan, hprepares, hsame, hhidden⟩
    rcases hr : prepareMyroomOwnerResource identity resource s.world with ⟨r, w⟩
    rw [hr] at hprepares hgrant
    match r, hprepares, hr with
    | .ok (some prepared), hprepares, hr =>
      obtain ⟨hresource, rfl⟩ := Prod.mk.inj (Option.some.inj hprepares)
      obtain ⟨-, hrequester, -, hopen | ⟨-, hleft⟩⟩ := prepareMyroomOwnerResource_ok hr
      · rw [hhidden] at hopen
        cases hopen
      · refine hleft grant ?_ hresource.symm
        rw [← hrequester, hsame]
        exact hgrant
  | publishedItems pre post plan loaded prepared identity room _ _ =>
    rw [readOnly_publishMyroomOwnerItems identity prepared room s.world] at hgrant
    exact .inl ⟨hgrant, by simp [MyRoomProtectionEvent.Spends, MyRoomProtectionEvent.prepares]⟩
  | publishedResource pre post resource plan packet identity room _ =>
    rw [readOnly_publishMyroomOwnerResource identity plan packet room s.world] at hgrant
    exact .inl ⟨hgrant, by simp [MyRoomProtectionEvent.Spends, MyRoomProtectionEvent.prepares]⟩
  | abandonedItems items _ => exact .inl ⟨hgrant, by simp [MyRoomProtectionEvent.Spends, MyRoomProtectionEvent.prepares]⟩
  | abandonedResponses responses _ =>
    exact .inl ⟨hgrant, by simp [MyRoomProtectionEvent.Spends, MyRoomProtectionEvent.prepares]⟩
  | transition call t grants _ hrevokes =>
    obtain ⟨hlookup, hentry⟩ := lookup_revokes hrevokes hgrant
    refine .inl ⟨hlookup, ?_⟩
    cases call with
    | enter member owner => exact hentry member owner rfl
    | _ => simp [MyRoomProtectionEvent.Spends, MyRoomProtectionEvent.prepares]
  | revoked user' =>
    rw [FiniteMap.lookup_erase] at hgrant
    split at hgrant
    · cases hgrant
    · exact .inl ⟨hgrant, by simp [MyRoomProtectionEvent.Spends, MyRoomProtectionEvent.prepares]⟩

/-- A grant was minted by a check that nothing has spent since. -/
theorem grant_path {s₀ : MyRoomProtectionSystem U} (h₀ : s₀.world.pendingMyroomPasswordGrants = ∅)
    {es : List (MyRoomProtectionEvent U)} (h : Path Step s₀ es s) {user : UserNo} {grant : MyRoomPasswordGrant}
    (hgrant : s.world.pendingMyroomPasswordGrants.lookup user = some grant) :
    Passed Step s₀ es s (fun _ c e _ => grant.requester.userNo = user ∧ Mints grant c e) (fun e => ¬e.Spends user grant.resource) := by
  induction h with
  | nil =>
    rw [h₀] at hgrant
    cases hgrant
  | snoc hpath hst ih =>
    rcases hst.grant hgrant with ⟨hold, hkept⟩ | hminted
    · exact (ih hold).snoc hst hkept
    · exact .of_step hpath hst hminted

/-! ## Where plans come from -/

/-- Items that are being loaded were prepared by a call. -/
theorem Step.item (h : Step s e t) {plan : MyRoomOwnerItemsPlan} (hplan : plan ∈ t.items) :
    plan ∈ s.items ∨ e = .preparedItems plan.expected (.ok plan) := by
  cases h with
  | preparedItems identity =>
    rcases mem_append.1 hplan with hplan | hplan
    · exact .inl hplan
    rcases hr : prepareMyroomOwnerItems identity s.world with ⟨r, w⟩
    rw [hr] at hplan
    cases r with
    | error er => cases hplan
    | ok prepared =>
      cases mem_singleton.1 hplan
      rw [(prepareMyroomOwnerItems_ok hr).1]
      exact .inr rfl
  | publishedItems pre post plan' loaded prepared identity room hitems _ =>
    refine .inl (hitems ▸ ?_)
    rcases mem_append.1 hplan with hplan | hplan
    · exact mem_append_left _ hplan
    · exact mem_append_right _ (mem_cons_of_mem _ hplan)
  | abandonedItems items hsub => exact .inl (hsub.subset hplan)
  | _ => exact .inl hplan

/-- Responses that are being loaded were prepared by a call. -/
theorem Step.response (h : Step s e t) {resource : MyRoomProtectedResource} {plan : MyRoomOwnerResourceResponsePlan}
    (hplan : (resource, plan) ∈ t.responses) :
    (resource, plan) ∈ s.responses ∨ e = .preparedResource plan.expected resource (.ok (some plan)) := by
  cases h with
  | preparedResource identity resource' _ =>
    rcases mem_append.1 hplan with hplan | hplan
    · exact .inl hplan
    rcases hr : prepareMyroomOwnerResource identity resource' s.world with ⟨r, w⟩
    rw [hr] at hplan
    match r, hplan, hr with
    | .ok (some prepared), hplan, hr =>
      cases mem_singleton.1 hplan
      rw [(prepareMyroomOwnerResource_ok hr).1]
      exact .inr rfl
  | publishedResource pre post resource' plan' packet identity room hresponses =>
    refine .inl (hresponses ▸ ?_)
    rcases mem_append.1 hplan with hplan | hplan
    · exact mem_append_left _ hplan
    · exact mem_append_right _ (mem_cons_of_mem _ hplan)
  | abandonedResponses responses hsub => exact .inl (hsub.subset hplan)
  | _ => exact .inl hplan

/-- Items that are being loaded were prepared on the way. -/
theorem item_path {s₀ : MyRoomProtectionSystem U} (h₀ : s₀.items = []) {es : List (MyRoomProtectionEvent U)}
    (h : Path Step s₀ es s) {plan : MyRoomOwnerItemsPlan} (hplan : plan ∈ s.items) :
    Passed Step s₀ es s (fun _ _ e _ => e = .preparedItems plan.expected (.ok plan)) (fun _ => True) := by
  induction h with
  | nil =>
    rw [h₀] at hplan
    cases hplan
  | snoc hpath hst ih =>
    rcases hst.item hplan with hold | hprepared
    · exact (ih hold).snoc hst trivial
    · exact .of_step hpath hst hprepared

/-- Responses that are being loaded were prepared on the way. -/
theorem response_path {s₀ : MyRoomProtectionSystem U} (h₀ : s₀.responses = []) {es : List (MyRoomProtectionEvent U)}
    (h : Path Step s₀ es s) {resource : MyRoomProtectedResource} {plan : MyRoomOwnerResourceResponsePlan}
    (hplan : (resource, plan) ∈ s.responses) :
    Passed Step s₀ es s (fun _ _ e _ => e = .preparedResource plan.expected resource (.ok (some plan))) (fun _ => True) := by
  induction h with
  | nil =>
    rw [h₀] at hplan
    cases hplan
  | snoc hpath hst ih =>
    rcases hst.response hplan with hold | hprepared
    · exact (ih hold).snoc hst trivial
    · exact .of_step hpath hst hprepared

/-! ## Admission -/

/-- A response that is prepared is the requester's own, or open, or the same generation of the requester has supplied the password
in a check that nothing has spent since. -/
theorem authorized_of_prepares {s₀ p p' : MyRoomProtectionSystem U} (h₀ : s₀.world.pendingMyroomPasswordGrants = ∅)
    {before : List (MyRoomProtectionEvent U)} (hpath : Path Step s₀ before p) (hstep : Step p e p')
    {resource : MyRoomProtectedResource} {plan : MyRoomOwnerResourcePlan} (hprepares : e.prepares = some (resource, plan)) :
    ∃ room, p.world.hub.Admits plan room ∧ (plan.requester.userNo = plan.owner.userNo ∨ room.info.useItemPassword = 0 ∨
      Passed Step s₀ before p (fun _ c e _ => ∃ request, e = .checked plan.requester request (.ok .success) ∧
        Supplied c.world.hub request resource plan) (fun e => ¬e.Spends plan.requester.userNo resource)) := by
  have hspec : (∃ room, p.world.hub.Admits plan room) ∧ (plan.visible = true ∨ Granted p.world resource plan) := by
    cases hstep with
    | preparedItems identity =>
      rcases hr : prepareMyroomOwnerItems identity p.world with ⟨r, w⟩
      rw [hr] at hprepares
      cases r with
      | error er => cases hprepares
      | ok prepared =>
        simp only [MyRoomProtectionEvent.prepares] at hprepares
        split at hprepares
        swap
        · cases hprepares
        rename_i hvisible
        obtain ⟨owner, howner, hpair⟩ := Option.map_eq_some_iff.1 hprepares
        cases hpair
        obtain ⟨-, hadmits, hopen⟩ := (prepareMyroomOwnerItems_ok hr).2 plan howner hvisible
        exact ⟨hadmits, hopen.imp_right And.left⟩
    | preparedResource identity resource' _ =>
      rcases hr : prepareMyroomOwnerResource identity resource' p.world with ⟨r, w⟩
      rw [hr] at hprepares
      match r, hprepares, hr with
      | .ok (some prepared), hprepares, hr =>
        cases hprepares
        obtain ⟨-, -, hadmits, hopen⟩ := prepareMyroomOwnerResource_ok hr
        exact ⟨hadmits, hopen.imp_right And.left⟩
    | _ => cases hprepares
  obtain ⟨⟨room, hadmits⟩, hopen⟩ := hspec
  refine ⟨room, hadmits, ?_⟩
  by_cases hvisible : plan.visible = true
  · rcases hadmits.visible.1 hvisible with howner | hpolicy
    · exact .inl howner
    · exact .inr (.inl hpolicy)
  rcases hopen with hopen | ⟨grant, hgrant, heq⟩
  · exact absurd hopen hvisible
  -- the grant was minted on the same plan, since the plan is hidden as that of the check was
  obtain ⟨ls, c, e', c', after, hls, hbefore, hc, hafter, ⟨-, request, plan', he', heq', hsupplied⟩, hall⟩ :=
    grant_path h₀ hpath hgrant
  subst heq
  have hplan : plan' = plan := by
    obtain ⟨_, room', _, hhidden, _⟩ := hsupplied
    cases plan
    cases plan'
    simp only [MyRoomPasswordGrant.mk.injEq] at heq'
    simp only [Bool.not_eq_true] at hvisible
    simp only at hhidden
    rw [MyRoomOwnerResourcePlan.mk.injEq, hvisible, hhidden]
    exact ⟨heq'.1.symm, heq'.2.1.symm, heq'.2.2.1.symm, rfl⟩
  subst hplan
  exact .inr (.inr ⟨ls, c, e', c', after, hls, hbefore, hc, hafter, ⟨request, he', hsupplied⟩, hall⟩)

/-- Loading leaves a plan as it was. -/
theorem complete_eq_ok {plan : MyRoomOwnerItemsPlan} {loaded : Option MyRoomOwnerItemLoad} {prepared : MyRoomPreparedOwnerItems}
    (h : plan.complete U loaded = .ok prepared) : prepared.toMyRoomOwnerItemsPlan = plan := by
  have hpure : ∀ x : Except MyRoomProtectionError Unit,
      (x >>= fun _ => pure ({ plan with loaded := loaded } : MyRoomPreparedOwnerItems)) = .ok prepared →
        prepared.toMyRoomOwnerItemsPlan = plan := by
    intro x hx
    obtain ⟨_, -, hx⟩ := Checks.bind_eq_ok.1 hx
    cases hx
    rfl
  unfold MyRoomOwnerItemsPlan.complete at h
  split at h
  · exact hpure (.ok ()) h
  · exact hpure _ h
  · exact hpure _ h
  · exact hpure (.error _) h

/-- What is published was prepared on the way, for the same requester, who is admitted by the same plan now. -/
theorem prepared_of_publishes {s₀ s' : MyRoomProtectionSystem U} (hitems : s₀.items = []) (hresponses : s₀.responses = [])
    {es : List (MyRoomProtectionEvent U)} (hpath : Path Step s₀ es s) (hstep : Step s e s') {resource : MyRoomProtectedResource}
    {visitor : IdentityBinding} {plan : MyRoomOwnerResourcePlan} (hpublishes : e.publishes = some (resource, visitor, plan)) :
    plan.requester = visitor ∧ (∃ room, s.world.hub.Admits plan room) ∧
      Passed Step s₀ es s (fun _ _ e _ => e.prepares = some (resource, plan)) (fun _ => True) := by
  cases hstep with
  | publishedItems pre post plan' loaded prepared identity room hmem hcomplete =>
    rcases hr : publishMyroomOwnerItems identity prepared room s.world with ⟨r, w⟩
    rw [hr] at hpublishes
    match r, hpublishes, hr with
    | .ok (some (.packets packets)), hpublishes, hr =>
      obtain ⟨owner, howner, hpair⟩ := Option.map_eq_some_iff.1 hpublishes
      cases hpair
      obtain ⟨-, hvisible, hadmits⟩ := publishMyroomOwnerItems_ok hr
      obtain ⟨hrequester, hroom⟩ := hadmits plan howner
      refine ⟨hrequester, hroom, ?_⟩
      obtain ⟨ls, c, e', c', after, hls, hbefore, hc, hafter, he', hall⟩ := item_path hitems hpath (hmem ▸ mem_append_right pre
        (mem_cons_self (a := plan')))
      refine ⟨ls, c, e', c', after, hls, hbefore, hc, hafter, ?_, hall⟩
      rw [← complete_eq_ok hcomplete] at he'
      rw [he', MyRoomProtectionEvent.prepares, if_pos hvisible, howner]
      rfl
  | publishedResource pre post resource' plan' packet identity room hmem =>
    rcases hr : publishMyroomOwnerResource identity plan' packet room s.world with ⟨r, w⟩
    rw [hr] at hpublishes
    match r, hpublishes, hr with
    | .ok (some reply), hpublishes, hr =>
      cases hpublishes
      obtain ⟨-, hrequester, hroom⟩ := publishMyroomOwnerResource_ok hr
      refine ⟨hrequester, hroom, ?_⟩
      obtain ⟨ls, c, e', c', after, hls, hbefore, hc, hafter, rfl, hall⟩ := response_path hresponses hpath
        (hmem ▸ mem_append_right pre mem_cons_self)
      exact ⟨ls, c, _, c', after, hls, hbefore, hc, hafter, rfl, hall⟩
  | _ => cases hpublishes

/-- What is published of a protected resource to a visitor was authorized on the way: the same generation of the visitor is and was
a member of the room under one policy, which asks for no password, or whose password that generation had supplied. -/
theorem admitted {capacity : NonZero 64} {s' : MyRoomProtectionSystem U} {es : List (MyRoomProtectionEvent U)}
    (hpath : Path Step (start capacity) es s) (hstep : Step s e s') {resource : MyRoomProtectedResource}
    {visitor : IdentityBinding} {plan : MyRoomOwnerResourcePlan} (hpublishes : e.publishes = some (resource, visitor, plan))
    (hvisitor : visitor.userNo ≠ plan.owner.userNo) :
    plan.requester = visitor ∧ ∃ room, s.world.hub.Admits plan room ∧ Passed Step (start capacity) es s
      (fun before p e _ => e.prepares = some (resource, plan) ∧ ∃ room', p.world.hub.Admits plan room' ∧ room'.info = room.info ∧
        (room.info.useItemPassword = 0 ∨ Passed Step (start capacity) before p
          (fun _ c e _ => ∃ request, e = .checked visitor request (.ok .success) ∧ Supplied c.world.hub request resource plan)
          (fun e => ¬e.Spends visitor.userNo resource)))
      (fun _ => True) := by
  obtain ⟨hrequester, ⟨room, hadmits⟩, ls, p, e', p', after, hls, hbefore, hp, hafter, hprepares, hall⟩ :=
    prepared_of_publishes rfl rfl hpath hstep hpublishes
  refine ⟨hrequester, room, hadmits, ls, p, e', p', after, hls, hbefore, hp, hafter, ?_, hall⟩
  obtain ⟨room', hadmits', hopen⟩ := authorized_of_prepares rfl hbefore hp hprepares
  have hstamped : p.world.hub.Stamped := (policies_path hbefore).2 (stamped_start capacity)
  have hsince := (policies_path (Path.cons hp hafter)).1
  have hinfo : room.info = room'.info :=
    hsince.info_eq hstamped hadmits'.found hadmits.found (hadmits.policy.trans hadmits'.policy.symm)
  subst hrequester
  refine ⟨hprepares, room', hadmits', hinfo.symm, ?_⟩
  rw [hinfo]
  exact hopen.resolve_left hvisitor

namespace AdmissionAux

/-- A policy with an item password. -/
def lockedInfo : MyRoomInfo := { MyRoomInfo.default with useItemPassword := 1, itemPassword := "cart" }

/-- An owner with that policy. -/
def owner : MyRoomOwner .ascii := ⟨dao, lockedInfo, rfl⟩

/-- The visitor. -/
def visitor : IdentityBinding := bazzi.identity

/-- A member has entered the room. -/
def entered (s : MyRoomProtectionSystem .ascii) (member : MyRoomParticipant .ascii) : MyRoomProtectionSystem .ascii :=
  { s with world := ⟨s.world.hub.perform (.enter member owner), s.world.pendingMyroomPasswordGrants.erase member.identity.userNo⟩ }

/-- The visitor asks for the emblems. -/
def request : CheckPasswordRequest := ⟨1, "cart"⟩

/-- The owner and the visitor are in the room. -/
def visited : MyRoomProtectionSystem .ascii := entered (entered (start capacity) dao) bazzi

/-- The visitor has supplied the password. -/
def checked : MyRoomProtectionSystem .ascii :=
  { visited with world := (myroomCheckPassword visitor request visited.world).2 }

/-- The emblems are prepared. -/
def prepared : MyRoomProtectionSystem .ascii :=
  { checked with
    world := (prepareMyroomOwnerResource visitor .ownerEmblems checked.world).2
    responses := checked.responses ++
      ((prepareMyroomOwnerResource visitor .ownerEmblems checked.world).1.toOption.join.map (.ownerEmblems, ·)).toList }

/-- The plan of the visitor. -/
def plan : MyRoomOwnerResourcePlan := ⟨visitor, dao.identity, 1, false⟩

/-- A member that enters makes a step. -/
theorem step_entered (s : MyRoomProtectionSystem .ascii) (member : MyRoomParticipant .ascii)
    (h : ∃ t, s.world.hub.plan (.enter member owner) = .ok (some t)) :
    Step s (.transition (.enter member owner)) (entered s member) := by
  obtain ⟨t, ht⟩ := h
  have hstep := Step.transition (s := s) _ t _ ht (rfl : MyRoomCall.Revokes (.enter member owner) _ _)
  unfold entered MyRoomHub.perform
  rw [ht]
  exact hstep

end AdmissionAux

open AdmissionAux in
/-- Emblems that are published to a visitor who has supplied the password were authorized. -/
theorem admitted_emblems : ∃ (s : MyRoomProtectionSystem .ascii) (es : List (MyRoomProtectionEvent .ascii)),
    Path Step (start capacity) es s ∧ ∃ room, s.world.hub.Admits plan room ∧
      Passed Step (start capacity) es s (fun _ _ e _ => e.prepares = some (.ownerEmblems, plan)) (fun _ => True) := by
  have hdao : Step (start capacity) _ (entered _ dao) := step_entered _ dao ⟨_, rfl⟩
  have hbazzi : Step _ _ visited := step_entered _ bazzi ⟨_, rfl⟩
  have hchecked : Step visited _ checked := .checked visitor request
  have hprepared : Step checked _ prepared := .preparedResource visitor .ownerEmblems (.inl rfl)
  have hpath := ((((Path.nil _).snoc hdao).snoc hbazzi).snoc hchecked).snoc hprepared
  have hpublished := Step.publishedResource (s := prepared) [] [] .ownerEmblems ⟨visitor, plan⟩ [1] visitor true rfl
  have hpublishes : MyRoomProtectionEvent.publishes (U := .ascii) (.publishedResource visitor .ownerEmblems ⟨visitor, plan⟩
      (publishMyroomOwnerResource visitor ⟨visitor, plan⟩ [1] true prepared.world).1) = some (.ownerEmblems, visitor, plan) := rfl
  obtain ⟨-, room, hadmits, ls, p, e, p', after, hls, hbefore, hp, hafter, ⟨hprepares, -⟩, hall⟩ :=
    admitted hpath hpublished hpublishes (by decide)
  exact ⟨prepared, _, hpath, room, hadmits, ls, p, e, p', after, hls, hbefore, hp, hafter, hprepares, hall⟩

end MyRoomProtectionSystem

end P5136
