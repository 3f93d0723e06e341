import P5136.MyRoom.Runs

/-!
# Protected resources of a MyRoom

The items, the emblems and the career of an owner are shown to a visitor when the owner asks for no item password, or once for a
check of it. A check mints a grant that is kept under the user number of the visitor; preparing a response takes the grant of its
resource; the response is loaded outside the actor and published when what it was prepared on has not changed. A call acts under
the binding that the registry gives its session. Nothing is assumed of that binding here, so the runs are those of any registry.
-/

namespace P5136

open Act

inductive MyRoomProtectedFeature where
  | garage
  | emblem
  | career
  | itemDictionary
deriving DecidableEq

def MyRoomProtectedFeature.fromWire (value : Int) : Option MyRoomProtectedFeature :=
  if value = 0 then some .garage
  else if value = 1 then some .emblem
  else if value = 2 then some .career
  else if value = 3 then some .itemDictionary
  else none

inductive MyRoomProtectedResource where
  | ownerItems
  | ownerEmblems
  | career
deriving DecidableEq

/-- `MyRoomProtectedResource::from`. -/
def MyRoomProtectedFeature.resource : MyRoomProtectedFeature → MyRoomProtectedResource
  | garage => .ownerItems
  | itemDictionary => .ownerItems
  | emblem => .ownerEmblems
  | career => .career

structure CheckPasswordRequest where
  passwordKind : Int
  password : String
deriving DecidableEq

def CheckPasswordRequest.protectedFeature (request : CheckPasswordRequest) : Option MyRoomProtectedFeature :=
  MyRoomProtectedFeature.fromWire request.passwordKind

inductive CheckPasswordStatus where
  | unsupported
  | success
  | passwordRequired
  | wrongPassword
deriving DecidableEq

/-- `MyRoomOwnerResourcePlan`: the requester, the owner whose room it is in, and the policy of that room. -/
structure MyRoomOwnerResourcePlan where
  requester : IdentityBinding
  owner : IdentityBinding
  policyRevision : Nat
  visible : Bool
deriving DecidableEq

/-- `MyRoomHubError` with its variants for plans. -/
inductive MyRoomPlanError where
  | hub (source : MyRoomHubError)
  | wirePlanRequesterMismatch (plannedUserNo : UserNo) (plannedGeneration : Nat) (suppliedUserNo : UserNo)
      (suppliedGeneration : Nat)
  | staleWirePlan (owner : UserNo)
deriving DecidableEq

def MyRoomPlanError.isWirePlanStale : MyRoomPlanError → Bool
  | hub _ => false
  | wirePlanRequesterMismatch .. => true
  | staleWirePlan _ => true

namespace MyRoomHub

variable {U : Unicode}

def membershipIfMember (hub : MyRoomHub U) (identity : IdentityBinding) : Except MyRoomHubError (Option MyRoomMembership) :=
  let membership := hub.memberships.lookup identity.userNo
  if membership.isNone ∧ (hub.rooms.lookup identity.userNo).isNone then do
    Checks.ensure (hub.generations.lookup identity.userNo).isNone (.invariant (.orphanCanonicalGeneration identity.userNo))
    pure none
  else do
    hub.requireCanonicalIdentity identity
    match membership with
    | none => pure none
    | some membership => do
      hub.requireExactMember identity membership
      pure (some membership)

/-- The rest of `owner_resource_plan_if_member`, for a member of a room. -/
def ownerResourcePlan (hub : MyRoomHub U) (identity : IdentityBinding) (membership : MyRoomMembership) :
    Except MyRoomHubError MyRoomOwnerResourcePlan := do
  let room ← hub.room membership.owner
  Checks.ensure (room.owner.identity.userNo = membership.owner)
    (.invariant (.wrongOwnerPresentation membership.owner room.owner.identity.userNo))
  hub.requireCanonicalIdentity room.owner.identity
  pure ⟨identity, room.owner.identity, room.infoRevision,
    decide (identity.userNo = membership.owner ∨ room.info.useItemPassword = 0)⟩

/-- `owner_resource_plan_if_member`, which is `owner_item_plan_if_member` too. -/
def ownerResourcePlanIfMember (hub : MyRoomHub U) (identity : IdentityBinding) :
    Except MyRoomHubError (Option MyRoomOwnerResourcePlan) := do
  let membership ← hub.membershipIfMember identity
  match membership with
  | none => pure none
  | some membership => (hub.ownerResourcePlan identity membership).map some

/-- `tracked_owner_entry_input`: the information of the room that the identity owns. -/
def trackedOwnerEntryInput (hub : MyRoomHub U) (identity : IdentityBinding) :
    Except MyRoomHubError (Option (MyRoomParticipant U × MyRoomInfo)) :=
  match hub.rooms.lookup identity.userNo with
  | none => do
    let hasRole ← hub.hasRole identity.userNo
    if hasRole then hub.requireCanonicalIdentity identity else pure ()
    pure none
  | some room => do
    hub.requireCanonicalIdentity identity
    requireSameBinding room.owner.identity identity
    pure (some (room.owner, room.info))

/-- The rest of `present_owner_entry_input`, for an owner of a room. -/
def presentOwner (hub : MyRoomHub U) (identity : IdentityBinding) (owner : MyRoomParticipant U × MyRoomInfo) :
    Except MyRoomHubError (Option (MyRoomParticipant U × MyRoomInfo)) := do
  let room ← hub.room identity.userNo
  if room.ownerPresent then do
    let membership ← hub.membershipExact identity
    Checks.ensure (membership.owner = identity.userNo ∧ membership.slot = .owner) (.notPresentOwner identity.userNo)
    pure (some owner)
  else pure none

def presentOwnerEntryInput (hub : MyRoomHub U) (identity : IdentityBinding) :
    Except MyRoomHubError (Option (MyRoomParticipant U × MyRoomInfo)) := do
  let owner ← hub.trackedOwnerEntryInput identity
  match owner with
  | none => pure none
  | some owner => hub.presentOwner identity owner

/-- `revalidate_owner_resource_plan`, which is `revalidate_owner_item_plan` too. -/
def revalidateOwnerResourcePlan (hub : MyRoomHub U) (requester : IdentityBinding) (plan : MyRoomOwnerResourcePlan) :
    Except MyRoomPlanError Unit := do
  Checks.ensure (requester = plan.requester)
    (.wirePlanRequesterMismatch plan.requester.userNo plan.requester.generation.get requester.userNo requester.generation.get)
  let current ← (hub.ownerResourcePlanIfMember requester).mapError .hub
  Checks.ensure (current = some plan) (.staleWirePlan plan.owner.userNo)

end MyRoomHub

structure MyRoomPasswordGrant where
  requester : IdentityBinding
  owner : IdentityBinding
  policyRevision : Nat
  resource : MyRoomProtectedResource
deriving DecidableEq

namespace MyRoomPasswordGrant

def forOwnerItemPlan (feature : MyRoomProtectedFeature) (plan : MyRoomOwnerResourcePlan) : MyRoomPasswordGrant :=
  ⟨plan.requester, plan.owner, plan.policyRevision, feature.resource⟩

def matchesResource (grant : MyRoomPasswordGrant) (resource : MyRoomProtectedResource) (plan : MyRoomOwnerResourcePlan) : Bool :=
  decide (grant.resource = resource ∧ grant.requester = plan.requester ∧ grant.owner = plan.owner ∧
    grant.policyRevision = plan.policyRevision)

def matchesOwnerItems (grant : MyRoomPasswordGrant) (plan : MyRoomOwnerResourcePlan) : Bool :=
  grant.matchesResource .ownerItems plan

end MyRoomPasswordGrant

/-- Why a call fails. -/
inductive MyRoomProtectionError where
  | hub (operation : String) (source : MyRoomPlanError)
  | wirePlanStale (session : SessionId)
  | ownerItemPlanMismatch (session : SessionId)
  | commandOutboundUnavailable (session : SessionId)
deriving DecidableEq

structure MyRoomOwnerResourceResponsePlan where
  expected : IdentityBinding
  owner : MyRoomOwnerResourcePlan

/-- `MyRoomOwnerItemLoad`: the packets that were made of a profile, with the nickname of the profile. -/
structure MyRoomOwnerItemLoad where
  owner : IdentityBinding
  packets : List (List UInt8)
  subject : String

structure MyRoomOwnerItemsPlan where
  expected : IdentityBinding
  owner : Option MyRoomOwnerResourcePlan
  grant : Option MyRoomPasswordGrant

structure MyRoomPreparedOwnerItems extends MyRoomOwnerItemsPlan where
  loaded : Option MyRoomOwnerItemLoad

/-- What is queued to the requester: that there are no items, or a batch of packets. -/
inductive MyRoomOwnerReply where
  | missingOwnerItems
  | packets (packets : List (List UInt8))
deriving DecidableEq

def MyRoomOwnerItemsPlan.ownerItemsVisible (plan : MyRoomOwnerItemsPlan) : Bool :=
  plan.owner.any (fun owner => owner.visible || plan.grant.isSome)

def MyRoomOwnerItemsPlan.complete (U : Unicode) (plan : MyRoomOwnerItemsPlan) (loaded : Option MyRoomOwnerItemLoad) :
    Except MyRoomProtectionError MyRoomPreparedOwnerItems := do
  match plan.owner, loaded with
  | none, none => pure ()
  | some owner, some loaded =>
    Checks.ensure (plan.ownerItemsVisible = true ∧ loaded.owner = owner.owner ∧
      canonicalNicknameKey U loaded.subject = canonicalNicknameKey U owner.owner.nickname ∧ loaded.packets ≠ [])
      (.ownerItemPlanMismatch plan.expected.owner)
  | some _, none => Checks.ensure (¬plan.ownerItemsVisible = true) (.ownerItemPlanMismatch plan.expected.owner)
  | none, some _ => .error (.ownerItemPlanMismatch plan.expected.owner)
  pure { plan with loaded := loaded }

/-- The hub and the grants by the user numbers of their requesters. -/
structure MyRoomProtection (U : Unicode) where
  hub : MyRoomHub U
  pendingMyroomPasswordGrants : FiniteMap UserNo MyRoomPasswordGrant

namespace MyRoomProtection

variable {U : Unicode} {α : Type}

/-- A query of the hub. -/
def query (operation : String) (f : MyRoomHub U → Except MyRoomHubError α) : Act (MyRoomProtection U) MyRoomProtectionError α :=
  reads (fun s => (f s.hub).mapError (fun source => .hub operation (.hub source)))

/-- Take out the grant of a user. -/
def revoke (user : UserNo) : Act (MyRoomProtection U) MyRoomProtectionError Unit :=
  modify (fun s => { s with pendingMyroomPasswordGrants := s.pendingMyroomPasswordGrants.erase user })

/-- Take the grant of a user if it is for the resource; another one stays. -/
def takeGrant (user : UserNo) (resource : MyRoomProtectedResource) :
    Act (MyRoomProtection U) MyRoomProtectionError (Option MyRoomPasswordGrant) := fun s =>
  match s.pendingMyroomPasswordGrants.lookup user with
  | some grant =>
    if grant.resource = resource then
      (.ok (some grant), { s with pendingMyroomPasswordGrants := s.pendingMyroomPasswordGrants.erase user })
    else (.ok none, s)
  | none => (.ok none, s)

/-- The end of `myroom_check_password`: the password of a policy that asks for one. -/
def comparePassword (identity : IdentityBinding) (feature : MyRoomProtectedFeature) (plan : MyRoomOwnerResourcePlan)
    (info : MyRoomInfo) (password : String) : Act (MyRoomProtection U) MyRoomProtectionError CheckPasswordStatus :=
  if plan.visible then pure .success
  else if password = "" then pure .passwordRequired
  else if password = info.itemPassword then do
    modify (fun s => { s with pendingMyroomPasswordGrants :=
      s.pendingMyroomPasswordGrants.insert identity.userNo (.forOwnerItemPlan feature plan) })
    pure .success
  else pure .wrongPassword

def myroomCheckPassword (identity : IdentityBinding) (request : CheckPasswordRequest) :
    Act (MyRoomProtection U) MyRoomProtectionError CheckPasswordStatus := do
  revoke identity.userNo
  match request.protectedFeature with
  | none => pure .unsupported
  | some feature => do
    let plan ← query "item-password membership" (fun hub => hub.ownerResourcePlanIfMember identity)
    match plan with
    | none => pure .unsupported
    | some plan => do
      let owner ← query "item-password present owner" (fun hub => hub.presentOwnerEntryInput plan.owner)
      match owner with
      | none => pure .unsupported
      | some owner => comparePassword identity feature plan owner.2 request.password

/-- The grant of `prepare_myroom_owner_items`, when it is needed and matches. -/
def itemGrant (owner : Option MyRoomOwnerResourcePlan) (candidate : Option MyRoomPasswordGrant) :
    Act (MyRoomProtection U) MyRoomProtectionError (Option MyRoomPasswordGrant) :=
  match owner, candidate with
  | some plan, some grant =>
    if plan.visible = false ∧ grant.matchesOwnerItems plan = true then do
      let present ← query "owner-item grant present owner" (fun hub => hub.presentOwnerEntryInput plan.owner)
      pure (if present.isSome then some grant else none)
    else pure none
  | _, _ => pure none

def prepareMyroomOwnerItems (expected : IdentityBinding) :
    Act (MyRoomProtection U) MyRoomProtectionError MyRoomOwnerItemsPlan := do
  let owner ← query "owner-item plan query" (fun hub => hub.ownerResourcePlanIfMember expected)
  let candidate ← takeGrant expected.userNo .ownerItems
  let grant ← itemGrant owner candidate
  pure ⟨expected, owner, grant⟩

/-- The end of `prepare_myroom_owner_resource`: the grant matches and the owner is present. -/
def authorized (resource : MyRoomProtectedResource) (owner : MyRoomOwnerResourcePlan)
    (candidate : Option MyRoomPasswordGrant) : Act (MyRoomProtection U) MyRoomProtectionError Bool :=
  if candidate.any (fun grant => grant.matchesResource resource owner) = true then do
    let present ← query "owner-resource grant present owner" (fun hub => hub.presentOwnerEntryInput owner.owner)
    pure present.isSome
  else pure false

def prepareMyroomOwnerResource (expected : IdentityBinding) (resource : MyRoomProtectedResource) :
    Act (MyRoomProtection U) MyRoomProtectionError (Option MyRoomOwnerResourceResponsePlan) := do
  let owner ← query "owner-resource plan query" (fun hub => hub.ownerResourcePlanIfMember expected)
  match owner with
  | none => pure none
  | some owner =>
    if owner.visible then pure (some ⟨expected, owner⟩)
    else do
      let candidate ← takeGrant expected.userNo resource
      let authorized ← authorized resource owner candidate
      pure (if authorized then some ⟨expected, owner⟩ else none)

/-- Queue the reply, when the session has room for it. -/
def deliver (identity : IdentityBinding) (room : Bool) (reply : MyRoomOwnerReply) :
    Act (MyRoomProtection U) MyRoomProtectionError (Option MyRoomOwnerReply) :=
  if room then pure (some reply) else fail (.commandOutboundUnavailable identity.owner)

/-- Revalidate a plan: whether it still holds. -/
def revalidate (operation : String) (identity : IdentityBinding) (plan : MyRoomOwnerResourcePlan) :
    Act (MyRoomProtection U) MyRoomProtectionError Bool :=
  reads (fun s => match s.hub.revalidateOwnerResourcePlan identity plan with
    | .ok _ => .ok true
    | .error source => if source.isWirePlanStale then .ok false else .error (.hub operation source))

/-- `publish_myroom_owner_resource`, with what is queued: nothing when the plan is stale. -/
def publishMyroomOwnerResource (identity : IdentityBinding) (prepared : MyRoomOwnerResourceResponsePlan)
    (packet : List UInt8) (room : Bool) : Act (MyRoomProtection U) MyRoomProtectionError (Option MyRoomOwnerReply) :=
  if identity ≠ prepared.expected then pure none
  else do
    let valid ← revalidate "owner-resource plan revalidation" identity prepared.owner
    if valid then
      if prepared.owner.visible then deliver identity room (.packets [packet])
      else do
        let present ← query "owner-resource present owner revalidation"
          (fun hub => hub.presentOwnerEntryInput prepared.owner.owner)
        if present.isSome then deliver identity room (.packets [packet]) else pure none
    else pure none

/-- The membership of `publish_myroom_owner_items` is as it was when the response was prepared. -/
def revalidateItems (identity : IdentityBinding) (owner : Option MyRoomOwnerResourcePlan) :
    Act (MyRoomProtection U) MyRoomProtectionError Unit :=
  match owner with
  | some plan => do
    let valid ← revalidate "owner-item plan revalidation" identity plan
    if valid then pure () else fail (.wirePlanStale identity.owner)
  | none => do
    let current ← query "owner-item plan query" (fun hub => hub.ownerResourcePlanIfMember identity)
    if current.isNone then pure () else fail (.wirePlanStale identity.owner)

/-- The grant of `publish_myroom_owner_items` still matches. -/
def revalidateGrant (identity : IdentityBinding) (owner : Option MyRoomOwnerResourcePlan) (grant : Option MyRoomPasswordGrant) :
    Act (MyRoomProtection U) MyRoomProtectionError Unit :=
  match owner, grant with
  | _, none => pure ()
  | none, some _ => fail (.wirePlanStale identity.owner)
  | some plan, some grant =>
    if plan.visible = false ∧ grant.matchesOwnerItems plan = true then do
      let present ← query "owner-item grant revalidation" (fun hub => hub.presentOwnerEntryInput plan.owner)
      if present.isSome then pure () else fail (.wirePlanStale identity.owner)
    else fail (.wirePlanStale identity.owner)

/-- The packets of `publish_myroom_owner_items`. -/
def itemsReply (identity : IdentityBinding) (prepared : MyRoomPreparedOwnerItems) :
    Act (MyRoomProtection U) MyRoomProtectionError MyRoomOwnerReply :=
  match prepared.owner, prepared.loaded with
  | none, none => pure .missingOwnerItems
  | some _, none =>
    if prepared.ownerItemsVisible then fail (.ownerItemPlanMismatch identity.owner) else pure .missingOwnerItems
  | some _, some loaded =>
    if prepared.ownerItemsVisible then pure (.packets loaded.packets) else fail (.ownerItemPlanMismatch identity.owner)
  | none, some _ => fail (.ownerItemPlanMismatch identity.owner)

/-- `publish_myroom_owner_items`, with what is queued. -/
def publishMyroomOwnerItems (identity : IdentityBinding) (prepared : MyRoomPreparedOwnerItems) (room : Bool) :
    Act (MyRoomProtection U) MyRoomProtectionError (Option MyRoomOwnerReply) := do
  require (identity = prepared.expected) (.wirePlanStale identity.owner)
  revalidateItems identity prepared.owner
  revalidateGrant identity prepared.owner prepared.grant
  let reply ← itemsReply identity prepared
  deliver identity room reply

end MyRoomProtection

/-! ## What the queries return -/

namespace MyRoomHub

variable {U : Unicode} {hub : MyRoomHub U}

/-- The requester of a plan is a member of the room of the owner, which is stamped as the plan says, and whose policy decides
whether the resource is open. -/
structure Admits (hub : MyRoomHub U) (plan : MyRoomOwnerResourcePlan) (room : MyRoomState U) : Prop where
  generation : hub.generations.lookup plan.requester.userNo = some plan.requester
  member : ∃ slot, hub.memberships.lookup plan.requester.userNo = some ⟨plan.owner.userNo, slot⟩
  found : hub.rooms.lookup plan.owner.userNo = some room
  owner : room.owner.identity = plan.owner
  policy : room.infoRevision = plan.policyRevision
  visible : plan.visible = true ↔ plan.requester.userNo = plan.owner.userNo ∨ room.info.useItemPassword = 0

/-- A member that is found is the canonical one. -/
theorem membershipIfMember_eq_some {identity : IdentityBinding} {membership : MyRoomMembership}
    (h : hub.membershipIfMember identity = .ok (some membership)) :
    hub.generations.lookup identity.userNo = some identity ∧ hub.memberships.lookup identity.userNo = some membership := by
  unfold membershipIfMember at h
  simp only at h
  split at h
  · simp only [Checks.bind_eq_ok] at h
    obtain ⟨_, -, h⟩ := h
    cases h
  · simp only [Checks.bind_eq_ok] at h
    obtain ⟨_, hid, h⟩ := h
    split at h
    · cases h
    · rename_i mapped hmapped
      simp only [Checks.bind_eq_ok] at h
      obtain ⟨_, -, h⟩ := h
      cases h
      exact ⟨requireCanonicalIdentity_eq_ok.1 hid, hmapped⟩

/-- A plan admits its requester. -/
theorem ownerResourcePlanIfMember_eq_some {identity : IdentityBinding} {plan : MyRoomOwnerResourcePlan}
    (h : hub.ownerResourcePlanIfMember identity = .ok (some plan)) : plan.requester = identity ∧ ∃ room, hub.Admits plan room := by
  unfold ownerResourcePlanIfMember at h
  simp only [Checks.bind_eq_ok] at h
  obtain ⟨membership, hmembership, h⟩ := h
  split at h
  · cases h
  rename_i mapped
  obtain ⟨found, hfound, h⟩ := RunsAux.map_eq_ok h
  cases h
  obtain ⟨hgeneration, hmember⟩ := membershipIfMember_eq_some hmembership
  unfold ownerResourcePlan at hfound
  simp only [Checks.bind_eq_ok] at hfound
  obtain ⟨room, hroom, _, hname, _, -, hfound⟩ := hfound
  cases hfound
  have hname := Checks.ensure_eq_ok.1 hname
  refine ⟨rfl, room, hgeneration, ⟨mapped.slot, ?_⟩, ?_, rfl, rfl, ?_⟩
  · rw [hmember, hname]
  · rw [hname]
    exact Checks.orElse_eq_ok.1 hroom
  · simp only [hname, decide_eq_true_eq]

/-- An owner that is present is the owner of its room. -/
theorem presentOwnerEntryInput_eq_some {identity : IdentityBinding} {owner : MyRoomParticipant U × MyRoomInfo}
    (h : hub.presentOwnerEntryInput identity = .ok (some owner)) :
    ∃ room, hub.rooms.lookup identity.userNo = some room ∧ room.ownerPresent = true ∧ room.info = owner.2 := by
  unfold presentOwnerEntryInput at h
  simp only [Checks.bind_eq_ok] at h
  obtain ⟨tracked, htracked, h⟩ := h
  split at h
  · cases h
  rename_i tracked
  unfold presentOwner at h
  simp only [Checks.bind_eq_ok] at h
  obtain ⟨room, hroom, h⟩ := h
  have hroom := Checks.orElse_eq_ok.1 hroom
  split at h
  · rename_i hpresent
    simp only [Checks.bind_eq_ok] at h
    obtain ⟨_, -, _, -, h⟩ := h
    cases h
    refine ⟨room, hroom, hpresent, ?_⟩
    unfold trackedOwnerEntryInput at htracked
    rw [hroom] at htracked
    simp only [Checks.bind_eq_ok] at htracked
    obtain ⟨_, -, _, -, htracked⟩ := htracked
    cases htracked
    rfl
  · cases h

/-- A plan that is revalidated admits its requester still. -/
theorem revalidateOwnerResourcePlan_eq_ok {requester : IdentityBinding} {plan : MyRoomOwnerResourcePlan} {x : Unit}
    (h : hub.revalidateOwnerResourcePlan requester plan = .ok x) :
    plan.requester = requester ∧ ∃ room, hub.Admits plan room := by
  unfold revalidateOwnerResourcePlan at h
  simp only [Checks.bind_eq_ok] at h
  obtain ⟨_, -, current, hcurrent, h⟩ := h
  cases hplan : hub.ownerResourcePlanIfMember requester with
  | error e =>
    rw [hplan] at hcurrent
    cases hcurrent
  | ok found =>
    rw [hplan] at hcurrent
    cases hcurrent
    rw [Checks.ensure_eq_ok.1 h] at hplan
    exact ownerResourcePlanIfMember_eq_some hplan

end MyRoomHub

/-! ## What the calls do -/

namespace MyRoomProtection

variable {U : Unicode} {α : Type} {s t : MyRoomProtection U}

/-- A query leaves everything, and returns what the hub does. -/
theorem query_eq {operation : String} {f : MyRoomHub U → Except MyRoomHubError α} (s : MyRoomProtection U) :
    query operation f s = ((f s.hub).mapError (fun source => .hub operation (.hub source)), s) := rfl

/-- A query that returns. -/
@[simp] theorem query_eq_ok {operation : String} {f : MyRoomHub U → Except MyRoomHubError α} {a : α} :
    query operation f s = (.ok a, t) ↔ f s.hub = .ok a ∧ t = s := by
  rw [query_eq]
  cases f s.hub <;> simp [Checks.mapError_ok, Checks.mapError_error, eq_comm]

/-- A query that fails. -/
theorem query_eq_error {operation : String} {f : MyRoomHub U → Except MyRoomHubError α} {e : MyRoomHubError}
    (h : f s.hub = .error e) : query operation f s = (.error (.hub operation (.hub e)), s) := by
  rw [query_eq, h]
  rfl

/-- The grant of a user is taken out. -/
theorem revoke_eq (user : UserNo) (s : MyRoomProtection U) :
    revoke user s = (.ok (), ⟨s.hub, s.pendingMyroomPasswordGrants.erase user⟩) := rfl

/-- A call that changes no more than the grants, of which it mints none. -/
def OnlyTakes (c : Act (MyRoomProtection U) MyRoomProtectionError α) : Prop :=
  ∀ s, (c s).2.hub = s.hub ∧ ∀ user grant, (c s).2.pendingMyroomPasswordGrants.lookup user = some grant →
    s.pendingMyroomPasswordGrants.lookup user = some grant

/-- A call that reads. -/
theorem onlyTakes_of_readOnly {c : Act (MyRoomProtection U) MyRoomProtectionError α} (h : ReadOnly c) : OnlyTakes c := by
  intro s
  rw [h s]
  exact ⟨rfl, fun _ _ => id⟩

/-- Calls that take follow each other. -/
theorem OnlyTakes.bind {β : Type} {c : Act (MyRoomProtection U) MyRoomProtectionError α}
    {k : α → Act (MyRoomProtection U) MyRoomProtectionError β} (h : OnlyTakes c) (hk : ∀ a, OnlyTakes (k a)) :
    OnlyTakes (c >>= k) := by
  intro s
  have hs := h s
  rcases hc : c s with ⟨r, u⟩
  rw [hc] at hs
  cases r with
  | error e =>
    rw [bind_eq_error.2 (.inl hc)]
    exact hs
  | ok a =>
    rw [bind_of_ok hc]
    have hu := hk a u
    exact ⟨hu.1.trans hs.1, fun user grant hgrant => hs.2 user grant (hu.2 user grant hgrant)⟩

/-- A query takes nothing. -/
theorem onlyTakes_query {operation : String} {f : MyRoomHub U → Except MyRoomHubError α} :
    OnlyTakes (query operation f) := onlyTakes_of_readOnly fun _ => rfl

/-- A value takes nothing. -/
theorem onlyTakes_pure (a : α) : OnlyTakes (pure a : Act (MyRoomProtection U) MyRoomProtectionError α) :=
  onlyTakes_of_readOnly fun _ => rfl

/-- A grant is taken. -/
theorem onlyTakes_takeGrant (user : UserNo) (resource : MyRoomProtectedResource) :
    OnlyTakes (takeGrant (U := U) user resource) := by
  intro s
  unfold takeGrant
  split
  · split
    · refine ⟨rfl, fun other grant hgrant => ?_⟩
      rw [FiniteMap.lookup_erase] at hgrant
      split at hgrant
      · cases hgrant
      · exact hgrant
    · exact ⟨rfl, fun _ _ => id⟩
  · exact ⟨rfl, fun _ _ => id⟩

/-- What is taken was there, and no grant of the resource is left. -/
theorem takeGrant_spec (user : UserNo) (resource : MyRoomProtectedResource) (s : MyRoomProtection U) :
    ∃ candidate t, takeGrant user resource s = (.ok candidate, t) ∧ t.hub = s.hub ∧
      (∀ grant, candidate = some grant → s.pendingMyroomPasswordGrants.lookup user = some grant ∧ grant.resource = resource) ∧
      ∀ grant, t.pendingMyroomPasswordGrants.lookup user = some grant → grant.resource ≠ resource := by
  unfold takeGrant
  split
  · rename_i grant hgrant
    split
    · rename_i hresource
      refine ⟨_, _, rfl, rfl, ?_, ?_⟩
      · rintro _ ⟨⟩
        exact ⟨hgrant, hresource⟩
      · intro grant' hgrant'
        simp at hgrant'
    · rename_i hresource
      refine ⟨_, _, rfl, rfl, ?_, ?_⟩
      · rintro _ ⟨⟩
      · intro grant' hgrant'
        rw [hgrant] at hgrant'
        cases hgrant'
        exact hresource
  · rename_i hnone
    refine ⟨_, _, rfl, rfl, ?_, ?_⟩
    · rintro _ ⟨⟩
    · intro grant' hgrant'
      rw [hnone] at hgrant'
      cases hgrant'

/-- The password of a protected resource was supplied: the visitor is a member of the room of an owner that is present, whose
policy asks for that password. -/
def Supplied (hub : MyRoomHub U) (request : CheckPasswordRequest) (resource : MyRoomProtectedResource)
    (plan : MyRoomOwnerResourcePlan) : Prop :=
  (∃ feature, request.protectedFeature = some feature ∧ feature.resource = resource) ∧
    ∃ room, hub.Admits plan room ∧ plan.visible = false ∧ room.ownerPresent = true ∧ request.password ≠ "" ∧
      request.password = room.info.itemPassword

/-- A check takes the grant of the requester, and mints one only if the password was supplied. -/
theorem myroomCheckPassword_cases (identity : IdentityBinding) (request : CheckPasswordRequest) (s : MyRoomProtection U) :
    (∃ r, myroomCheckPassword identity request s =
        (r, ⟨s.hub, s.pendingMyroomPasswordGrants.erase identity.userNo⟩)) ∨
      ∃ grant plan, plan.requester = identity ∧ grant = ⟨plan.requester, plan.owner, plan.policyRevision, grant.resource⟩ ∧
        Supplied s.hub request grant.resource plan ∧ myroomCheckPassword identity request s =
          (.ok .success, ⟨s.hub, (s.pendingMyroomPasswordGrants.erase identity.userNo).insert identity.userNo grant⟩) := by
  rw [myroomCheckPassword, bind_of_ok (revoke_eq identity.userNo s)]
  cases hfeature : request.protectedFeature with
  | none => exact .inl ⟨_, rfl⟩
  | some feature =>
    simp only
    cases hplan : s.hub.ownerResourcePlanIfMember identity with
    | error e => exact .inl ⟨_, bind_eq_error.2 (.inl (query_eq_error hplan))⟩
    | ok plan =>
      rw [bind_of_ok (query_eq_ok.2 ⟨hplan, rfl⟩)]
      cases plan with
      | none => exact .inl ⟨_, rfl⟩
      | some plan =>
        obtain ⟨hrequester, room, hadmits⟩ := MyRoomHub.ownerResourcePlanIfMember_eq_some hplan
        simp only
        cases howner : s.hub.presentOwnerEntryInput plan.owner with
        | error e => exact .inl ⟨_, bind_eq_error.2 (.inl (query_eq_error howner))⟩
        | ok owner =>
          rw [bind_of_ok (query_eq_ok.2 ⟨howner, rfl⟩)]
          cases owner with
          | none => exact .inl ⟨_, rfl⟩
          | some owner =>
            obtain ⟨room', hroom', hpresent, hinfo⟩ := MyRoomHub.presentOwnerEntryInput_eq_some howner
            rw [hadmits.found] at hroom'
            cases hroom'
            simp only [comparePassword]
            split
            · exact .inl ⟨_, rfl⟩
            rename_i hvisible
            split
            · exact .inl ⟨_, rfl⟩
            rename_i hempty
            split
            · rename_i hpassword
              refine .inr ⟨.forOwnerItemPlan feature plan, plan, hrequester, rfl, ⟨⟨feature, hfeature, rfl⟩, room, hadmits, ?_,
                hpresent, hempty, ?_⟩, rfl⟩
              · simpa using hvisible
              · rw [hpassword, hinfo]
            · exact .inl ⟨_, rfl⟩

/-- The grant that a preparation takes: it is that of the requester, for the resource, on the plan. -/
def Granted (s : MyRoomProtection U) (resource : MyRoomProtectedResource) (plan : MyRoomOwnerResourcePlan) : Prop :=
  ∃ grant, s.pendingMyroomPasswordGrants.lookup plan.requester.userNo = some grant ∧
    grant = ⟨plan.requester, plan.owner, plan.policyRevision, resource⟩

/-- A grant that matches a plan is the one for it. -/
theorem matchesResource_eq_true {grant : MyRoomPasswordGrant} {resource : MyRoomProtectedResource}
    {plan : MyRoomOwnerResourcePlan} : grant.matchesResource resource plan = true ↔
      grant = ⟨plan.requester, plan.owner, plan.policyRevision, resource⟩ := by
  cases grant
  simp only [MyRoomPasswordGrant.matchesResource, decide_eq_true_eq, MyRoomPasswordGrant.mk.injEq]
  tauto

/-- Preparing items takes no more than a grant. -/
theorem onlyTakes_prepareMyroomOwnerItems (identity : IdentityBinding) :
    OnlyTakes (prepareMyroomOwnerItems (U := U) identity) := by
  refine onlyTakes_query.bind fun owner => (onlyTakes_takeGrant _ _).bind fun candidate => ?_
  refine OnlyTakes.bind ?_ fun _ => onlyTakes_pure _
  unfold itemGrant
  split
  · split
    · exact onlyTakes_query.bind fun _ => onlyTakes_pure _
    · exact onlyTakes_pure _
  · exact onlyTakes_pure _

/-- Preparing another resource takes no more than a grant. -/
theorem onlyTakes_prepareMyroomOwnerResource (identity : IdentityBinding) (resource : MyRoomProtectedResource) :
    OnlyTakes (prepareMyroomOwnerResource (U := U) identity resource) := by
  refine onlyTakes_query.bind fun owner => ?_
  split
  · exact onlyTakes_pure _
  split
  · exact onlyTakes_pure _
  refine (onlyTakes_takeGrant _ _).bind fun candidate => OnlyTakes.bind ?_ fun _ => onlyTakes_pure _
  unfold authorized
  split
  · exact onlyTakes_query.bind fun _ => onlyTakes_pure _
  · exact onlyTakes_pure _

/-- Items that are prepared are open to the requester, or a grant is taken for them. -/
theorem prepareMyroomOwnerItems_ok {identity : IdentityBinding} {plan : MyRoomOwnerItemsPlan}
    (h : prepareMyroomOwnerItems identity s = (.ok plan, t)) :
    plan.expected = identity ∧ ∀ owner, plan.owner = some owner → plan.ownerItemsVisible = true →
      owner.requester = identity ∧ (∃ room, s.hub.Admits owner room) ∧ (owner.visible = true ∨ Granted s .ownerItems owner ∧
        ∀ grant, t.pendingMyroomPasswordGrants.lookup identity.userNo = some grant → grant.resource ≠ .ownerItems) := by
  unfold prepareMyroomOwnerItems at h
  simp only [bind_eq_ok, query_eq_ok, pure_eq_ok] at h
  obtain ⟨owner, _, ⟨howner, rfl⟩, candidate, u, htake, grant, _, hgrant, rfl, rfl⟩ := h
  refine ⟨rfl, fun owner' howner' hvisible => ?_⟩
  simp only at howner'
  subst howner'
  obtain ⟨hrequester, room, hadmits⟩ := MyRoomHub.ownerResourcePlanIfMember_eq_some howner
  refine ⟨hrequester, ⟨room, hadmits⟩, ?_⟩
  simp only [MyRoomOwnerItemsPlan.ownerItemsVisible, Option.any_some, Bool.or_eq_true] at hvisible
  rcases hvisible with hvisible | hsome
  · exact .inl hvisible
  obtain ⟨candidate', t', htake', -, hfound, hleft⟩ := takeGrant_spec identity.userNo .ownerItems _
  rw [htake'] at htake
  cases htake
  unfold itemGrant at hgrant
  cases candidate with
  | none =>
    simp only [pure_eq_ok] at hgrant
    rw [hgrant.1] at hsome
    cases hsome
  | some candidate =>
    simp only at hgrant
    split at hgrant
    · rename_i hmatches
      simp only [bind_eq_ok, query_eq_ok, pure_eq_ok] at hgrant
      obtain ⟨present, _, ⟨-, rfl⟩, -, rfl⟩ := hgrant
      refine .inr ⟨⟨candidate, ?_, matchesResource_eq_true.1 hmatches.2⟩, hleft⟩
      rw [hrequester]
      exact (hfound _ rfl).1
    · simp only [pure_eq_ok] at hgrant
      rw [hgrant.1] at hsome
      cases hsome

/-- Another resource that is prepared is open to the requester, or a grant is taken for it. -/
theorem prepareMyroomOwnerResource_ok {identity : IdentityBinding} {resource : MyRoomProtectedResource}
    {plan : MyRoomOwnerResourceResponsePlan}
    (h : prepareMyroomOwnerResource identity resource s = (.ok (some plan), t)) :
    plan.expected = identity ∧ plan.owner.requester = identity ∧ (∃ room, s.hub.Admits plan.owner room) ∧
      (plan.owner.visible = true ∨ Granted s resource plan.owner ∧
        ∀ grant, t.pendingMyroomPasswordGrants.lookup identity.userNo = some grant → grant.resource ≠ resource) := by
  unfold prepareMyroomOwnerResource at h
  simp only [bind_eq_ok, query_eq_ok] at h
  obtain ⟨owner, _, ⟨howner, rfl⟩, h⟩ := h
  split at h
  · simp only [pure_eq_ok] at h
    cases h.1
  rename_i owner
  obtain ⟨hrequester, room, hadmits⟩ := MyRoomHub.ownerResourcePlanIfMember_eq_some howner
  split at h
  · rename_i hvisible
    simp only [pure_eq_ok] at h
    cases h.1
    exact ⟨rfl, hrequester, ⟨room, hadmits⟩, .inl hvisible⟩
  simp only [bind_eq_ok, pure_eq_ok] at h
  obtain ⟨candidate, u, htake, authorized', _, hauthorized, hplan, rfl⟩ := h
  split at hplan
  swap
  · cases hplan
  rename_i htrue
  subst htrue
  cases hplan
  refine ⟨rfl, hrequester, ⟨room, hadmits⟩, .inr ?_⟩
  obtain ⟨candidate', t', htake', -, hfound, hleft⟩ := takeGrant_spec identity.userNo resource _
  rw [htake'] at htake
  cases htake
  unfold authorized at hauthorized
  split at hauthorized
  · rename_i hany
    simp only [bind_eq_ok, query_eq_ok, pure_eq_ok] at hauthorized
    obtain ⟨present, _, ⟨-, rfl⟩, -, rfl⟩ := hauthorized
    obtain ⟨grant, rfl, hmatches⟩ := (Option.any_eq_true _ _).1 hany
    refine ⟨⟨grant, ?_, matchesResource_eq_true.1 hmatches⟩, hleft⟩
    rw [hrequester]
    exact (hfound grant rfl).1
  · simp only [pure_eq_ok] at hauthorized
    cases hauthorized.1

/-- A plan that is revalidated. -/
theorem revalidate_eq_true {operation : String} {identity : IdentityBinding} {plan : MyRoomOwnerResourcePlan}
    (h : revalidate operation identity plan s = (.ok true, t)) :
    t = s ∧ plan.requester = identity ∧ ∃ room, s.hub.Admits plan room := by
  unfold revalidate at h
  simp only [reads_eq_ok] at h
  obtain ⟨h, rfl⟩ := h
  cases hplan : s.hub.revalidateOwnerResourcePlan identity plan with
  | ok x => exact ⟨rfl, MyRoomHub.revalidateOwnerResourcePlan_eq_ok hplan⟩
  | error e =>
    rw [hplan] at h
    by_cases hstale : e.isWirePlanStale = true <;> simp [hstale] at h

/-- Items are published to the requester of a plan that holds still. -/
theorem publishMyroomOwnerItems_ok {identity : IdentityBinding} {prepared : MyRoomPreparedOwnerItems} {room : Bool}
    {packets : List (List UInt8)} (h : publishMyroomOwnerItems identity prepared room s = (.ok (some (.packets packets)), t)) :
    identity = prepared.expected ∧ prepared.ownerItemsVisible = true ∧ ∀ plan, prepared.owner = some plan →
      plan.requester = identity ∧ ∃ room, s.hub.Admits plan room := by
  unfold publishMyroomOwnerItems at h
  simp only [bind_eq_ok, require_eq_ok] at h
  obtain ⟨_, _, ⟨hexpected, rfl⟩, _, u, hitems, _, u', -, reply, u'', hreply, hdeliver⟩ := h
  refine ⟨hexpected, ?_, fun plan hplan => ?_⟩
  · unfold deliver at hdeliver
    split at hdeliver
    · simp only [pure_eq_ok] at hdeliver
      cases hdeliver.1
      by_contra hvisible
      cases howner : prepared.owner <;> cases hloaded : prepared.loaded <;>
        simp [itemsReply, howner, hloaded, hvisible] at hreply
    · simp at hdeliver
  · rw [hplan] at hitems
    unfold revalidateItems at hitems
    simp only [bind_eq_ok] at hitems
    obtain ⟨valid, v, hvalid, hitems⟩ := hitems
    split at hitems
    · rename_i htrue
      subst htrue
      exact (revalidate_eq_true hvalid).2
    · simp at hitems

/-- Another resource is published to the requester of a plan that holds still. -/
theorem publishMyroomOwnerResource_ok {identity : IdentityBinding} {prepared : MyRoomOwnerResourceResponsePlan}
    {packet : List UInt8} {room : Bool} {reply : MyRoomOwnerReply}
    (h : publishMyroomOwnerResource identity prepared packet room s = (.ok (some reply), t)) :
    identity = prepared.expected ∧ prepared.owner.requester = identity ∧ ∃ room, s.hub.Admits prepared.owner room := by
  unfold publishMyroomOwnerResource at h
  split at h
  · simp at h
  rename_i hexpected
  simp only [bind_eq_ok] at h
  obtain ⟨valid, v, hvalid, h⟩ := h
  split at h
  · rename_i htrue
    subst htrue
    exact ⟨not_not.1 hexpected, (revalidate_eq_true hvalid).2⟩
  · simp at h

/-- Queueing changes neither the hub nor a grant. -/
theorem readOnly_deliver (identity : IdentityBinding) (room : Bool) (reply : MyRoomOwnerReply) :
    ReadOnly (deliver (U := U) identity room reply) := by
  unfold deliver
  split
  · exact readOnly_pure _
  · exact readOnly_fail _

/-- Publishing items changes neither. -/
theorem readOnly_publishMyroomOwnerItems (identity : IdentityBinding) (prepared : MyRoomPreparedOwnerItems) (room : Bool) :
    ReadOnly (publishMyroomOwnerItems (U := U) identity prepared room) := by
  have hreply : ReadOnly (itemsReply (U := U) identity prepared) := by
    unfold itemsReply
    split
    · exact readOnly_pure _
    · split
      · exact readOnly_fail _
      · exact readOnly_pure _
    · split
      · exact readOnly_pure _
      · exact readOnly_fail _
    · exact readOnly_fail _
  have hitems : ReadOnly (revalidateItems (U := U) identity prepared.owner) := by
    unfold revalidateItems
    split
    · refine (readOnly_reads _).andThen fun valid => ?_
      split
      · exact readOnly_pure _
      · exact readOnly_fail _
    · refine (readOnly_reads _).andThen fun current => ?_
      split
      · exact readOnly_pure _
      · exact readOnly_fail _
  have hgrant : ReadOnly (revalidateGrant (U := U) identity prepared.owner prepared.grant) := by
    unfold revalidateGrant
    split
    · exact readOnly_pure _
    · exact readOnly_fail _
    · split
      · refine (readOnly_reads _).andThen fun present => ?_
        split
        · exact readOnly_pure _
        · exact readOnly_fail _
      · exact readOnly_fail _
  exact (readOnly_require _ _).andThen fun _ => hitems.andThen fun _ => hgrant.andThen fun _ => hreply.andThen fun _ =>
    readOnly_deliver identity room _

/-- Publishing another resource changes neither. -/
theorem readOnly_publishMyroomOwnerResource (identity : IdentityBinding) (prepared : MyRoomOwnerResourceResponsePlan)
    (packet : List UInt8) (room : Bool) : ReadOnly (publishMyroomOwnerResource (U := U) identity prepared packet room) := by
  unfold publishMyroomOwnerResource
  split
  · exact readOnly_pure _
  refine (readOnly_reads _).andThen fun valid => ?_
  split
  · split
    · exact readOnly_deliver identity room _
    · refine (readOnly_reads _).andThen fun present => ?_
      split
      · exact readOnly_deliver identity room _
      · exact readOnly_pure _
  · exact readOnly_pure _

end MyRoomProtection

end P5136
