import P5136.Lib.Transition
import P5136.Messenger.Index

/-!
# Runs of the messenger hub

Whatever is called, in whatever order and with whatever stamps and claims, the indexes of the hub stay inverse to each other, a
call that fails changes nothing, a room number is given once, and what is said in a room is delivered to its members and to no
one else.
-/

namespace P5136

open Act Transition List

/-- The room an event is about. -/
def MessengerEvent.room : MessengerEvent → Option MessengerRoomId
  | .inviteChat _ _ _ _ roomId _ => some roomId
  | .chat roomId _ _ _ _ => some roomId
  | .leaveChat _ roomId => some roomId
  | .guildChat _ _ => none

/-- What is said in an event. -/
def MessengerEvent.message : MessengerEvent → Option String
  | .chat _ _ _ message _ => some message
  | .guildChat _ message => some message
  | .inviteChat .. | .leaveChat .. => none

/-- A call of the hub. -/
inductive MessengerCall where
  | enter (session : MessengerSessionId) (peerIp : IpAddr) (active : MessengerIdentity) (claim : EnterClaim)
  | invite (session : MessengerSessionId) (activeSender activeTarget : MessengerIdentity) (claim : InviteClaim)
  | chat (session : MessengerSessionId) (activeSender : MessengerIdentity) (claim : ChatClaim)
  | leave (session : MessengerSessionId) (activeSender : MessengerIdentity) (claim : LeaveClaim)
  | guildChat (session : MessengerSessionId) (activeSender : MessengerIdentity) (claim : GuildChatClaim)
  | advanceGeneration (previous next : MessengerIdentity)
  | releaseIdentity (identity : MessengerIdentity)
  | disconnectSession (session : MessengerSessionId)
deriving DecidableEq

/-- What a call returns. -/
inductive MessengerReply where
  | entered (outcome : EnterOutcome)
  | deliveries (deliveries : List MessengerDelivery)
  | advanced (advance : GenerationAdvance)
  | released (release : IdentityRelease)
  | disconnected (release : Option IdentityRelease)
deriving DecidableEq

namespace MessengerHub

/-- Make a call. -/
def perform (U : Unicode) (call : MessengerCall) : Act MessengerHub MessengerHubError MessengerReply :=
  match call with
  | .enter session peerIp active claim => .entered <$> enter U session peerIp active claim
  | .invite session activeSender activeTarget claim => .deliveries <$> invite U session activeSender activeTarget claim
  | .chat session activeSender claim => .deliveries <$> chat U session activeSender claim
  | .leave session activeSender claim => .deliveries <$> leave session activeSender claim
  | .guildChat session activeSender claim => .deliveries <$> guildChat U session activeSender claim
  | .advanceGeneration previous next => .advanced <$> advanceGeneration previous next
  | .releaseIdentity identity => .released <$> releaseIdentity identity
  | .disconnectSession session => .disconnected <$> disconnectSession session

/-- A step of a run: a call, with what it returned. -/
def Step (U : Unicode) (hub : MessengerHub) (label : MessengerCall × Except MessengerHubError MessengerReply)
    (hub' : MessengerHub) : Prop :=
  perform U label.1 hub = (label.2, hub')

/-- The members of a room. -/
def membersOf (hub : MessengerHub) (roomId : MessengerRoomId) : List MessengerIdentity :=
  ((hub.rooms.lookup roomId).map (·.members)).getD []

/-- The deliveries tell the event, once, to exactly the sessions whose live endpoint carries the stamp of a member of the room. -/
def Delivers (hub : MessengerHub) (roomId : MessengerRoomId) (event : MessengerEvent) (deliveries : List MessengerDelivery) :
    Prop :=
  (deliveries.map (·.session)).Nodup ∧ (∀ d ∈ deliveries, d.event = event) ∧
    ∀ session, session ∈ deliveries.map (·.session) ↔
      ∃ member ∈ hub.membersOf roomId, ∃ endpoint, hub.endpointsBySession.lookup session = some endpoint ∧
        identityStampMatches endpoint.identity member = true

/-- The room that an invitation has made: the one its deliveries are about. -/
def created (label : MessengerCall × Except MessengerHubError MessengerReply) : List MessengerRoomId :=
  match label with
  | (.invite .., .ok (.deliveries deliveries)) => (deliveries.head?.bind (fun d => d.event.room)).toList
  | _ => []

/-! ## What a call that returns has done -/

/-- A call of the hub returns when the operation it stands for does. -/
theorem map_eq_ok {α β : Type} {f : α → β} {c : Act MessengerHub MessengerHubError α} {s t : MessengerHub} {b : β} :
    (f <$> c) s = (.ok b, t) ↔ ∃ a, c s = (.ok a, t) ∧ f a = b := by
  change (c >>= fun a => pure (f a)) s = _ ↔ _
  rw [bind_eq_ok]
  constructor
  · rintro ⟨a, u, ha, hp⟩
    obtain ⟨rfl, rfl⟩ := pure_eq_ok.1 hp
    exact ⟨a, ha, rfl⟩
  · rintro ⟨a, ha, rfl⟩
    exact ⟨a, t, ha, pure_eq_ok.2 ⟨rfl, rfl⟩⟩

/-- An authorized session is live under the stamp, as the session of its identity. -/
theorem authorizeSession_eq_ok {hub : MessengerHub} {session : MessengerSessionId} {active sender : MessengerIdentity} :
    hub.authorizeSession session active = .ok sender ↔
      ∃ endpoint, hub.endpointsBySession.lookup session = some endpoint ∧ endpoint.identity = sender ∧
        identityStampMatches sender active = true ∧ hub.sessionByIdentity.lookup active.key = some session := by
  unfold authorizeSession
  simp only [Checks.bind_eq_ok, Checks.orElse_eq_ok, Checks.ensure_eq_ok]
  constructor
  · rintro ⟨endpoint, he, -, ⟨hs, hk⟩, hp⟩
    cases hp
    exact ⟨endpoint, he, rfl, hs, hk⟩
  · rintro ⟨endpoint, he, rfl, hs, hk⟩
    exact ⟨endpoint, he, (), ⟨hs, hk⟩, rfl⟩

theorem enter_eq_ok {U : Unicode} {session : MessengerSessionId} {peerIp : IpAddr} {active : MessengerIdentity}
    {claim : EnterClaim} {s t : MessengerHub} {outcome : EnterOutcome}
    (h : enter U session peerIp active claim s = (.ok outcome, t)) :
    s.endpointsBySession.lookup session = none ∧
      (s.sessionByIdentity.lookup active.key = none → s.endpointsBySession.size < s.limits.maxSessions) ∧
      t = s.installEndpoint session active claim.chatType (s.sessionByIdentity.lookup active.key) := by
  simp only [enter, bind_eq_ok, get_eq_ok, require_eq_ok, modify_eq_ok, pure_eq_ok] at h
  obtain ⟨_, _, ⟨rfl, rfl⟩, _, _, ⟨hnew, rfl⟩, _, _, ⟨-, rfl⟩, _, _, ⟨-, rfl⟩, _, _, ⟨-, rfl⟩, _, _, ⟨hlimit, rfl⟩, _, _, rfl, -,
    rfl⟩ := h
  refine ⟨by simpa using hnew, fun hnone => ?_, rfl⟩
  rw [hnone] at hlimit
  simp only [Option.isNone_none, true_and] at hlimit
  omega

theorem invite_eq_ok {U : Unicode} {session : MessengerSessionId} {activeSender activeTarget : MessengerIdentity}
    {claim : InviteClaim} {s t : MessengerHub} {deliveries : List MessengerDelivery}
    (h : invite U session activeSender activeTarget claim s = (.ok deliveries, t)) :
    ∃ sender roomId, s.authorizeSession session activeSender = .ok sender ∧ sender.key ≠ activeTarget.key ∧
      s.rooms.size < s.limits.maxRooms ∧ s.roomCountOf sender.key < s.limits.maxRoomsPerIdentity ∧
      s.roomCountOf activeTarget.key < s.limits.maxRoomsPerIdentity ∧ s.nextRoomId = some roomId ∧
      t = ({ s with nextRoomId := roomId.next } : MessengerHub).insertRoom roomId [sender, activeTarget] ∧
      deliveries = t.deliverToMembers [sender, activeTarget]
        (.inviteChat sender.userNo.get activeTarget.userNo.get sender.nickname activeTarget.nickname roomId 0) := by
  simp only [invite, allocateRoomId, bind_eq_ok, get_eq_ok, ofExcept_eq_ok, require_eq_ok, modify_eq_ok,
    pure_eq_ok, ensureIdentityRoomCapacity, Checks.ensure_eq_ok, Checks.orElse_eq_ok] at h
  obtain ⟨_, _, ⟨rfl, rfl⟩, sender, _, ⟨hsender, rfl⟩, _, _, ⟨-, rfl⟩, _, _, ⟨-, rfl⟩, _, _, ⟨hself, rfl⟩, _, _, ⟨hrooms, rfl⟩,
    _, _, ⟨hc, rfl⟩, _, _, ⟨hc', rfl⟩, roomId, _, ⟨_, _, ⟨rfl, rfl⟩, _, _, ⟨hnext, rfl⟩, _, _, rfl, rfl, rfl⟩, _, _, rfl, _, _,
    ⟨rfl, rfl⟩, rfl, rfl⟩ := h
  exact ⟨sender, _, hsender, hself, Nat.lt_of_not_ge hrooms, Nat.lt_of_not_ge hc, Nat.lt_of_not_ge hc', hnext, rfl, rfl⟩

theorem chat_eq_ok {U : Unicode} {session : MessengerSessionId} {activeSender : MessengerIdentity} {claim : ChatClaim}
    {s t : MessengerHub} {deliveries : List MessengerDelivery}
    (h : chat U session activeSender claim s = (.ok deliveries, t)) :
    ∃ sender roomId room, s.authorizeSession session activeSender = .ok sender ∧ roomId.get = claim.roomId ∧
      s.rooms.lookup roomId = some room ∧ utf16Length claim.message ≤ s.limits.maxMessageUtf16Units ∧ t = s ∧
      deliveries = s.deliverToMembers room.members (.chat roomId sender.userNo.get sender.nickname claim.message 0) := by
  simp only [chat, bind_eq_ok, get_eq_ok, ofExcept_eq_ok, require_eq_ok, pure_eq_ok, validateMessage,
    Checks.ensure_eq_ok, Checks.orElse_eq_ok, NonZero.new_eq_some] at h
  obtain ⟨_, _, ⟨rfl, rfl⟩, sender, _, ⟨hsender, rfl⟩, _, _, ⟨-, rfl⟩, _, _, ⟨hmessage, rfl⟩, roomId, _, ⟨hroomId, rfl⟩, room, _,
    ⟨hroom, rfl⟩, _, _, ⟨-, rfl⟩, rfl, rfl⟩ := h
  exact ⟨sender, roomId, room, hsender, hroomId, hroom, Nat.le_of_not_gt hmessage, rfl, rfl⟩

theorem leave_eq_ok {session : MessengerSessionId} {activeSender : MessengerIdentity} {claim : LeaveClaim}
    {s t : MessengerHub} {deliveries : List MessengerDelivery} (h : leave session activeSender claim s = (.ok deliveries, t)) :
    ∃ sender roomId room index, s.authorizeSession session activeSender = .ok sender ∧ roomId.get = claim.roomId ∧
      s.rooms.lookup roomId = some room ∧
      room.members.findIdx? (fun member => identityStampMatches member sender) = some index ∧
      t = s.leaveRoom sender.key roomId (room.members.eraseIdx index) ∧
      deliveries = t.deliverToMembers (room.members.eraseIdx index) (.leaveChat sender.userNo.get roomId) := by
  simp only [leave, bind_eq_ok, get_eq_ok, ofExcept_eq_ok, require_eq_ok, modify_eq_ok, pure_eq_ok,
    Checks.orElse_eq_ok, NonZero.new_eq_some] at h
  obtain ⟨_, _, ⟨rfl, rfl⟩, sender, _, ⟨hsender, rfl⟩, _, _, ⟨-, rfl⟩, roomId, _, ⟨hroomId, rfl⟩, room, _, ⟨hroom, rfl⟩, index, _,
    ⟨hindex, rfl⟩, _, _, rfl, _, _, ⟨rfl, rfl⟩, rfl, rfl⟩ := h
  exact ⟨sender, roomId, room, index, hsender, hroomId, hroom, hindex, rfl, rfl⟩

theorem guildChat_eq_ok {U : Unicode} {session : MessengerSessionId} {activeSender : MessengerIdentity} {claim : GuildChatClaim}
    {s t : MessengerHub} {deliveries : List MessengerDelivery}
    (h : guildChat U session activeSender claim s = (.ok deliveries, t)) :
    t = s ∧ utf16Length claim.message ≤ s.limits.maxMessageUtf16Units ∧
      ∀ d ∈ deliveries, d.event.message = some claim.message := by
  simp only [guildChat, bind_eq_ok, get_eq_ok, ofExcept_eq_ok, pure_eq_ok, validateMessage,
    Checks.ensure_eq_ok] at h
  obtain ⟨_, _, ⟨rfl, rfl⟩, sender, _, ⟨-, rfl⟩, _, _, ⟨-, rfl⟩, _, _, ⟨hmessage, rfl⟩, rfl, rfl⟩ := h
  refine ⟨rfl, Nat.le_of_not_gt hmessage, ?_⟩
  intro d hd
  obtain ⟨session', -, rfl⟩ := mem_map.1 hd
  rfl

theorem advanceGeneration_eq_ok {previous next : MessengerIdentity} {s t : MessengerHub} {advance : GenerationAdvance}
    (h : advanceGeneration previous next s = (.ok advance, t)) :
    previous.key = next.key ∧ t = (s.advanceIdentity previous next).1 := by
  simp only [advanceGeneration, bind_eq_ok, get_eq_ok, require_eq_ok, modify_eq_ok, pure_eq_ok] at h
  obtain ⟨_, _, ⟨⟨hkey, -⟩, rfl⟩, _, _, ⟨rfl, rfl⟩, _, _, rfl, -, rfl⟩ := h
  exact ⟨hkey, rfl⟩

/-! ## A call that fails -/

namespace SafetyAux

theorem atomic_map {α β : Type} {f : α → β} {c : Act MessengerHub MessengerHubError α} (h : c.Atomic) : (f <$> c).Atomic :=
  h.bind_total fun _ => total_pure _

theorem atomic_enter (U : Unicode) (session : MessengerSessionId) (peerIp : IpAddr) (active : MessengerIdentity)
    (claim : EnterClaim) : (enter U session peerIp active claim).Atomic :=
  readOnly_get.bind_atomic fun _ => (readOnly_require _ _).bind_atomic fun _ =>
    (readOnly_require _ _).bind_atomic fun _ => (readOnly_require _ _).bind_atomic fun _ =>
    (readOnly_require _ _).bind_atomic fun _ => (readOnly_require _ _).bind_atomic fun _ =>
    ((total_modify _).andThen fun _ => total_pure _).atomic

theorem atomic_allocateRoomId : allocateRoomId.Atomic :=
  readOnly_get.bind_atomic fun _ => (readOnly_ofExcept _).bind_atomic fun _ =>
    ((total_modify _).andThen fun _ => total_pure _).atomic

theorem total_get : (get : Act MessengerHub MessengerHubError MessengerHub).Total := fun s => ⟨s, s, rfl⟩

theorem atomic_invite (U : Unicode) (session : MessengerSessionId) (activeSender activeTarget : MessengerIdentity)
    (claim : InviteClaim) : (invite U session activeSender activeTarget claim).Atomic :=
  readOnly_get.bind_atomic fun _ => (readOnly_ofExcept _).bind_atomic fun _ =>
    (readOnly_ofExcept _).bind_atomic fun _ => (readOnly_require _ _).bind_atomic fun _ =>
    (readOnly_require _ _).bind_atomic fun _ => (readOnly_require _ _).bind_atomic fun _ =>
    (readOnly_ofExcept _).bind_atomic fun _ => (readOnly_ofExcept _).bind_atomic fun _ =>
    atomic_allocateRoomId.bind_total fun _ => (total_modify _).andThen fun _ => total_get.andThen fun _ => total_pure _

theorem readOnly_chat (U : Unicode) (session : MessengerSessionId) (activeSender : MessengerIdentity) (claim : ChatClaim) :
    (chat U session activeSender claim).ReadOnly :=
  readOnly_get.andThen fun _ => (readOnly_ofExcept _).andThen fun _ => (readOnly_ofExcept _).andThen fun _ =>
    (readOnly_ofExcept _).andThen fun _ => (readOnly_ofExcept _).andThen fun _ =>
    (readOnly_ofExcept _).andThen fun _ => (readOnly_require _ _).andThen fun _ => readOnly_pure _

theorem atomic_leave (session : MessengerSessionId) (activeSender : MessengerIdentity) (claim : LeaveClaim) :
    (leave session activeSender claim).Atomic :=
  readOnly_get.bind_atomic fun _ => (readOnly_ofExcept _).bind_atomic fun _ =>
    (readOnly_require _ _).bind_atomic fun _ => (readOnly_ofExcept _).bind_atomic fun _ =>
    (readOnly_ofExcept _).bind_atomic fun _ => (readOnly_ofExcept _).bind_atomic fun _ =>
    ((total_modify _).andThen fun _ => total_get.andThen fun _ => total_pure _).atomic

theorem readOnly_guildChat (U : Unicode) (session : MessengerSessionId) (activeSender : MessengerIdentity)
    (claim : GuildChatClaim) : (guildChat U session activeSender claim).ReadOnly :=
  readOnly_get.andThen fun _ => (readOnly_ofExcept _).andThen fun _ => (readOnly_ofExcept _).andThen fun _ =>
    (readOnly_ofExcept _).andThen fun _ => readOnly_pure _

theorem atomic_advanceGeneration (previous next : MessengerIdentity) : (advanceGeneration previous next).Atomic :=
  (readOnly_require _ _).bind_atomic fun _ => readOnly_get.bind_atomic fun _ =>
    ((total_modify _).andThen fun _ => total_pure _).atomic

theorem total_disconnectSession (session : MessengerSessionId) : (disconnectSession session).Total := by
  intro s
  cases h : s.endpointsBySession.lookup session with
  | none => exact ⟨_, _, by rw [disconnectSession, h]⟩
  | some endpoint => exact ⟨_, _, by rw [disconnectSession, h]⟩

end SafetyAux

/-- A call that fails leaves the hub as it was. -/
theorem atomic_perform (U : Unicode) (call : MessengerCall) : (perform U call).Atomic := by
  cases call with
  | enter session peerIp active claim => exact SafetyAux.atomic_map (SafetyAux.atomic_enter U session peerIp active claim)
  | invite session activeSender activeTarget claim => exact SafetyAux.atomic_map (SafetyAux.atomic_invite U session activeSender activeTarget claim)
  | chat session activeSender claim => exact SafetyAux.atomic_map (SafetyAux.readOnly_chat U session activeSender claim).atomic
  | leave session activeSender claim => exact SafetyAux.atomic_map (SafetyAux.atomic_leave session activeSender claim)
  | guildChat session activeSender claim => exact SafetyAux.atomic_map (SafetyAux.readOnly_guildChat U session activeSender claim).atomic
  | advanceGeneration previous next => exact SafetyAux.atomic_map (SafetyAux.atomic_advanceGeneration previous next)
  | releaseIdentity identity => exact SafetyAux.atomic_map (Total.atomic fun s => ⟨_, _, rfl⟩)
  | disconnectSession session => exact SafetyAux.atomic_map (SafetyAux.total_disconnectSession session).atomic

/-! ## What a step keeps -/

/-- The hub has no room that it did not have, and numbers its rooms as before. -/
def NoNewRoom (hub hub' : MessengerHub) : Prop :=
  hub'.nextRoomId = hub.nextRoomId ∧ ∀ roomId, (hub'.rooms.lookup roomId).isSome → (hub.rooms.lookup roomId).isSome

theorem NoNewRoom.refl (hub : MessengerHub) : hub.NoNewRoom hub := ⟨rfl, fun _ h => h⟩

theorem NoNewRoom.trans {a b c : MessengerHub} (h : a.NoNewRoom b) (h' : b.NoNewRoom c) : a.NoNewRoom c :=
  ⟨h'.1.trans h.1, fun roomId hr => h.2 roomId (h'.2 roomId hr)⟩

theorem SameRooms.noNewRoom {hub hub' : MessengerHub} (h : hub.SameRooms hub') : hub.NoNewRoom hub' :=
  ⟨h.2.2.1, fun roomId hr => by rwa [← h.1]⟩

namespace SafetyAux

theorem noNewRoom_leaveRoom {hub : MessengerHub} {key : String} {roomId : MessengerRoomId} {room : MessengerRoom}
    (hroom : hub.rooms.lookup roomId = some room) (remaining : List MessengerIdentity) :
    hub.NoNewRoom (hub.leaveRoom key roomId remaining) := by
  refine ⟨(leaveRoom_shape hub key roomId remaining).2.2, fun i hi => ?_⟩
  obtain ⟨r, hr⟩ := Option.isSome_iff_exists.1 hi
  rcases (lookup_leaveRoom hub key roomId remaining i r).1 hr with ⟨rfl, -, -⟩ | ⟨-, hr⟩
  · rw [hroom]
    rfl
  · rw [hr]
    rfl

theorem noNewRoom_removeIdentityFromRooms (hub : MessengerHub) (identity : MessengerIdentity) :
    hub.NoNewRoom (hub.removeIdentityFromRooms identity).hub := by
  refine foldl_keeps (P := fun progress : RoomRemoval => hub.NoNewRoom progress.hub) ?_ _ (NoNewRoom.refl hub)
  intro progress roomId h
  unfold removeFromRoom
  split
  · exact h
  · rename_i room hroom
    simp only
    split
    · exact h
    · exact h.trans (noNewRoom_leaveRoom hroom _)

theorem noNewRoom_advanceMembers (hub : MessengerHub) (previous next : MessengerIdentity) (roomIds : List MessengerRoomId)
    (n : Nat) : hub.NoNewRoom (roomIds.foldl (advanceMember previous next) (hub, n)).1 := by
  refine foldl_keeps (P := fun progress : MessengerHub × Nat => hub.NoNewRoom progress.1) ?_ _ (NoNewRoom.refl hub)
  intro progress roomId h
  unfold advanceMember
  split
  · exact h
  · rename_i room hroom
    split
    · exact h
    · refine h.trans ⟨rfl, fun i hi => ?_⟩
      change (AList.lookup i (progress.1.rooms.insert roomId _)).isSome at hi
      rw [FiniteMap.lookup_insert] at hi
      split at hi
      · rename_i hir
        rw [hir, hroom]
        rfl
      · exact hi

end SafetyAux

/-- The indexes are inverse, within the limits. -/
structure Indexed (limits : MessengerHubLimits) (hub : MessengerHub) : Prop where
  sessions : hub.SessionsIndexed
  rooms : hub.RoomsIndexed
  limits_eq : hub.limits = limits

/-- What a step does to the numbers of the rooms: a room that is made gets the next number, and no other room appears. -/
def Numbers (label : MessengerCall × Except MessengerHubError MessengerReply) (hub hub' : MessengerHub) : Prop :=
  (created label = [] ∧ hub.NoNewRoom hub') ∨
    ∃ roomId, created label = [roomId] ∧ hub.nextRoomId = some roomId ∧ hub'.nextRoomId = roomId.next ∧
      hub.rooms.lookup roomId = none ∧
      ∀ i, (hub'.rooms.lookup i).isSome → i = roomId ∨ (hub.rooms.lookup i).isSome

namespace SafetyAux

variable {U : Unicode} {limits : MessengerHubLimits} {s t : MessengerHub}

/-- Forgetting an endpoint and the memberships of its identity. -/
theorem indexed_release (h : s.Indexed limits) {hub : MessengerHub} (hsessions : hub.SessionsIndexed) (hrooms : s.SameRooms hub)
    (identity : MessengerIdentity) :
    ((hub.removeIdentityFromRooms identity).hub).Indexed limits ∧
      s.NoNewRoom (hub.removeIdentityFromRooms identity).hub := by
  have hsame := sameSessions_removeIdentityFromRooms hub identity
  refine ⟨⟨hsame.indexed hsessions, (hrooms.indexed h.rooms).removeIdentityFromRooms identity, ?_⟩,
    hrooms.noNewRoom.trans (noNewRoom_removeIdentityFromRooms hub identity)⟩
  rw [hsame.2.2, hrooms.2.2.2, h.limits_eq]

theorem indexed_releaseIdentity (h : s.Indexed limits) {identity : MessengerIdentity} {release : IdentityRelease}
    (hr : releaseIdentity identity s = (.ok release, t)) : t.Indexed limits ∧ s.NoNewRoom t := by
  unfold releaseIdentity at hr
  simp only [Prod.mk.injEq] at hr
  obtain ⟨-, rfl⟩ := hr
  cases hlive : s.liveSession identity with
  | none => exact indexed_release h h.sessions ⟨rfl, rfl, rfl, rfl⟩ identity
  | some session =>
    unfold liveSession at hlive
    obtain ⟨hsession, hany⟩ := Option.filter_eq_some_iff.1 hlive
    obtain ⟨endpoint, hendpoint, hstamp⟩ := (Option.any_eq_true _ _).1 hany
    have hdrop := h.sessions.dropEndpoint hendpoint
    rw [key_of_identityStampMatches hstamp] at hdrop
    exact indexed_release h hdrop ⟨rfl, rfl, rfl, rfl⟩ identity

theorem indexed_disconnectSession (h : s.Indexed limits) {session : MessengerSessionId} {release : Option IdentityRelease}
    (hr : disconnectSession session s = (.ok release, t)) : t.Indexed limits ∧ s.NoNewRoom t := by
  unfold disconnectSession at hr
  split at hr
  · simp only [Prod.mk.injEq] at hr
    obtain ⟨-, rfl⟩ := hr
    exact ⟨h, NoNewRoom.refl s⟩
  · rename_i endpoint hendpoint
    simp only [Prod.mk.injEq] at hr
    obtain ⟨-, rfl⟩ := hr
    exact indexed_release h (h.sessions.dropEndpoint hendpoint) ⟨rfl, rfl, rfl, rfl⟩ endpoint.identity

theorem indexed_advance (h : s.Indexed limits) {previous next : MessengerIdentity} (hkey : previous.key = next.key) :
    (s.advanceIdentity previous next).1.Indexed limits ∧ s.NoNewRoom (s.advanceIdentity previous next).1 := by
  have hendpoint := sameRooms_advanceEndpoint s previous next
  have hmembers := sameSessions_advanceMembers (s.advanceEndpoint previous next).1 previous next
    ((s.advanceEndpoint previous next).1.roomIdsOf previous.key) 0
  refine ⟨⟨hmembers.indexed (h.sessions.advanceEndpoint hkey),
    (hendpoint.indexed h.rooms).advanceMembers hkey _ _, ?_⟩,
    hendpoint.noNewRoom.trans (noNewRoom_advanceMembers _ previous next _ _)⟩
  exact hmembers.2.2.trans (hendpoint.2.2.2.trans h.limits_eq)

theorem indexed_enter (h : s.Indexed limits) {session : MessengerSessionId} {peerIp : IpAddr} {active : MessengerIdentity}
    {claim : EnterClaim} {outcome : EnterOutcome} (hr : enter U session peerIp active claim s = (.ok outcome, t)) :
    t.Indexed limits ∧ s.NoNewRoom t := by
  obtain ⟨hnew, hlimit, rfl⟩ := enter_eq_ok hr
  have hsame : s.SameRooms (s.installEndpoint session active claim.chatType (s.sessionByIdentity.lookup active.key)) :=
    ⟨rfl, rfl, rfl, rfl⟩
  exact ⟨⟨h.sessions.installEndpoint claim.chatType hnew hlimit, hsame.indexed h.rooms, h.limits_eq⟩, hsame.noNewRoom⟩

theorem indexed_leave (h : s.Indexed limits) {session : MessengerSessionId} {activeSender : MessengerIdentity}
    {claim : LeaveClaim} {deliveries : List MessengerDelivery}
    (hr : leave session activeSender claim s = (.ok deliveries, t)) : t.Indexed limits ∧ s.NoNewRoom t := by
  obtain ⟨sender, roomId, room, index, -, -, hroom, hindex, rfl, -⟩ := leave_eq_ok hr
  have hsame := sameSessions_leaveRoom s sender.key roomId (room.members.eraseIdx index)
  refine ⟨⟨hsame.indexed h.sessions, ?_, hsame.2.2.trans h.limits_eq⟩, noNewRoom_leaveRoom hroom _⟩
  rw [IndexAux.eraseIdx_stamp (h.rooms.members roomId room hroom).2 hindex]
  exact h.rooms.leaveRoom hroom sender.key

/-- A member of a room that is put in the table, with its live endpoint. -/
theorem invite_first (h : s.Indexed limits) {session : MessengerSessionId} {activeSender sender : MessengerIdentity}
    (hsender : s.authorizeSession session activeSender = .ok sender) (members : List MessengerIdentity)
    (event : MessengerEvent) :
    s.deliverToMembers (sender :: members) event = ⟨session, event⟩ :: s.deliverToMembers members event := by
  obtain ⟨endpoint, hendpoint, rfl, -, -⟩ := authorizeSession_eq_ok.1 hsender
  have hk := h.sessions.session session endpoint hendpoint
  have hrefl : identityStampMatches endpoint.identity endpoint.identity = true :=
    identityStampMatches_iff.2 ⟨rfl, rfl, rfl, rfl⟩
  unfold deliverToMembers
  rw [filterMap_cons]
  simp only [hk, hendpoint, hrefl, if_true]

/-- Deliveries depend on the sessions only. -/
theorem deliverToMembers_congr (h : s.SameSessions t) (members : List MessengerIdentity) (event : MessengerEvent) :
    t.deliverToMembers members event = s.deliverToMembers members event := by
  unfold deliverToMembers
  rw [h.1, h.2.1]

theorem indexed_invite (h : s.Indexed limits) {session : MessengerSessionId} {activeSender activeTarget : MessengerIdentity}
    {claim : InviteClaim} {deliveries : List MessengerDelivery}
    (hr : invite U session activeSender activeTarget claim s = (.ok deliveries, t)) :
    t.Indexed limits ∧ Numbers (.invite session activeSender activeTarget claim, .ok (.deliveries deliveries)) s t := by
  obtain ⟨sender, roomId, hsender, hne, hrooms, hc, hc', hnext, ht, rfl⟩ := invite_eq_ok hr
  obtain ⟨hallocated, hfree, hlater⟩ := h.rooms.allocate hnext
  have hsame : s.SameSessions t := by
    rw [ht]
    exact sameSessions_insertRoom { s with nextRoomId := roomId.next } roomId [sender, activeTarget]
  refine ⟨⟨hsame.indexed h.sessions, ?_, hsame.2.2.trans h.limits_eq⟩, Or.inr ⟨roomId, ?_, hnext, ?_, hfree, ?_⟩⟩
  · rw [ht]
    refine hallocated.insertRoom hfree (Or.inr rfl) ?_ hrooms ?_ hlater
    · simpa using hne
    · intro member hm
      simp only [mem_cons, not_mem_nil, or_false] at hm
      rcases hm with rfl | rfl
      · exact hc
      · exact hc'
  · rw [created, deliverToMembers_congr hsame, invite_first h hsender]
    rfl
  · obtain ⟨index, hi⟩ := insertRoom_eq { s with nextRoomId := roomId.next } roomId [sender, activeTarget]
    rw [ht, hi]
  · intro i hl
    obtain ⟨index, hi⟩ := insertRoom_eq { s with nextRoomId := roomId.next } roomId [sender, activeTarget]
    rw [ht, hi] at hl
    change (AList.lookup i (s.rooms.insert roomId _)).isSome at hl
    rw [FiniteMap.lookup_insert] at hl
    split at hl
    · rename_i hir
      exact Or.inl hir
    · exact Or.inr hl

end SafetyAux

/-- Every step keeps the indexes inverse and the limits, and numbers the rooms in order. -/
theorem Indexed.step {U : Unicode} {limits : MessengerHubLimits} {s t : MessengerHub}
    {label : MessengerCall × Except MessengerHubError MessengerReply} (h : s.Indexed limits) (hs : Step U s label t) :
    t.Indexed limits ∧ Numbers label s t := by
  obtain ⟨call, reply⟩ := label
  cases reply with
  | error e =>
    rw [atomic_perform U call s e t hs]
    refine ⟨h, Or.inl ⟨?_, NoNewRoom.refl s⟩⟩
    cases call <;> rfl
  | ok reply =>
    cases call with
    | enter session peerIp active claim =>
      obtain ⟨outcome, hr, rfl⟩ := map_eq_ok.1 hs
      obtain ⟨hi, hn⟩ := SafetyAux.indexed_enter h hr
      exact ⟨hi, Or.inl ⟨rfl, hn⟩⟩
    | invite session activeSender activeTarget claim =>
      obtain ⟨deliveries, hr, rfl⟩ := map_eq_ok.1 hs
      exact SafetyAux.indexed_invite h hr
    | chat session activeSender claim =>
      obtain ⟨deliveries, hr, rfl⟩ := map_eq_ok.1 hs
      obtain ⟨sender, roomId, room, -, -, -, -, rfl, -⟩ := chat_eq_ok hr
      exact ⟨h, Or.inl ⟨rfl, NoNewRoom.refl _⟩⟩
    | leave session activeSender claim =>
      obtain ⟨deliveries, hr, rfl⟩ := map_eq_ok.1 hs
      obtain ⟨hi, hn⟩ := SafetyAux.indexed_leave h hr
      exact ⟨hi, Or.inl ⟨rfl, hn⟩⟩
    | guildChat session activeSender claim =>
      obtain ⟨deliveries, hr, rfl⟩ := map_eq_ok.1 hs
      obtain ⟨rfl, -, -⟩ := guildChat_eq_ok hr
      exact ⟨h, Or.inl ⟨rfl, NoNewRoom.refl _⟩⟩
    | advanceGeneration previous next =>
      obtain ⟨advance, hr, rfl⟩ := map_eq_ok.1 hs
      obtain ⟨hkey, rfl⟩ := advanceGeneration_eq_ok hr
      obtain ⟨hi, hn⟩ := SafetyAux.indexed_advance h hkey
      exact ⟨hi, Or.inl ⟨rfl, hn⟩⟩
    | releaseIdentity identity =>
      obtain ⟨release, hr, rfl⟩ := map_eq_ok.1 hs
      obtain ⟨hi, hn⟩ := SafetyAux.indexed_releaseIdentity h hr
      exact ⟨hi, Or.inl ⟨rfl, hn⟩⟩
    | disconnectSession session =>
      obtain ⟨release, hr, rfl⟩ := map_eq_ok.1 hs
      obtain ⟨hi, hn⟩ := SafetyAux.indexed_disconnectSession h hr
      exact ⟨hi, Or.inl ⟨rfl, hn⟩⟩

/-! ## Deliveries -/

/-- The live session of an identity is the one whose endpoint carries its stamp. -/
theorem liveSession_eq_some {hub : MessengerHub} (h : hub.SessionsIndexed) {identity : MessengerIdentity}
    {session : MessengerSessionId} :
    hub.liveSession identity = some session ↔
      ∃ endpoint, hub.endpointsBySession.lookup session = some endpoint ∧
        identityStampMatches endpoint.identity identity = true := by
  unfold liveSession
  rw [Option.filter_eq_some_iff, Option.any_eq_true]
  constructor
  · rintro ⟨-, endpoint, hendpoint, hstamp⟩
    exact ⟨endpoint, hendpoint, hstamp⟩
  · rintro ⟨endpoint, hendpoint, hstamp⟩
    refine ⟨?_, endpoint, hendpoint, hstamp⟩
    rw [← key_of_identityStampMatches hstamp]
    exact h.session session endpoint hendpoint

/-- A delivery goes to the live session of each member that has one. -/
theorem deliverToMembers_eq (hub : MessengerHub) (members : List MessengerIdentity) (event : MessengerEvent) :
    hub.deliverToMembers members event = (members.filterMap hub.liveSession).map (⟨·, event⟩) := by
  unfold deliverToMembers
  rw [map_filterMap]
  refine filterMap_congr fun member _ => ?_
  unfold liveSession
  cases hub.sessionByIdentity.lookup member.key with
  | none => rfl
  | some session =>
    cases hendpoint : hub.endpointsBySession.lookup session with
    | none => simp [hendpoint, Option.filter_some]
    | some endpoint =>
      by_cases hstamp : identityStampMatches endpoint.identity member <;> simp [hendpoint, hstamp, Option.filter_some]

/-- What is delivered to the members of a room goes, once, to exactly the live sessions that carry their stamps. -/
theorem delivers_deliverToMembers {hub : MessengerHub} (h : hub.SessionsIndexed) {roomId : MessengerRoomId}
    {members : List MessengerIdentity} (hmembers : hub.membersOf roomId = members)
    (hnodup : (members.map (·.key)).Nodup) (event : MessengerEvent) :
    hub.Delivers roomId event (hub.deliverToMembers members event) := by
  have hsessions : (hub.deliverToMembers members event).map (·.session) = members.filterMap hub.liveSession := by
    rw [deliverToMembers_eq, map_map]
    exact map_id _
  refine ⟨?_, ?_, ?_⟩
  · rw [hsessions]
    refine pairwise_filterMap.2 ((pairwise_map.1 hnodup).imp ?_)
    rintro a b hab session ha session' hb rfl
    -- two members with the same live session have the key of its endpoint
    obtain ⟨endpoint, hendpoint, hstamp⟩ := (liveSession_eq_some h).1 ha
    obtain ⟨endpoint', hendpoint', hstamp'⟩ := (liveSession_eq_some h).1 hb
    rw [hendpoint] at hendpoint'
    cases hendpoint'
    exact hab ((key_of_identityStampMatches hstamp).symm.trans (key_of_identityStampMatches hstamp'))
  · intro d hd
    rw [deliverToMembers_eq] at hd
    obtain ⟨session, -, rfl⟩ := mem_map.1 hd
    rfl
  · intro session
    rw [hsessions, hmembers, mem_filterMap]
    simp only [liveSession_eq_some h]

/-- An invitation makes a room of the sender and the target, and tells both of them. -/
theorem invite_delivers {U : Unicode} {limits : MessengerHubLimits} {s t : MessengerHub} (h : s.Indexed limits)
    {session : MessengerSessionId} {activeSender activeTarget : MessengerIdentity} {claim : InviteClaim}
    {deliveries : List MessengerDelivery}
    (hr : invite U session activeSender activeTarget claim s = (.ok deliveries, t)) :
    ∃ sender roomId, s.authorizeSession session activeSender = .ok sender ∧ s.nextRoomId = some roomId ∧
      t.membersOf roomId = [sender, activeTarget] ∧
      t.Delivers roomId (.inviteChat sender.userNo.get activeTarget.userNo.get sender.nickname activeTarget.nickname roomId 0)
        deliveries := by
  obtain ⟨hi, -⟩ := SafetyAux.indexed_invite h hr
  obtain ⟨sender, roomId, hsender, hne, -, -, -, hnext, ht, rfl⟩ := invite_eq_ok hr
  have hmembers : t.membersOf roomId = [sender, activeTarget] := by
    obtain ⟨index, hindex⟩ := insertRoom_eq { s with nextRoomId := roomId.next } roomId [sender, activeTarget]
    rw [ht, hindex]
    simp [membersOf]
  exact ⟨sender, roomId, hsender, hnext, hmembers, delivers_deliverToMembers hi.sessions hmembers (by simpa using hne) _⟩

/-- What is said in a room is told to its members. -/
theorem chat_delivers {U : Unicode} {limits : MessengerHubLimits} {s t : MessengerHub} (h : s.Indexed limits)
    {session : MessengerSessionId} {activeSender : MessengerIdentity} {claim : ChatClaim} {deliveries : List MessengerDelivery}
    (hr : chat U session activeSender claim s = (.ok deliveries, t)) :
    ∃ sender roomId, s.authorizeSession session activeSender = .ok sender ∧ roomId.get = claim.roomId ∧ t = s ∧
      t.Delivers roomId (.chat roomId sender.userNo.get sender.nickname claim.message 0) deliveries := by
  obtain ⟨sender, roomId, room, hsender, hroomId, hroom, -, rfl, rfl⟩ := chat_eq_ok hr
  refine ⟨sender, roomId, hsender, hroomId, rfl, delivers_deliverToMembers h.sessions ?_ (h.rooms.members roomId room hroom).2 _⟩
  simp [membersOf, hroom]

/-- That a member leaves a room is told to the members that remain: those with another key. -/
theorem leave_delivers {limits : MessengerHubLimits} {s t : MessengerHub} (h : s.Indexed limits)
    {session : MessengerSessionId} {activeSender : MessengerIdentity} {claim : LeaveClaim}
    {deliveries : List MessengerDelivery} (hr : leave session activeSender claim s = (.ok deliveries, t)) :
    ∃ sender roomId, s.authorizeSession session activeSender = .ok sender ∧ roomId.get = claim.roomId ∧
      t.membersOf roomId = (s.membersOf roomId).filter (fun member => member.key ≠ sender.key) ∧
      t.Delivers roomId (.leaveChat sender.userNo.get roomId) deliveries := by
  obtain ⟨hi, -⟩ := SafetyAux.indexed_leave h hr
  obtain ⟨sender, roomId, room, index, hsender, hroomId, hroom, hindex, rfl, rfl⟩ := leave_eq_ok hr
  have hnodup := (h.rooms.members roomId room hroom).2
  have hbefore : s.membersOf roomId = room.members := by simp [membersOf, hroom]
  have hremaining := IndexAux.eraseIdx_stamp hnodup hindex
  have hafter : (s.leaveRoom sender.key roomId (room.members.eraseIdx index)).membersOf roomId =
      room.members.eraseIdx index := by
    unfold membersOf
    cases hr : (s.leaveRoom sender.key roomId (room.members.eraseIdx index)).rooms.lookup roomId with
    | none =>
      by_contra hne
      have := (lookup_leaveRoom s sender.key roomId _ roomId _).2 (Or.inl ⟨rfl, rfl, fun he => hne he.symm⟩)
      rw [hr] at this
      cases this
    | some r =>
      rcases (lookup_leaveRoom s sender.key roomId _ roomId r).1 hr with ⟨-, rfl, -⟩ | ⟨hne, -⟩
      · rfl
      · exact absurd rfl hne
  refine ⟨sender, roomId, hsender, hroomId, ?_, delivers_deliverToMembers hi.sessions hafter ?_ _⟩
  · rw [hafter, hbefore, hremaining]
  · exact ((eraseIdx_sublist _ _).map _).nodup hnodup

/-! ## Runs -/

/-- A new hub has its indexes inverse, when no limit is zero. -/
theorem indexed_new {limits : MessengerHubLimits} {hub : MessengerHub} (h : MessengerHub.new limits = .ok hub) :
    hub.Indexed limits ∧ hub.nextRoomId = NonZero.new 1 ∧ hub.rooms = ∅ := by
  unfold MessengerHub.new at h
  simp only [Checks.bind_eq_ok] at h
  obtain ⟨-, -, hp⟩ := h
  cases hp
  refine ⟨⟨⟨?_, ?_, Nat.zero_le _⟩, ⟨?_, ?_, ?_, Nat.zero_le _, ?_, ?_⟩, rfl⟩, rfl, rfl⟩
  · rintro session endpoint ⟨⟩
  · rintro key session ⟨⟩
  · intro key roomId
    constructor
    · rintro ⟨ids, ⟨⟩, -⟩
    · rintro ⟨room, ⟨⟩, -⟩
  · rintro key ids ⟨⟩
  · rintro roomId room ⟨⟩
  · intro key
    exact Nat.zero_le _
  · rintro roomId room next ⟨⟩

/-- Every run from a hub whose indexes are inverse keeps them so. -/
theorem indexed_path {U : Unicode} {limits : MessengerHubLimits} {hub₀ hub : MessengerHub}
    {labels : List (MessengerCall × Except MessengerHubError MessengerReply)}
    (hrun : Path (Step U) hub₀ labels hub) (h0 : hub₀.Indexed limits) : hub.Indexed limits := by
  have hkeep : ∀ s l t, s.Indexed limits → Step U s l t → t.Indexed limits := fun s l t h hst => (Indexed.step h hst).1
  exact hrun.keeps hkeep h0

/-- Rooms are numbered in order, and every room of the hub was made by an invitation. -/
theorem numbers_path {U : Unicode} {limits : MessengerHubLimits} {hub₀ hub : MessengerHub}
    {labels : List (MessengerCall × Except MessengerHubError MessengerReply)} (h0 : hub₀.Indexed limits)
    (hempty : hub₀.rooms = ∅) (hrun : Path (Step U) hub₀ labels hub) :
    (labels.flatMap created).Pairwise (fun a b => a.get < b.get) ∧
      (∀ roomId ∈ labels.flatMap created, ∀ next, hub.nextRoomId = some next → roomId.get < next.get) ∧
      ∀ roomId, (hub.rooms.lookup roomId).isSome → roomId ∈ labels.flatMap created := by
  induction hrun with
  | nil =>
    refine ⟨Pairwise.nil, by simp, ?_⟩
    intro roomId hr
    rw [hempty] at hr
    cases hr
  | @snoc hub hub' labels label hrun hs ih =>
    have hi := indexed_path hrun h0
    obtain ⟨hpairwise, hbelow, hrooms⟩ := ih
    obtain ⟨-, hnumbers⟩ := hi.step hs
    rw [flatMap_append]
    rcases hnumbers with ⟨hc, hnext, hold⟩ | ⟨value, hc, hvalue, hnext, -, hold⟩
    · simp only [flatMap_cons, hc, flatMap_nil, append_nil]
      exact ⟨hpairwise, fun roomId hr next hn => hbelow roomId hr next (hnext ▸ hn), fun roomId hr => hrooms roomId (hold roomId hr)⟩
    · simp only [flatMap_cons, hc, flatMap_nil, append_nil, mem_append, mem_singleton]
      refine ⟨?_, ?_, ?_⟩
      · refine pairwise_append.2 ⟨hpairwise, pairwise_singleton .., fun a ha b hb => ?_⟩
        rw [mem_singleton.1 hb]
        exact hbelow a ha value hvalue
      · intro roomId hr next hn
        rw [hnext] at hn
        have := NonZero.next_eq_some.1 hn
        rcases hr with hr | rfl
        · have := hbelow roomId hr value hvalue
          omega
        · omega
      · intro roomId hr
        rcases hold roomId hr with rfl | hr
        · exact Or.inr rfl
        · exact Or.inl (hrooms roomId hr)

/-- Only what is within the limit is said. -/
theorem message_within {U : Unicode} {limits : MessengerHubLimits} {s t : MessengerHub} (h : s.Indexed limits)
    {call : MessengerCall} {deliveries : List MessengerDelivery} (hr : perform U call s = (.ok (.deliveries deliveries), t))
    {d : MessengerDelivery} (hd : d ∈ deliveries) {message : String} (hm : d.event.message = some message) :
    utf16Length message ≤ limits.maxMessageUtf16Units := by
  rw [← h.limits_eq]
  cases call with
  | invite session activeSender activeTarget claim =>
    obtain ⟨deliveries, hr, hd'⟩ := map_eq_ok.1 hr
    cases hd'
    obtain ⟨_, _, _, _, _, hdelivers⟩ := invite_delivers h hr
    rw [hdelivers.2.1 d hd] at hm
    cases hm
  | chat session activeSender claim =>
    obtain ⟨deliveries, hr, hd'⟩ := map_eq_ok.1 hr
    cases hd'
    obtain ⟨_, _, _, _, _, hdelivers⟩ := chat_delivers h hr
    obtain ⟨-, -, -, -, -, -, hle, -⟩ := chat_eq_ok hr
    rw [hdelivers.2.1 d hd] at hm
    cases hm
    exact hle
  | leave session activeSender claim =>
    obtain ⟨deliveries, hr, hd'⟩ := map_eq_ok.1 hr
    cases hd'
    obtain ⟨_, _, _, _, _, hdelivers⟩ := leave_delivers h hr
    rw [hdelivers.2.1 d hd] at hm
    cases hm
  | guildChat session activeSender claim =>
    obtain ⟨deliveries, hr, hd'⟩ := map_eq_ok.1 hr
    cases hd'
    obtain ⟨-, hle, hall⟩ := guildChat_eq_ok hr
    rw [hall d hd] at hm
    cases hm
    exact hle
  | enter | advanceGeneration | releaseIdentity | disconnectSession =>
    obtain ⟨_, _, hreply⟩ := map_eq_ok.1 hr
    cases hreply

/-- After any calls on a new hub: the indexes are inverse and the limits hold; the rooms were numbered in order, none twice; a
call that fails leaves the hub as it was; and an invitation, a message or a departure is told, once, to exactly the members of
the room whose live endpoint carries the stamp of the membership, with no message longer than the limit. -/
theorem hub_safety (U : Unicode) (limits : MessengerHubLimits) (hub₀ hub : MessengerHub)
    (labels : List (MessengerCall × Except MessengerHubError MessengerReply)) (hnew : MessengerHub.new limits = .ok hub₀)
    (hrun : Path (Step U) hub₀ labels hub) :
    hub.Indexed limits ∧
    ((labels.flatMap created).Nodup ∧ ∀ roomId, (hub.rooms.lookup roomId).isSome → roomId ∈ labels.flatMap created) ∧
    (∀ call e hub', perform U call hub = (.error e, hub') → hub' = hub) ∧
    (∀ session hub', disconnectSession session hub = (.ok none, hub') → hub' = hub) ∧
    (∀ session activeSender activeTarget claim deliveries hub',
      invite U session activeSender activeTarget claim hub = (.ok deliveries, hub') →
      ∃ sender roomId, hub.authorizeSession session activeSender = .ok sender ∧ roomId ∉ labels.flatMap created ∧
        hub'.membersOf roomId = [sender, activeTarget] ∧
        hub'.Delivers roomId
          (.inviteChat sender.userNo.get activeTarget.userNo.get sender.nickname activeTarget.nickname roomId 0) deliveries) ∧
    (∀ session activeSender claim deliveries hub', chat U session activeSender claim hub = (.ok deliveries, hub') →
      ∃ sender roomId, hub.authorizeSession session activeSender = .ok sender ∧ roomId.get = claim.roomId ∧ hub' = hub ∧
        hub'.Delivers roomId (.chat roomId sender.userNo.get sender.nickname claim.message 0) deliveries) ∧
    (∀ session activeSender claim deliveries hub', leave session activeSender claim hub = (.ok deliveries, hub') →
      ∃ sender roomId, hub.authorizeSession session activeSender = .ok sender ∧ roomId.get = claim.roomId ∧
        hub'.membersOf roomId = (hub.membersOf roomId).filter (fun member => member.key ≠ sender.key) ∧
        hub'.Delivers roomId (.leaveChat sender.userNo.get roomId) deliveries) ∧
    (∀ call deliveries hub' d message, perform U call hub = (.ok (.deliveries deliveries), hub') → d ∈ deliveries →
      d.event.message = some message → utf16Length message ≤ limits.maxMessageUtf16Units) := by
  obtain ⟨h0, -, hempty⟩ := indexed_new hnew
  have h := indexed_path hrun h0
  obtain ⟨hpairwise, hbelow, hrooms⟩ := numbers_path h0 hempty hrun
  refine ⟨h, ⟨hpairwise.imp fun {a b} hlt heq => ?_, hrooms⟩, fun call e hub' he => atomic_perform U call _ _ _ he, ?_, ?_,
    fun _ _ _ _ _ hr => chat_delivers h hr, fun _ _ _ _ _ hr => leave_delivers h hr,
    fun _ _ _ _ _ hr hd hm => message_within h hr hd hm⟩
  · rw [heq] at hlt
    exact Nat.lt_irrefl _ hlt
  · intro session hub' hr
    unfold disconnectSession at hr
    split at hr
    · cases hr
      rfl
    · cases hr
  · intro session activeSender activeTarget claim deliveries hub' hr
    obtain ⟨sender, roomId, hsender, hnext, hmembers, hdelivers⟩ := invite_delivers h hr
    refine ⟨sender, roomId, hsender, fun hold => ?_, hmembers, hdelivers⟩
    exact Nat.lt_irrefl _ (hbelow roomId hold roomId hnext)

/-- The labels of calls made one after another, and the hub they lead to. -/
def play (U : Unicode) (hub : MessengerHub) :
    List MessengerCall → List (MessengerCall × Except MessengerHubError MessengerReply) × MessengerHub
  | [] => ([], hub)
  | call :: calls =>
    let rest := play U (perform U call hub).2 calls
    ((call, (perform U call hub).1) :: rest.1, rest.2)

/-- Calls made one after another are a run. -/
theorem path_play (U : Unicode) (hub : MessengerHub) (calls : List MessengerCall) :
    Path (Step U) hub (play U hub calls).1 (play U hub calls).2 := by
  induction calls generalizing hub with
  | nil => exact Path.nil hub
  | cons call calls ih => exact (Path.single rfl).trans (ih (perform U call hub).2)

namespace SafetyAux

/-- Two identities, the first of which also has a later generation. -/
def rider (n generation : Nat) (h : n + 1 < 2 ^ 32) (hg : generation + 1 < 2 ^ 64) (nickname : String) : MessengerIdentity :=
  ⟨⟨n + 1, Nat.succ_ne_zero _, h⟩, nickname, ⟨generation + 1, Nat.succ_ne_zero _, hg⟩, .unspecified, nickname⟩

def dao : MessengerIdentity := rider 0 0 NonZero.one_lt_32 NonZero.one_lt_64 "dao"
def daoLater : MessengerIdentity := rider 0 1 NonZero.one_lt_32 NonZero.two_lt_64 "dao"
def bazzi : MessengerIdentity := rider 1 0 NonZero.two_lt_32 NonZero.one_lt_64 "bazzi"

def firstSession : MessengerSessionId := ⟨1, Nat.one_ne_zero, NonZero.one_lt_64⟩
def secondSession : MessengerSessionId := ⟨2, by decide, NonZero.two_lt_64⟩

def firstRoom : MessengerRoomId := ⟨1, Nat.one_ne_zero, NonZero.one_lt_32⟩

/-- Two sessions enter, one invites the other, and the other moves to its next generation and leaves. -/
def conversation : List MessengerCall :=
  [.enter firstSession .unspecified dao ⟨1, 0, "dao"⟩, .enter secondSession .unspecified bazzi ⟨2, 0, "bazzi"⟩,
    .invite secondSession bazzi dao ⟨2, 1, "bazzi", "dao"⟩, .advanceGeneration dao daoLater,
    .leave firstSession daoLater ⟨1, 1⟩]

end SafetyAux

/-- A conversation of two: one room is made, and who remains in it can still be spoken to. -/
theorem hub_safety_conversation :
    (play .ascii (empty .default) SafetyAux.conversation).2.Indexed .default ∧
    ((play .ascii (empty .default) SafetyAux.conversation).1.flatMap created).map (·.get) = [1] ∧
    ∃ deliveries roomId hub',
      chat .ascii SafetyAux.secondSession SafetyAux.bazzi ⟨1, "bazzi", "hello"⟩
        (play .ascii (empty .default) SafetyAux.conversation).2 = (.ok deliveries, hub') ∧
      hub'.Delivers roomId (.chat roomId 2 "bazzi" "hello" 0) deliveries ∧
      deliveries.map (·.session) = [SafetyAux.secondSession] := by
  obtain ⟨hindexed, -, -, -, -, hchat, -⟩ := hub_safety .ascii .default (empty .default) _ _ rfl
    (path_play .ascii (empty .default) SafetyAux.conversation)
  have hreply : (chat .ascii SafetyAux.secondSession SafetyAux.bazzi ⟨1, "bazzi", "hello"⟩
      (play .ascii (empty .default) SafetyAux.conversation).2).1 =
        .ok [⟨SafetyAux.secondSession, .chat SafetyAux.firstRoom 2 "bazzi" "hello" 0⟩] := by decide +kernel
  refine ⟨hindexed, by decide +kernel, _, SafetyAux.firstRoom, _, Prod.ext hreply rfl, ?_, rfl⟩
  obtain ⟨sender, roomId, -, -, -, hdelivers⟩ := hchat _ _ _ _ _ (Prod.ext hreply rfl)
  have hevent := hdelivers.2.1 _ (mem_singleton.2 rfl)
  simp only [MessengerEvent.chat.injEq] at hevent
  obtain ⟨hroom, huser, hname, -⟩ := hevent
  rw [← hroom, ← huser, ← hname] at hdelivers
  exact hdelivers

end MessengerHub

end P5136
