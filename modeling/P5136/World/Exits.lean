import P5136.Identity.Migration
import P5136.World.Lobby

/-!
# Leaving rooms

The ways out of a room: a player leaves, its session closes, its identity is released or moves, or its client enters another
scene. Also how a fan-out without reservation is delivered: session by session, and a session whose queue is missing is closed,
which may take its player out of a room and tell others.
-/

namespace P5136

/-- `ProtocolMigrationDelta`: a change of a room and its members that is planned on a snapshot of the room. -/
structure ProtocolMigrationDelta where
  userNo : UserNo
  roomId : RoomId
  expectedRoom : ProtocolRoomState
  nextRoom : Option ProtocolRoomState
  removeMembership : Bool
  removeRoom : Bool
  abortedLoadingFence : Option RaceFence

def IdentityRegistry.outstandingOperationCount (r : IdentityRegistry) : Nat :=
  (r.activeByName.values.map (fun active => (r.gate active.operationGate).activeOperations)).sum +
    (r.deferredReleases.map (fun deferred => (r.gate deferred.operationGate).activeOperations)).sum

def IdentityRegistry.transferInProgressCount (r : IdentityRegistry) : Nat :=
  (r.activeByName.values.filter (fun active => active.transferInProgress.isSome)).length

/-- The part of MyRoom in a command: the deliveries it makes, or its failure, which stops the actor. -/
abbrev HubEffect := Option (List OutboundDelivery)

/-- The part of MyRoom in the releases of a command. -/
abbrev HubReleases := ReleasedIdentity → HubEffect

namespace World

/-- What a command of the world does. -/
abbrev WorldAct (α : Type) := Act World (Fault WorldError) α

/-! ## Leaving a room -/

def releaseRewardLanes (w : World) (fence : RaceFence) : World :=
  { w with rewardLanes := w.rewardLanes.retain (fun _ owned => owned ≠ fence) }

/-- A room without players is removed in its lobby and while it loads; a race that runs or settles goes on. -/
def removesRoom (next : ProtocolRoomState) : Bool :=
  next.isEmpty && decide (next.phase = RoomPhase.lobby ∨ next.phase = RoomPhase.loading)

/-- The world without a membership. -/
def withoutMembership (w : World) (userNo : UserNo) : World :=
  { w with protocolRoomByUser := w.protocolRoomByUser.erase userNo }

/-- The world without a room, whose id is free again. -/
def withoutRoom (w : World) (roomId : RoomId) : World :=
  { w with
    protocolRooms := w.protocolRooms.erase roomId
    freeProtocolRoomIds := insert roomId.get w.freeProtocolRoomIds }

/-- The world after a user left a room that is `next` without it. -/
def afterExit (w : World) (userNo : UserNo) (roomId : RoomId) (next : ProtocolRoomState) : World :=
  let w := w.withoutMembership userNo
  if removesRoom next then
    let w := match next.raceFence with
      | some fence => if next.phase = RoomPhase.loading then w.releaseRewardLanes fence else w
      | none => w
    w.withoutRoom roomId
  else w.withRoom roomId next

/-- `remove_protocol_user`: take a user out of its room, and tell the others. -/
def removeProtocolUser (userNo : UserNo) : WorldAct (List OutboundDelivery) := do
  let w ← Act.get
  match w.protocolRoomByUser.lookup userNo with
  | none => pure []
  | some roomId =>
    match w.protocolRooms.lookup roomId with
    | none => do
      Act.modify (·.withoutMembership userNo)
      pure []
    | some room => do
      let next := (room.removeUser userNo).getD room
      Act.require (removesRoom next → roomId.get < 2 ^ 16) (.panic "protocol room ID fits in u16")
      Act.modify (fun w => w.afterExit userNo roomId next)
      if next.isEmpty then pure []
      else do
        let packet ← Act.ofExcept ((serializeGrSlotData next.slotData).mapError (fun _ =>
          .panic "validated protocol room state remains serializable after removal"))
        pure (w.deliveriesForUsers next.userNos [packet])

/-! ## Releases -/

/-- The deliveries of MyRoom are queued before anything else happens, or the actor stops. -/
def publishHub (effect : HubEffect) : WorldAct Unit := do
  let deliveries ← orFail effect (.error .myroom)
  reserve (fun _ => .myroom) deliveries
  publishReserved deliveries

/-- `release_identity_state_with_wire_policy`. -/
def releaseIdentityState (hub : HubReleases) (publishWire : Bool) (identity : ReleasedIdentity) :
    WorldAct (List OutboundDelivery) := do
  Act.modify (fun w => { w with observedP2pPorts := w.observedP2pPorts.erase identity.userNo })
  publishHub (if publishWire then hub identity else (hub identity).map (fun _ => []))
  let deliveries ← removeProtocolUser identity.userNo
  pure (if publishWire then deliveries else [])

/-- Release identities one after the other. -/
def releaseAll (hub : HubReleases) (publishWire : Bool) : List ReleasedIdentity → WorldAct (List OutboundDelivery)
  | [] => pure []
  | identity :: rest => do
    let deliveries ← releaseIdentityState hub publishWire identity
    let more ← releaseAll hub publishWire rest
    pure (deliveries ++ more)

/-- The world after a session is gone and its identity disconnected. -/
def disconnected (U : Unicode) (session : SessionId) (now : Instant) (w : World) : World :=
  { w with
    sessions := w.sessions.erase session
    identities := (w.identities.disconnect U session now).2 }

/-- `close_session_state` and `close_session_without_wire`. -/
def closeSessionState (U : Unicode) (hub : HubReleases) (publishWire : Bool) (session : SessionId) (now : Instant) :
    WorldAct (List OutboundDelivery) := do
  let w ← Act.get
  let outcome := (w.identities.disconnect U session now).1
  Act.modify (disconnected U session now)
  match outcome with
  | .released identity => releaseIdentityState hub publishWire identity
  | _ => pure []

/-- The close of a session whose queue is missing: it waits for a write of its equipment, and is silent when quiescing. -/
def closeFailedSession (U : Unicode) (hub : HubReleases) (session : SessionId) (now : Instant) :
    WorldAct (List OutboundDelivery) := do
  let w ← Act.get
  if session ∈ w.equipmentWrites then do
    Act.modify (fun w => { w with sessions := w.sessions.erase session })
    pure []
  else closeSessionState U hub (!w.quiescing) session now

/-! ## Delivering -/

/-- `try_send` of a batch: it is accepted when the queue of the session has a place. -/
def sendable (w : World) (delivery : OutboundDelivery) : Bool :=
  match reserveFrom w.sessions [] [delivery] with
  | .ok _ => true
  | .error _ => false

/-- Pushing a batch keeps the number of sessions. -/
theorem size_pushTo (sessions : FiniteMap SessionId SessionState) (d : OutboundDelivery) :
    (pushTo sessions d).size = sessions.size := by
  unfold pushTo
  cases h : sessions.lookup d.1 with
  | none => rfl
  | some state =>
    simp only
    rw [FiniteMap.size_insert, h]
    rfl

/-- Publishing keeps the number of sessions. -/
theorem size_published (w : World) (ds : List OutboundDelivery) : (w.published ds).sessions.size = w.sessions.size := by
  unfold published
  simp only
  generalize w.sessions = sessions
  induction ds generalizing sessions with
  | nil => rfl
  | cons d ds ih => rw [List.foldl_cons, ih, size_pushTo]

/-- No session is added. -/
def FewerSessions (w w' : World) : Prop := w'.sessions.size ≤ w.sessions.size

theorem fewerSessions_trans (a b c : World) (h : FewerSessions a b) (h' : FewerSessions b c) : FewerSessions a c :=
  Nat.le_trans h' h

/-- Taking a user out of its room adds no session. -/
theorem fewerSessions_removeProtocolUser (userNo : UserNo) : Act.Leads FewerSessions (removeProtocolUser userNo) := by
  have hrefl : ∀ a : World, FewerSessions a a := fun _ => Nat.le_refl _
  refine Act.Leads.bind fewerSessions_trans (Act.readOnly_get.leads hrefl) fun w => ?_
  split
  · exact (Act.readOnly_pure _).leads hrefl
  split
  · exact Act.Leads.bind fewerSessions_trans (Act.leads_modify fun _ => Nat.le_refl _) fun _ =>
      (Act.readOnly_pure _).leads hrefl
  refine Act.Leads.bind fewerSessions_trans ((Act.readOnly_require _ _).leads hrefl) fun _ => ?_
  refine Act.Leads.bind fewerSessions_trans (Act.leads_modify fun s => ?_) fun _ => ?_
  · unfold FewerSessions afterExit
    dsimp only
    split
    · split
      · split <;> exact Nat.le_refl _
      · exact Nat.le_refl _
    · exact Nat.le_refl _
  split
  · exact (Act.readOnly_pure _).leads hrefl
  · exact Act.Leads.bind fewerSessions_trans ((Act.readOnly_ofExcept _).leads hrefl) fun _ =>
      (Act.readOnly_pure _).leads hrefl

/-- A release adds no session. -/
theorem fewerSessions_releaseIdentityState (hub : HubReleases) (publishWire : Bool) (identity : ReleasedIdentity) :
    Act.Leads FewerSessions (releaseIdentityState hub publishWire identity) := by
  have hrefl : ∀ a : World, FewerSessions a a := fun _ => Nat.le_refl _
  refine Act.Leads.bind fewerSessions_trans (Act.leads_modify fun _ => Nat.le_refl _) fun _ => ?_
  refine Act.Leads.bind fewerSessions_trans ?_ fun _ => ?_
  · refine Act.Leads.bind fewerSessions_trans ((Act.readOnly_ofExcept _).leads hrefl) fun ds => ?_
    refine Act.Leads.bind fewerSessions_trans ((readOnly_reserve _ _).leads hrefl) fun _ => ?_
    exact Act.leads_modify fun w => (size_published w ds).le
  · exact Act.Leads.bind fewerSessions_trans (fewerSessions_removeProtocolUser _) fun _ =>
      (Act.readOnly_pure _).leads hrefl

/-- Closing a session takes it away. -/
theorem size_closeFailedSession (U : Unicode) (hub : HubReleases) (session : SessionId) (now : Instant) {w : World}
    (h : (w.sessions.lookup session).isSome) :
    (closeFailedSession U hub session now w).2.sessions.size < w.sessions.size := by
  have herase : FiniteMap.size (w.sessions.erase session) < w.sessions.size := by
    rw [FiniteMap.size_eq_length_keys, FiniteMap.size_eq_length_keys, AList.keys_erase,
      List.length_erase_of_mem (AList.lookup_isSome.1 h)]
    have := List.length_pos_of_mem (AList.lookup_isSome.1 h)
    omega
  unfold closeFailedSession
  by_cases hw : session ∈ w.equipmentWrites
  · change (Act.andThen Act.get _ w).2.sessions.size < _
    simp only [Act.andThen, Act.get, hw, if_true]
    exact herase
  · change (Act.andThen Act.get _ w).2.sessions.size < _
    simp only [Act.andThen, Act.get, hw, if_false]
    change (Act.andThen Act.get _ w).2.sessions.size < _
    simp only [Act.andThen, Act.get]
    change (Act.andThen (Act.modify _) _ w).2.sessions.size < _
    simp only [Act.andThen, Act.modify]
    cases (w.identities.disconnect U session now).1 with
    | released identity =>
      exact Nat.lt_of_le_of_lt (fewerSessions_releaseIdentityState hub _ _ (disconnected U session now w)) herase
    | unauthenticated => exact herase
    | stale _ => exact herase
    | deferred _ _ => exact herase
    | draining _ => exact herase

/-- `deliver`: try each delivery in turn. A session whose queue is missing is closed, once, and what that tells the others is
tried after the rest. -/
def deliverFrom (U : Unicode) (hub : HubReleases) (now : Instant) (failed : List SessionId)
    (pending : List OutboundDelivery) (w : World) : Except (Fault WorldError) Unit × World :=
  match pending with
  | [] => (.ok (), w)
  | (session, batch) :: rest =>
    if w.sendable (session, batch) then deliverFrom U hub now failed rest (w.published [(session, batch)])
    else if _hs : (w.sessions.lookup session).isSome ∧ session ∉ failed then
      match _hc : closeFailedSession U hub session now w with
      | (.error e, w') => (.error e, w')
      | (.ok more, w') => deliverFrom U hub now (session :: failed) (rest ++ more) w'
    else deliverFrom U hub now failed rest w
termination_by (w.sessions.size, pending.length)
decreasing_by
  · rw [size_published]
    exact Prod.Lex.right _ (Nat.lt_succ_self _)
  · have := size_closeFailedSession U hub session now _hs.1
    rw [_hc] at this
    exact Prod.Lex.left _ _ this
  · exact Prod.Lex.right _ (Nat.lt_succ_self _)

def deliver (U : Unicode) (hub : HubReleases) (now : Instant) (deliveries : List OutboundDelivery) : WorldAct Unit :=
  deliverFrom U hub now [] deliveries

/-! ## The ends of sessions and identities -/

/-- `dispatch_session_closed`: a session waits for a write of its equipment, and closes silently when quiescing. -/
def sessionClosed (U : Unicode) (hub : HubReleases) (session : SessionId) (now : Instant) : WorldAct Unit := do
  let w ← Act.get
  if session ∈ w.equipmentWrites then Act.modify (fun w => { w with sessions := w.sessions.erase session })
  else do
    let deliveries ← closeSessionState U hub (!w.quiescing) session now
    if w.quiescing then pure () else deliver U hub now deliveries

/-- `finish_deferred_equipment_close`: the write of an equipment is over, and its session closes when it waited for that. -/
def finishDeferredEquipmentClose (U : Unicode) (hub : HubReleases) (session : SessionId) (closeRequested : Bool)
    (now : Instant) : WorldAct Unit := do
  Act.modify (fun w => { w with equipmentWrites := w.equipmentWrites.erase session })
  if closeRequested then do
    let w ← Act.get
    let deliveries ← closeSessionState U hub (!w.quiescing) session now
    if w.quiescing then pure () else deliver U hub now deliveries
  else pure ()

def expireMigrations (U : Unicode) (hub : HubReleases) (now : Instant) : WorldAct Unit := do
  let w ← Act.get
  Act.modify (fun w => { w with identities := (w.identities.expireMigrations now).2 })
  let deliveries ← releaseAll hub true (w.identities.expireMigrations now).1
  deliver U hub now deliveries

def expireMigrationsWithoutWire (hub : HubReleases) (now : Instant) : WorldAct Unit := do
  let w ← Act.get
  Act.modify (fun w => { w with identities := (w.identities.expireMigrations now).2 })
  let _ ← releaseAll hub false (w.identities.expireMigrations now).1
  pure ()

def collectDrainedIdentityReleases (U : Unicode) (hub : HubReleases) (now : Instant) : WorldAct Unit := do
  let w ← Act.get
  Act.modify (fun w => { w with identities := w.identities.collectDrainedReleases.2 })
  let deliveries ← releaseAll hub (!w.quiescing) w.identities.collectDrainedReleases.1
  if w.quiescing then pure () else deliver U hub now deliveries

/-- `drain_sessions_for_shutdown`. `hubEmpty` says whether MyRoom kept nothing. -/
def drainSessionsForShutdown (hub : HubReleases) (hubEmpty : Bool) : WorldAct Unit := do
  let w ← Act.get
  Act.require (w.quiescing = true) (.error .sessionDrainRequiresQuiesce)
  Act.require (w.identities.outstandingOperationCount = 0)
    (.error (.identityOperationShutdownBlocked w.identities.outstandingOperationCount))
  Act.modify (fun w => { w with sessions := ∅, identities := w.identities.drainActive.2 })
  let _ ← releaseAll hub true w.identities.drainActive.1
  Act.require (hubEmpty = true) (.error .myroom)

/-! ## Planned exits -/

def planProtocolRoomExitFromSnapshot (userNo : UserNo) (roomId : RoomId) (expectedRoom : ProtocolRoomState) :
    WorldAct (Option ProtocolMigrationDelta × List OutboundDelivery) := do
  let next ← orFail (expectedRoom.removeUser userNo) (.error (.protocolRoomTransitionInconsistent userNo.get))
  let delta : ProtocolMigrationDelta :=
    { userNo := userNo
      roomId := roomId
      expectedRoom := expectedRoom
      nextRoom := if removesRoom next then none else some next
      removeMembership := true
      removeRoom := removesRoom next
      abortedLoadingFence := if removesRoom next ∧ next.phase = .loading then next.raceFence else none }
  if next.isEmpty then pure (some delta, [])
  else do
    let packet ← Act.ofExcept ((serializeGrSlotData next.slotData).mapError (fun e => .error (.roomProtocol e)))
    let w ← Act.get
    pure (some delta, w.deliveriesForUsers next.userNos [packet])

def planProtocolRoomExit (userNo : UserNo) : WorldAct (Option ProtocolMigrationDelta × List OutboundDelivery) := do
  let w ← Act.get
  match w.protocolRoomByUser.lookup userNo with
  | none => pure (none, [])
  | some roomId => do
    let expectedRoom ← orFail (w.protocolRooms.lookup roomId) (.error (.protocolRoomTransitionInconsistent userNo.get))
    planProtocolRoomExitFromSnapshot userNo roomId expectedRoom

/-- `plan_protocol_migration`: a player that stays in the channel of its room stays in the room, at a new address. -/
def planProtocolMigration (replacement : IdentityBinding) :
    WorldAct (Option ProtocolMigrationDelta × List OutboundDelivery) := do
  let w ← Act.get
  match w.protocolRoomByUser.lookup replacement.userNo with
  | none => pure (none, [])
  | some roomId => do
    let expectedRoom ← orFail (w.protocolRooms.lookup roomId)
      (.error (.protocolRoomTransitionInconsistent replacement.userNo.get))
    if replacement.channel = some expectedRoom.settings.channel then do
      let endpoint := legacyP2pEndpoint replacement.sourceIp 0
      let next ← orFail (expectedRoom.setP2pEndpoint replacement.userNo endpoint.1 endpoint.2)
        (.error (.protocolRoomTransitionInconsistent replacement.userNo.get))
      if next = expectedRoom then pure (none, [])
      else pure (some
        { userNo := replacement.userNo
          roomId := roomId
          expectedRoom := expectedRoom
          nextRoom := some next
          removeMembership := false
          removeRoom := false
          abortedLoadingFence := none }, [])
    else planProtocolRoomExitFromSnapshot replacement.userNo roomId expectedRoom

/-- `lock`: the plan still describes the world. -/
def lockDelta (delta : Option ProtocolMigrationDelta) : WorldAct Unit := do
  let w ← Act.get
  match delta with
  | none => pure ()
  | some delta =>
    Act.require (w.protocolRoomByUser.lookup delta.userNo = some delta.roomId ∧
        w.protocolRooms.lookup delta.roomId = some delta.expectedRoom)
      (.error (.protocolRoomTransitionInconsistent delta.userNo.get))

/-- The world after a plan is committed. -/
def withDelta (w : World) (delta : ProtocolMigrationDelta) : World :=
  let w := if delta.removeMembership then w.withoutMembership delta.userNo else w
  let w := if delta.removeRoom then w.withoutRoom delta.roomId
    else match delta.nextRoom with
      | some next => w.withRoom delta.roomId next
      | none => w
  match delta.abortedLoadingFence with
  | some fence => w.releaseRewardLanes fence
  | none => w

/-- `commit`. -/
def commitDelta (delta : Option ProtocolMigrationDelta) : WorldAct Unit := do
  match delta with
  | none => pure ()
  | some delta => do
    Act.require (delta.removeRoom → delta.roomId.get < 2 ^ 16) (.panic "protocol room ID fits in u16")
    Act.modify (fun w => w.withDelta delta)

/-- `enter_client_stage`, and the stage of entering a MyRoom: the player leaves its room, and what it leaves or enters at MyRoom
is told together with that. The failure of a reservation is named by the caller. -/
def enterStage (U : Unicode) (unavailable : SessionId → WorldError) (hub : HubEffect) (session : SessionId) :
    WorldAct Unit := do
  let identity ← authorizedIdentity U session
  let plan ← planProtocolRoomExit identity.userNo
  let more ← orFail hub (.error .myroom)
  let deliveries := plan.2 ++ more
  reserve unavailable deliveries
  lockDelta plan.1
  commitDelta plan.1
  publishReserved deliveries

def enterClientStage (U : Unicode) (hub : HubEffect) (session : SessionId) : WorldAct Unit :=
  enterStage U .clientStageOutboundUnavailable hub session

/-- The end of `myroom_entry`: the stage transition of an entry that was accepted. -/
def myroomEntryStage (U : Unicode) (hub : HubEffect) (session : SessionId) : WorldAct Unit :=
  enterStage U .myroomCommandOutboundUnavailable hub session

/-! ## Completing a migration -/

/-- A call of the registry. -/
def registryCall {α : Type} (call : IdentityRegistry → Except (Fault IdentityError) α × IdentityRegistry) : WorldAct α :=
  fun w => ((call w.identities).1.mapError (liftFault .identity), { w with identities := (call w.identities).2 })

/-- Give up a ticket when a step fails. -/
def orAbort {α : Type} (ticket : MigrationPreflight) (c : WorldAct α) : WorldAct α :=
  Act.recover c (fun e => do
    Act.modify (fun w => { w with identities := (w.identities.abortPreflightedMigration ticket).2 })
    Act.fail e)

/-- What the surroundings of a completion say: whether the profile is that of the nickname, whether MyRoom can follow, whether
the session index and the queue of lifecycle events could reserve room, the acknowledgement and the epoch of the UDP service. -/
structure MigrationSurroundings where
  subject : Except IdentityError Bool
  hub : Bool
  sessionIndexReserved : Bool
  lifecycleReserved : Bool
  acknowledgement : List UInt8
  activatedUdpEpoch : Nat

/-- The checks before a replacement is made. -/
def checkMigration (around : MigrationSurroundings) (ticket : MigrationPreflight) (now : Instant) : WorldAct Unit := do
  let subject ← Act.ofExcept (around.subject.mapError (fun e => .error (.identity e)))
  Act.require (subject = true) (.error .myroomProfileSubjectMismatch)
  let w ← Act.get
  let currentIp ← orFail (w.sessionIp ticket.destinationSession) (.error (.unknownSession ticket.destinationSession))
  Act.require (currentIp = ticket.destinationIp)
    (.error (.identity (.sourceIpMismatch ticket.destinationIp currentIp)))
  Act.ofExcept ((w.identities.validatePreflightedMigration ticket now).mapError (liftFault .identity))

/-- Everything that is planned and reserved for a replacement before the locks: the change of the rooms and what it tells. -/
def planMigration (around : MigrationSurroundings) (ticket : MigrationPreflight) (replacement : IdentityBinding) :
    WorldAct (Option ProtocolMigrationDelta × List OutboundDelivery) := do
  Act.require (around.hub = true) (.error .myroom)
  let plan ← planProtocolMigration replacement
  reserve .migrationAcknowledgementUnavailable [(ticket.destinationSession, [.foreign around.acknowledgement])]
  Act.reads (fun w => (reserveFrom w.sessions [ticket.destinationSession] plan.2).mapError
    (fun session => .error (.migrationPublicationUnavailable session)))
  Act.require (around.lifecycleReserved = true) (.error .migrationCommitCapacityUnavailable)
  pure plan

/-- `complete_preflighted_migration_with_acknowledgement`: prepare, reserve, lock, acknowledge, commit, publish. -/
def completePreflightedMigration (around : MigrationSurroundings) (ticket : MigrationPreflight) (now : Instant) :
    WorldAct MigrationCompletion := do
  orAbort ticket (checkMigration around ticket now)
  let candidate ← registryCall (fun r => r.preparePreflightedMigration ticket now around.sessionIndexReserved)
  let plan ← orAbort ticket (planMigration around ticket candidate.completion.binding)
  orAbort ticket (lockDelta plan.1)
  let guard ← registryCall (fun r => r.lockPreparedMigration ticket candidate now)
  publishReserved [(ticket.destinationSession, [.foreign around.acknowledgement])]
  let completion ← registryCall (fun r => r.commitMigration guard around.activatedUdpEpoch)
  commitDelta plan.1
  Act.modify (fun w => { w with observedP2pPorts := w.observedP2pPorts.erase completion.binding.userNo })
  publishReserved plan.2
  pure completion

end World

end P5136
