import P5136.World.Stirs

/-!
# How rooms change as players go

The ways out of a room, the ends of sessions and identities, and migrations change the rooms in the listed ways only.
-/

namespace P5136

namespace World

open Act LeadsFrom IdentityRegistry

variable {calm : Bool} {w w' : World} {roomId : RoomId} {room next : ProtocolRoomState}

/-! ## Leaving -/

theorem stirs_removeProtocolUser (userNo : UserNo) : Leads (Stirs calm) (removeProtocolUser userNo) := by
  refine leads (behindGet fun w _ => ?_)
  split
  · exact (stirs_pure _).from
  · rename_i roomId hmember
    split
    · rename_i hnone
      refine bind stirs_trans (Act.leadsFrom_modify fun s hs => ?_) fun _ => stirs_pure _
      subst hs
      exact .single (.dropped hmember hnone)
    · rename_i room hfound
      refine pass (readOnly_require _ _) fun _ => ?_
      refine bind stirs_trans (Act.leadsFrom_modify fun s hs => ?_) fun _ => ?_
      · subst hs
        exact .single (.left hfound (.inl hmember))
      · split
        · exact stirs_pure _
        · exact ((readOnly_ofExcept _).andThen fun _ => readOnly_pure _).leads stirs_refl

/-! ## Releases and closes -/

theorem stirs_publishHub (effect : HubEffect) : Leads (Stirs calm) (publishHub effect) := by
  refine leads (pass (readOnly_orFail _ _) fun deliveries => pass (readOnly_reserve _ _) fun _ => ?_)
  exact Leads.from (stirs_publishReserved deliveries)

theorem stirs_releaseIdentityState (hub : HubReleases) (publishWire : Bool) (identity : ReleasedIdentity) :
    Leads (Stirs calm) (releaseIdentityState hub publishWire identity) := by
  refine stirs_bind (stirs_modify fun _ => ⟨rfl, ⟨rfl, rfl⟩, rfl, rfl⟩) fun _ => stirs_bind (stirs_publishHub _) fun _ => ?_
  exact stirs_bind (stirs_removeProtocolUser _) fun _ => stirs_pure _

theorem stirs_releaseAll (hub : HubReleases) (publishWire : Bool) (identities : List ReleasedIdentity) :
    Leads (Stirs calm) (releaseAll hub publishWire identities) := by
  induction identities with
  | nil => exact stirs_pure _
  | cons identity rest ih =>
    refine stirs_bind (stirs_releaseIdentityState hub publishWire identity) fun _ => stirs_bind ih fun _ => ?_
    exact stirs_pure _

/-- A change of the identities that keeps whom they stand for, and of what concerns no room. -/
theorem stirs_identities {ε : Type} {f : World → World} (h : ∀ w, (f w).roomState = w.roomState ∧
      ((f w).freeProtocolRoomIds = w.freeProtocolRoomIds ∧ (f w).rooms = w.rooms) ∧ (f w).history = w.history ∧
      w.identities.KeepsNames (f w).identities) : Leads (Stirs calm) (Act.modify f : Act World (Fault ε) PUnit) :=
  Act.leads_modify fun w => Stirs.still (.of_eq (h w).1 (h w).2.1 (h w).2.2.1 fun hnamed => hnamed.keeps (h w).2.2.2)

theorem stirs_closeSessionState (U : Unicode) (hub : HubReleases) (publishWire : Bool) (session : SessionId) (now : Instant) :
    Leads (Stirs calm) (closeSessionState U hub publishWire session now) := by
  refine leads (behindGet fun w _ => Leads.from (stirs_bind ?_ fun _ => ?_))
  · exact stirs_identities fun w => ⟨rfl, ⟨rfl, rfl⟩, rfl, keepsNames_disconnect U w.identities session now⟩
  · split
    · exact stirs_releaseIdentityState hub publishWire _
    · exact stirs_pure _

theorem stirs_closeFailedSession (U : Unicode) (hub : HubReleases) (session : SessionId) (now : Instant) :
    Leads (Stirs calm) (closeFailedSession U hub session now) := by
  refine leads (behindGet fun w _ => Leads.from ?_)
  split
  · exact stirs_bind (stirs_modify fun _ => ⟨rfl, ⟨rfl, rfl⟩, rfl, rfl⟩) fun _ => stirs_pure _
  · exact stirs_closeSessionState U hub _ session now

/-- A delivery may close sessions, which take their players out of rooms. -/
theorem stirs_deliverFrom (U : Unicode) (hub : HubReleases) (now : Instant) (failed : List SessionId)
    (pending : List OutboundDelivery) (w : World) : Stirs calm w (deliverFrom U hub now failed pending w).2 := by
  induction failed, pending, w using deliverFrom.induct U hub now with
  | case1 failed w =>
    rw [deliverFrom]
  | case2 failed w session batch rest hsendable ih =>
    rw [deliverFrom, if_pos hsendable]
    exact (@stirs_publishReserved calm WorldError [(session, batch)] w).trans ih
  | case3 failed w session batch rest hsendable hsession e w' hclose =>
    have hstirs : Stirs calm w _ := stirs_closeFailedSession U hub session now w
    rw [hclose] at hstirs
    rw [deliverFrom, if_neg hsendable, dif_pos hsession]
    split
    · rename_i e' last hclose'
      obtain ⟨-, rfl⟩ := Prod.mk.inj (hclose.symm.trans hclose')
      exact hstirs
    · rename_i more last hclose'
      exact absurd (Prod.mk.inj (hclose.symm.trans hclose')).1 (by simp)
  | case4 failed w session batch rest hsendable hsession more w' hclose ih =>
    have hstirs : Stirs calm w _ := stirs_closeFailedSession U hub session now w
    rw [hclose] at hstirs
    rw [deliverFrom, if_neg hsendable, dif_pos hsession]
    split
    · rename_i e' last hclose'
      exact absurd (Prod.mk.inj (hclose.symm.trans hclose')).1 (by simp)
    · rename_i more' last hclose'
      obtain ⟨hmore, rfl⟩ := Prod.mk.inj (hclose.symm.trans hclose')
      obtain rfl := Except.ok.inj hmore
      exact hstirs.trans ih
  | case5 failed w session batch rest hsendable hsession ih =>
    rw [deliverFrom, if_neg hsendable, dif_neg hsession]
    exact ih

theorem stirs_deliver (U : Unicode) (hub : HubReleases) (now : Instant) (deliveries : List OutboundDelivery) :
    Leads (Stirs calm) (deliver U hub now deliveries) := fun w => stirs_deliverFrom U hub now [] deliveries w

theorem stirs_sessionClosed (U : Unicode) (hub : HubReleases) (session : SessionId) (now : Instant) :
    Leads (Stirs calm) (sessionClosed U hub session now) := by
  refine leads (behindGet fun w _ => Leads.from ?_)
  split
  · exact stirs_modify fun _ => ⟨rfl, ⟨rfl, rfl⟩, rfl, rfl⟩
  · refine stirs_bind (stirs_closeSessionState U hub _ session now) fun deliveries => ?_
    split
    · exact stirs_pure _
    · exact stirs_deliver U hub now deliveries

theorem stirs_finishDeferredEquipmentClose (U : Unicode) (hub : HubReleases) (session : SessionId) (closeRequested : Bool)
    (now : Instant) : Leads (Stirs calm) (finishDeferredEquipmentClose U hub session closeRequested now) := by
  refine stirs_bind (stirs_modify fun _ => ⟨rfl, ⟨rfl, rfl⟩, rfl, rfl⟩) fun _ => ?_
  split
  · refine leads (behindGet fun w _ => Leads.from ?_)
    refine stirs_bind (stirs_closeSessionState U hub _ session now) fun ds => ?_
    split
    · exact stirs_pure _
    · exact stirs_deliver U hub now ds
  · exact stirs_pure _

theorem stirs_expireMigrations (U : Unicode) (hub : HubReleases) (now : Instant) :
    Leads (Stirs calm) (expireMigrations U hub now) := by
  refine leads (behindGet fun w _ => Leads.from (stirs_bind ?_ fun _ => ?_))
  · exact stirs_identities fun w => ⟨rfl, ⟨rfl, rfl⟩, rfl, keepsNames_expireMigrations w.identities now⟩
  · exact stirs_bind (stirs_releaseAll hub true _) fun _ => stirs_deliver U hub now _

theorem stirs_expireMigrationsWithoutWire (hub : HubReleases) (now : Instant) :
    Leads (Stirs calm) (expireMigrationsWithoutWire hub now) := by
  refine leads (behindGet fun w _ => Leads.from (stirs_bind ?_ fun _ => ?_))
  · exact stirs_identities fun w => ⟨rfl, ⟨rfl, rfl⟩, rfl, keepsNames_expireMigrations w.identities now⟩
  · exact stirs_bind (stirs_releaseAll hub false _) fun _ => stirs_pure _

theorem stirs_collectDrainedIdentityReleases (U : Unicode) (hub : HubReleases) (now : Instant) :
    Leads (Stirs calm) (collectDrainedIdentityReleases U hub now) := by
  refine leads (behindGet fun w _ => Leads.from (stirs_bind ?_ fun _ => ?_))
  · exact stirs_identities fun w => ⟨rfl, ⟨rfl, rfl⟩, rfl, keepsNames_collectDrainedReleases w.identities⟩
  · refine stirs_bind (stirs_releaseAll hub _ _) fun ds => ?_
    split
    · exact stirs_pure _
    · exact stirs_deliver U hub now ds

theorem stirs_drainSessionsForShutdown (hub : HubReleases) (hubEmpty : Bool) :
    Leads (Stirs calm) (drainSessionsForShutdown hub hubEmpty) := by
  refine leads (behindGet fun w _ => pass (readOnly_require _ _) fun _ => ?_)
  refine pass (readOnly_require _ _) fun _ => Leads.from (stirs_bind ?_ fun _ => ?_)
  · exact stirs_identities fun w => ⟨rfl, ⟨rfl, rfl⟩, rfl, keepsNames_drainActive w.identities⟩
  · exact stirs_bind (stirs_releaseAll hub true _) fun _ => (readOnly_require _ _).leads stirs_refl

/-! ## Planned exits -/

/-- The world still has the room of a plan. -/
def Locked (delta : Option ProtocolMigrationDelta) (w : World) : Prop := ∀ d, delta = some d → Found d.roomId d.expectedRoom w

theorem readOnly_planFromSnapshot (userNo : UserNo) (roomId : RoomId) (room : ProtocolRoomState) :
    ReadOnly (planProtocolRoomExitFromSnapshot userNo roomId room) := by
  refine (readOnly_orFail _ _).andThen fun next => ?_
  dsimp only
  split
  · exact readOnly_pure _
  · exact (readOnly_ofExcept _).andThen fun _ => readOnly_get.andThen fun _ => readOnly_pure _

theorem readOnly_planProtocolRoomExit (userNo : UserNo) : ReadOnly (planProtocolRoomExit userNo) := by
  refine readOnly_get.andThen fun w => ?_
  split
  · exact readOnly_pure _
  · exact (readOnly_orFail _ _).andThen fun _ => readOnly_planFromSnapshot _ _ _

theorem readOnly_planProtocolMigration (replacement : IdentityBinding) : ReadOnly (planProtocolMigration replacement) := by
  refine readOnly_get.andThen fun w => ?_
  split
  · exact readOnly_pure _
  · refine (readOnly_orFail _ _).andThen fun room => ?_
    split
    · refine (readOnly_orFail _ _).andThen fun next => ?_
      split
      · exact readOnly_pure _
      · exact readOnly_pure _
    · exact readOnly_planFromSnapshot _ _ _

/-- The plan of an exit. -/
def exitDelta (userNo : UserNo) (roomId : RoomId) (room next : ProtocolRoomState) : ProtocolMigrationDelta where
  userNo := userNo
  roomId := roomId
  expectedRoom := room
  nextRoom := if removesRoom next then none else some next
  removeMembership := true
  removeRoom := removesRoom next
  abortedLoadingFence := if removesRoom next ∧ next.phase = .loading then next.raceFence else none

/-- The plan of a look. -/
def lookDelta (userNo : UserNo) (roomId : RoomId) (room next : ProtocolRoomState) : ProtocolMigrationDelta where
  userNo := userNo
  roomId := roomId
  expectedRoom := room
  nextRoom := some next
  removeMembership := false
  removeRoom := false
  abortedLoadingFence := none

/-- What may be planned: nothing, an exit, or a look. -/
inductive ExitPlan : Option ProtocolMigrationDelta → Prop where
  | none : ExitPlan none
  | exit {userNo : UserNo} (roomId : RoomId) {room next : ProtocolRoomState} : room.removeUser userNo = some next →
      ExitPlan (some (exitDelta userNo roomId room next))
  | look (userNo : UserNo) (roomId : RoomId) {room next : ProtocolRoomState} : Dressed room next →
      ExitPlan (some (lookDelta userNo roomId room next))

theorem withDelta_exit (w : World) (userNo : UserNo) (roomId : RoomId) (room next : ProtocolRoomState) :
    w.withDelta (exitDelta userNo roomId room next) = w.afterExit userNo roomId next := by
  unfold withDelta exitDelta afterExit
  dsimp only
  by_cases hremoves : removesRoom next = true
  · rw [if_pos hremoves, if_pos rfl, if_pos hremoves]
    by_cases hloading : next.phase = .loading
    · rw [if_pos ⟨hremoves, hloading⟩]
      rcases next.raceFence with _ | fence
      · rfl
      · dsimp only
        rw [if_pos hloading]
        rfl
    · rw [if_neg fun h => hloading h.2]
      rcases next.raceFence with _ | fence
      · rfl
      · dsimp only
        rw [if_neg hloading]
  · rw [if_neg hremoves, if_pos rfl, if_neg hremoves, if_neg hremoves, if_neg fun h => hremoves h.1]

theorem returns_exitFromSnapshot (userNo : UserNo) (roomId : RoomId) (room : ProtocolRoomState) :
    Returns (planProtocolRoomExitFromSnapshot userNo roomId room) (fun plan => ExitPlan plan.1) := by
  intro w plan w' h
  obtain ⟨next, w₁, hnext, hrest⟩ := Act.bind_eq_ok.1 h
  have hremoved := Checks.orElse_eq_ok.1 (Act.ofExcept_eq_ok.1 hnext).1
  split at hrest
  · obtain ⟨rfl, -⟩ := Act.pure_eq_ok.1 hrest
    exact .exit roomId hremoved
  · obtain ⟨_, _, -, hrest⟩ := Act.bind_eq_ok.1 hrest
    obtain ⟨_, _, -, hrest⟩ := Act.bind_eq_ok.1 hrest
    obtain ⟨rfl, -⟩ := Act.pure_eq_ok.1 hrest
    exact .exit roomId hremoved

theorem returns_exitPlan (userNo : UserNo) : Returns (planProtocolRoomExit userNo) (fun plan => ExitPlan plan.1) := by
  refine (returns_any _).bind fun w _ => ?_
  split
  · exact returns_pure .none
  · exact (returns_any _).bind fun _ _ => returns_exitFromSnapshot _ _ _

theorem returns_migrationPlan (replacement : IdentityBinding) :
    Returns (planProtocolMigration replacement) (fun plan => ExitPlan plan.1) := by
  refine (returns_any _).bind fun w _ => ?_
  split
  · exact returns_pure .none
  · rename_i roomId _
    refine (returns_any _).bind fun room _ => ?_
    split
    · intro s plan s' h
      obtain ⟨next, s₁, hnext, hrest⟩ := Act.bind_eq_ok.1 h
      have hendpoint := Checks.orElse_eq_ok.1 (Act.ofExcept_eq_ok.1 hnext).1
      split at hrest
      · obtain ⟨rfl, -⟩ := Act.pure_eq_ok.1 hrest
        exact .none
      · obtain ⟨rfl, -⟩ := Act.pure_eq_ok.1 hrest
        exact .look replacement.userNo roomId (dressed_setP2pEndpoint hendpoint)
    · exact returns_exitFromSnapshot _ _ _

/-- A locked plan is committed. -/
theorem stirs_commitDelta {delta : Option ProtocolMigrationDelta} (h : ExitPlan delta) :
    LeadsFrom (Locked delta) (Stirs calm) (commitDelta delta) := by
  cases h with
  | none => exact (stirs_pure _).from
  | @exit userNo roomId room next hremoved =>
    refine pass (readOnly_require _ _) fun _ => Act.leadsFrom_modify fun w hw => ?_
    have hfound : Found roomId room w := hw _ rfl
    have hleft : Stir calm w (w.afterExit userNo roomId ((room.removeUser userNo).getD room)) :=
      .left hfound (.inr (by rw [hremoved]; rfl))
    rw [hremoved] at hleft
    rw [withDelta_exit]
    exact .single hleft
  | @look userNo roomId room next hdressed =>
    refine pass (readOnly_require _ _) fun _ => Act.leadsFrom_modify fun w hw => ?_
    have hfound : Found roomId room w := hw _ rfl
    exact Stirs.edit1 hfound (.dressed hdressed)

theorem readOnly_lockDelta (delta : Option ProtocolMigrationDelta) : ReadOnly (lockDelta delta) := by
  refine readOnly_get.andThen fun w => ?_
  split
  · exact readOnly_pure _
  · exact readOnly_require _ _

theorem locked_lockDelta {delta : Option ProtocolMigrationDelta} {x : Unit} (h : lockDelta delta w = (.ok x, w')) :
    Locked delta w' := by
  obtain rfl := (readOnly_lockDelta delta).eq_of h
  rintro d rfl
  obtain ⟨_, _, hget, hrest⟩ := Act.bind_eq_ok.1 h
  obtain ⟨rfl, rfl⟩ := Act.get_eq_ok.1 hget
  exact (Act.require_eq_ok.1 hrest).1.2

/-- Behind the check of a plan the world has its room. -/
theorem behindLock {β : Type} {P : World → Prop} {delta : Option ProtocolMigrationDelta} {k : Unit → WorldAct β}
    (hk : LeadsFrom (Locked delta) (Stirs calm) (k ())) : LeadsFrom P (Stirs calm) (lockDelta delta >>= k) :=
  (readOnly_lockDelta delta).leadsFrom stirs_refl fun _ w hw => hk w (locked_lockDelta hw.2)

theorem stirs_enterStage (U : Unicode) (unavailable : SessionId → WorldError) (hub : HubEffect) (session : SessionId) :
    Leads (Stirs calm) (enterStage U unavailable hub session) := by
  refine leads (pass (readOnly_authorizedIdentity U session) fun identity => ?_)
  refine (readOnly_planProtocolRoomExit identity.userNo).leadsFrom stirs_refl fun plan w hw => ?_
  have hplan := returns_exitPlan identity.userNo w plan w hw.2
  refine (pass (readOnly_orFail _ _) fun _ => pass (readOnly_reserve _ _) fun _ => behindLock ?_ :
    LeadsFrom (fun _ => True) (Stirs calm) _) w trivial
  exact bind stirs_trans (stirs_commitDelta hplan) fun _ => stirs_publishReserved _

/-! ## Migrations -/

theorem stirs_registryCall {α : Type} {call : IdentityRegistry → Except (Fault IdentityError) α × IdentityRegistry}
    (h : ∀ r : IdentityRegistry, r.KeepsNames (call r).2) : Leads (Stirs calm) (registryCall call) :=
  fun w => Stirs.still (.of_eq rfl ⟨rfl, rfl⟩ rfl fun hnamed => hnamed.keeps (h w.identities))

/-- A step that may give up its ticket. -/
theorem stirs_orAbort {α : Type} (ticket : MigrationPreflight) {c : WorldAct α} (hc : Leads (Stirs calm) c) :
    Leads (Stirs calm) (orAbort ticket c) := by
  refine Leads.recover stirs_trans hc fun _ => stirs_bind ?_ fun _ => stirs_fail _
  exact stirs_identities fun w => ⟨rfl, ⟨rfl, rfl⟩, rfl, keepsNames_abortPreflightedMigration w.identities ticket⟩

/-- A call that keeps the rooms keeps what is known of them. -/
theorem passSame {ε α β : Type} {P : World → Prop} {c : Act World (Fault ε) α} {k : α → Act World (Fault ε) β}
    (hP : ∀ w w', w'.protocolRooms = w.protocolRooms → P w → P w') (hc : ∀ w, (c w).2.protocolRooms = w.protocolRooms)
    (hstirs : Leads (Stirs calm) c) (hk : ∀ a, LeadsFrom P (Stirs calm) (k a)) : LeadsFrom P (Stirs calm) (c >>= k) := by
  intro w hw
  change Stirs calm w (Act.andThen c k w).2
  unfold Act.andThen
  have hrooms := hc w
  have hfirst := hstirs w
  rcases hcw : c w with ⟨r, u⟩
  rw [hcw] at hrooms hfirst
  cases r with
  | ok a => exact hfirst.trans (hk a u (hP w u hrooms hw))
  | error e => exact hfirst

theorem locked_same {delta : Option ProtocolMigrationDelta} (w w' : World) (h : w'.protocolRooms = w.protocolRooms)
    (hlocked : Locked delta w) : Locked delta w' := by
  intro d hd
  exact (congrArg (AList.lookup d.roomId) h).trans (hlocked d hd)

theorem readOnly_checkMigration (around : MigrationSurroundings) (ticket : MigrationPreflight) (now : Instant) :
    ReadOnly (checkMigration around ticket now) := by
  refine (readOnly_ofExcept _).andThen fun _ => (readOnly_require _ _).andThen fun _ => readOnly_get.andThen fun w => ?_
  exact (readOnly_orFail _ _).andThen fun _ => (readOnly_require _ _).andThen fun _ => readOnly_ofExcept _

theorem readOnly_planMigration (around : MigrationSurroundings) (ticket : MigrationPreflight) (replacement : IdentityBinding) :
    ReadOnly (planMigration around ticket replacement) := by
  refine (readOnly_require _ _).andThen fun _ => (readOnly_planProtocolMigration replacement).andThen fun plan => ?_
  refine (readOnly_reserve _ _).andThen fun _ => (readOnly_reads _).andThen fun _ => (readOnly_require _ _).andThen fun _ => ?_
  exact readOnly_pure _

/-- What a step that is not given up leaves. -/
theorem orAbort_eq_ok {α : Type} {ticket : MigrationPreflight} {c : WorldAct α} {a : α}
    (h : orAbort ticket c w = (.ok a, w')) : c w = (.ok a, w') := by
  rcases Act.recover_eq_ok.1 h with hok | ⟨e, u, -, hhandler⟩
  · exact hok
  · obtain ⟨_, _, -, hfail⟩ := Act.bind_eq_ok.1 hhandler
    exact (Act.fail_eq_ok.1 hfail).elim

theorem stirs_completePreflightedMigration (around : MigrationSurroundings) (ticket : MigrationPreflight) (now : Instant) :
    Leads (Stirs calm) (completePreflightedMigration around ticket now) := by
  refine stirs_bind (stirs_orAbort ticket ((readOnly_checkMigration around ticket now).leads stirs_refl)) fun _ => ?_
  refine stirs_bind (stirs_registryCall fun r => r.keepsNames_preparePreflightedMigration ticket now _) fun candidate => ?_
  have hplanned : ∀ w plan w', orAbort ticket (planMigration around ticket candidate.completion.binding) w = (.ok plan, w') →
      ExitPlan plan.1 := by
    intro w plan w' h
    have hok := orAbort_eq_ok h
    have hreturns : Returns (planMigration around ticket candidate.completion.binding) (fun plan => ExitPlan plan.1) := by
      refine (returns_any _).bind fun _ _ => (returns_migrationPlan _).bind fun plan hplan => ?_
      exact (returns_any _).bind fun _ _ => (returns_any _).bind fun _ _ => (returns_any _).bind fun _ _ => returns_pure hplan
    exact hreturns w plan w' hok
  refine Leads.behind stirs_trans (Q := fun plan _ => ExitPlan plan.1)
    (stirs_orAbort ticket ((readOnly_planMigration around ticket _).leads stirs_refl)) hplanned fun plan w hplan => ?_
  -- The lock is behind everything that can still change the rooms, so the plan is that of the room as it is.
  refine Leads.behind stirs_trans (Q := fun _ => Locked plan.1)
    (stirs_orAbort ticket ((readOnly_lockDelta _).leads stirs_refl))
    (fun _ _ _ h => locked_lockDelta (orAbort_eq_ok h)) (fun _ => ?_) w
  refine passSame locked_same (fun _ => rfl)
    (stirs_registryCall fun r => r.keepsNames_lockPreparedMigration ticket candidate now) fun guard => ?_
  refine passSame locked_same (fun _ => rfl) (stirs_publishReserved _) fun _ => ?_
  refine passSame locked_same (fun _ => rfl)
    (stirs_registryCall fun r => r.keepsNames_commitMigration guard around.activatedUdpEpoch) fun completion => ?_
  refine bind stirs_trans (stirs_commitDelta hplan) fun _ => ?_
  refine stirs_bind (stirs_modify fun _ => ⟨rfl, ⟨rfl, rfl⟩, rfl, rfl⟩) fun _ => ?_
  exact stirs_bind (stirs_publishReserved _) fun _ => stirs_pure _

end World

end P5136
