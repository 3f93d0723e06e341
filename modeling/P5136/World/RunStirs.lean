import P5136.World.Runs

/-!
# How rooms change in a run

The visits of a heartbeat change the rooms in the listed ways only. With that every command does, and so does a run. What happens
outside of the rooms has to leave them alone.
-/

namespace P5136

namespace World

open Act LeadsFrom

variable {calm : Bool} {w w' : World} {roomId : RoomId} {room next : ProtocolRoomState}

/-! ## Heartbeats -/

theorem stirs_tryStartScheduledRoom (items : ItemService) (roomId : RoomId) (now : Instant) (tick : Nat) :
    LeadsFrom (fun w => ∃ room, Found roomId room w ∧ room.phase = .loading) (Stirs false)
      (tryStartScheduledRoom items roomId now tick) := by
  refine behindGet fun w hw => ?_
  obtain ⟨room, hfound, hphase⟩ := hw
  split
  · rename_i hdue
    rw [show w.protocolRooms.lookup roomId = some room from hfound] at hdue
    refine behindFrozenRoom fun entry frozen hfrozen => behindOk fun batch _ => ?_
    dsimp only
    split
    · exact (stirs_pure _).from
    · refine bind stirs_trans (Act.leadsFrom_modify fun s hs => ?_) fun _ => stirs_publishReserved _
      obtain ⟨rfl, hentry⟩ := hs
      obtain rfl := Option.some.inj (hfound.symm.trans hentry)
      exact Stirs.edit1 hfound (.began hphase hdue)
  · exact (stirs_pure _).from

theorem stirs_advanceLoadingRoom (items : ItemService) (now : Instant) (tick : Nat) (roomId : RoomId) :
    LeadsFrom (fun w => ∃ room, Found roomId room w ∧ room.phase = .loading) (Stirs false)
      (advanceLoadingRoom items now tick roomId) := by
  refine behindFrozenRoom fun room frozen _ => behindGet fun w hw => ?_
  obtain ⟨⟨room', hfound', hphase⟩, hfound⟩ := hw
  obtain rfl := Option.some.inj (hfound'.symm.trans hfound)
  dsimp only
  split
  · refine Act.leadsFrom_modify fun s hs => ?_
    subst hs
    exact .single (.aborted hfound hphase)
  · refine behindModify ?_
    rintro s rfl _ rfl
    refine (Stirs.edit1 hfound (.checked _ now hphase)).trans (stirs_tryStartScheduledRoom items roomId now tick _ ?_)
    exact ⟨_, lookup_withRoom_self s roomId _, hphase⟩

theorem touches_tryStartScheduledRoom (items : ItemService) (roomId : RoomId) (now : Instant) (tick : Nat) :
    Leads (Touches roomId) (tryStartScheduledRoom items roomId now tick) := by
  have htrans := Touches.trans roomId
  refine Leads.bind htrans (readOnly_get.leads (Touches.refl roomId)) fun w => ?_
  split
  · refine Leads.bind htrans ((readOnly_frozenRoom roomId).leads (Touches.refl roomId)) fun entry => ?_
    refine Leads.bind htrans ((readOnly_ofExcept _).leads (Touches.refl roomId)) fun batch => ?_
    dsimp only
    split
    · exact (readOnly_pure _).leads (Touches.refl roomId)
    · refine Leads.bind htrans (Act.leads_modify fun w => touches_withRoom w roomId _) fun _ => ?_
      exact Act.leads_modify fun w => touches_published w roomId _
  · exact (readOnly_pure _).leads (Touches.refl roomId)

theorem touches_advanceLoadingRoom (items : ItemService) (now : Instant) (tick : Nat) (roomId : RoomId) :
    Leads (Touches roomId) (advanceLoadingRoom items now tick roomId) := by
  have htrans := Touches.trans roomId
  refine Leads.bind htrans ((readOnly_frozenRoom roomId).leads (Touches.refl roomId)) fun entry => ?_
  refine Leads.bind htrans (readOnly_get.leads (Touches.refl roomId)) fun w => ?_
  dsimp only
  split
  · refine Act.leads_modify fun w => ?_
    unfold withAborted
    split
    · exact htrans _ _ _ (touches_releaseRewardLanes w roomId _) (touches_withRoom _ roomId _)
    · exact touches_withRoom w roomId _
  · refine Leads.bind htrans (Act.leads_modify fun w => touches_withRoom w roomId _) fun _ => ?_
    exact touches_tryStartScheduledRoom items roomId now tick

theorem stirs_advanceLoading (U : Unicode) (items : ItemService) (order : VisitOrder) (now : Instant) (tick : Nat)
    (rolls : RoomId → Int → Nat × Nat) : Leads (Stirs false) (advanceLoading U items order.visit now tick rolls) := by
  have hvisited : ∀ (w : World) (phase : RoomPhase), ∀ i ∈ order.visit (w.roomsWhere (fun room => room.phase = phase)),
      ∃ room, Found i room w ∧ room.phase = phase := by
    intro w phase i hi
    obtain ⟨room, hfound, hphase⟩ := mem_roomsWhere.1 ((order.perm _).mem_iff.1 hi)
    exact ⟨room, hfound, of_decide_eq_true hphase⟩
  have hnodup : ∀ (w : World) (p : ProtocolRoomState → Bool), (order.visit (w.roomsWhere p)).Nodup :=
    fun w p => (order.perm _).nodup_iff.2 (nodup_roomsWhere w p)
  refine leads (behindGet fun w _ => ?_)
  split
  · exact (stirs_pure _).from
  · refine bind stirs_trans ?_ fun _ => leads (behindGet fun w _ => bind stirs_trans ?_ fun _ => ?_)
    · rintro s rfl
      exact stirs_atRoomsIn (stirs_advanceLoadingRoom items now tick) (touches_advanceLoadingRoom items now tick) (hnodup s _) s
        (hvisited s .loading)
    · rintro s rfl
      exact stirs_atRoomsIn (stirs_reconcileRunningRoom now tick) (touches_reconcileRunningRoom now tick) (hnodup s _) s
        (hvisited s .running)
    · exact leads (behindGet fun w _ => Leads.from (stirs_atRooms (stirs_advanceActiveRoom U now rolls) _))

/-! ## Runs -/

variable {U : Unicode}

/-- What happens outside of the rooms leaves them, their ids, and the names of the players as they are. -/
def Command.Contained (w : World) : Command → Prop
  | .outside change => Untouched w (change.effect w)
  | _ => True

/-- A command is a chain of changes. -/
theorem stirs_perform {command : Command} (h : command.Contained w) : Stirs false w (perform U command w) := by
  cases command with
  | lobby session payload => exact stirs_lobbyCommand U session payload w
  | rooms hub now session payload => exact stirs_roomProtocol U hub now session payload w
  | race items session payload now tick => exact stirs_raceCommand U items session payload now tick w
  | udp identity observedPort timeSync answered => exact stirs_dispatchUdpIngress identity observedPort timeSync answered w
  | readiness candidate => exact stirs_markLoadingReady candidate w
  | heartbeat items order now tick rolls => exact stirs_advanceLoading U items order now tick rolls w
  | equipment hub now userNo snapshot packet => exact stirs_publishEquipment U hub now userNo snapshot packet w
  | kartPhysics session floaterCodes => exact stirs_refreshRoomKartPhysics U session floaterCodes w
  | mainEmblems expected emblem1 emblem2 emblem3 => exact stirs_publishMainEmblems expected emblem1 emblem2 emblem3 w
  | clientStage hub session => exact stirs_enterStage U _ hub session w
  | myroomStage hub session => exact stirs_enterStage U _ hub session w
  | sessionClosed hub session now => exact stirs_sessionClosed U hub session now w
  | equipmentWritten hub session closeRequested now => exact stirs_finishDeferredEquipmentClose U hub session closeRequested now w
  | expireMigrations hub now => exact stirs_expireMigrations U hub now w
  | collectDrained hub now => exact stirs_collectDrainedIdentityReleases U hub now w
  | drainSessions hub hubEmpty => exact stirs_drainSessionsForShutdown hub hubEmpty w
  | migrate around ticket now => exact stirs_completePreflightedMigration around ticket now w
  | deliver hub now deliveries => exact stirs_deliver U hub now deliveries w
  | takeRewards now maximum => exact stirs_takeDueRewardTasks now maximum w
  | completeReward completion refresh now => exact stirs_completeRewardTask completion refresh now w
  | retryReward deadLetter now => exact stirs_retryRewardDeadLetter deadLetter now w
  | quiesce => exact Stirs.still (.of_eq rfl ⟨rfl, rfl⟩ rfl id)
  | drainProducers hub order writes now => exact stirs_drainOutboundProducersOnce hub order.visit writes now w
  | outside change => exact Stirs.still h

/-- A run is a chain of changes. -/
theorem Run.stirs {past : List Moment} (hrun : Run U past w) (h : ∀ moment ∈ past, moment.2.Contained moment.1) :
    Stirs false World.initial w := by
  induction hrun with
  | start => exact stirs_refl _
  | @step past w command _ ih =>
    refine (ih fun moment hmoment => h moment (List.mem_append_left _ hmoment)).trans (stirs_perform ?_)
    exact h (w, command) (List.mem_append_right _ (List.mem_singleton_self _))

end World

end P5136
