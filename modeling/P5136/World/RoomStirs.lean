import P5136.World.ExitStirs

/-!
# How rooms change as players come and look around

Creating and joining rooms, and how their members look, change the rooms in the listed ways only.
-/

namespace P5136

namespace World

open Act LeadsFrom

variable {calm : Bool} {w w' : World} {roomId : RoomId} {room next : ProtocolRoomState}

theorem stirs_reply (U : Unicode) (hub : HubReleases) (now : Instant) (session : SessionId) (packets : OutboundBatch) :
    Leads (Stirs calm) (reply U hub now session packets) := stirs_deliver U hub now _

theorem stirs_protocolRoomList (U : Unicode) (hub : HubReleases) (now : Instant) (session : SessionId)
    (identity : IdentityBinding) (request : ChGetRoomListRequest) :
    Leads (Stirs calm) (protocolRoomList U hub now session identity request) := by
  refine leads (behindGet fun w _ => pass (readOnly_ofExcept _) fun _ => ?_)
  exact pass (readOnly_ofExcept _) fun _ => Leads.from (stirs_reply U hub now session _)

/-! ## Ids of rooms -/

theorem free_takeFreeRoomId {ids : List Nat} {id : Nat} (h : (takeFreeRoomId w ids).1 = some id) :
    w.roomIdFree id = true := by
  induction ids with
  | nil => exact absurd h (by simp [takeFreeRoomId])
  | cons first rest ih =>
    unfold takeFreeRoomId at h
    split at h
    · rename_i hfree
      obtain rfl := Option.some.inj h
      exact hfree
    · exact ih h

theorem free_scanRoomId {fuel candidate id : Nat} (h : scanRoomId w fuel candidate = some id) : w.roomIdFree id = true := by
  induction fuel generalizing candidate with
  | zero => exact absurd h (by simp [scanRoomId])
  | succ fuel ih =>
    unfold scanRoomId at h
    split at h
    · rename_i hfree
      obtain rfl := Option.some.inj h
      exact hfree
    · exact ih h

/-- The free ids that are left when one is taken are some of those there were, and the one that is taken was one of them. -/
theorem takeFreeRoomId_spec (w : World) {ids : List Nat} (hnodup : ids.Nodup) :
    (takeFreeRoomId w ids).2 ⊆ ids ∧ ∀ id, (takeFreeRoomId w ids).1 = some id → id ∈ ids ∧ id ∉ (takeFreeRoomId w ids).2 := by
  induction ids with
  | nil =>
    refine ⟨List.Subset.refl _, ?_⟩
    rintro id ⟨⟩
  | cons first rest ih =>
    obtain ⟨hfirst, hrest⟩ := List.nodup_cons.1 hnodup
    unfold takeFreeRoomId
    split
    · refine ⟨List.subset_cons_self first rest, ?_⟩
      rintro id ⟨⟩
      exact ⟨List.mem_cons_self, hfirst⟩
    · obtain ⟨hsubset, htaken⟩ := ih hrest
      exact ⟨fun id hid => List.mem_cons_of_mem first (hsubset hid),
        fun id hid => ⟨List.mem_cons_of_mem first (htaken id hid).1, (htaken id hid).2⟩⟩

/-- When no free id can be taken, none is left. -/
theorem takeFreeRoomId_none {ids : List Nat} (h : (takeFreeRoomId w ids).1 = none) : (takeFreeRoomId w ids).2 = [] := by
  induction ids with
  | nil => rfl
  | cons first rest ih =>
    unfold takeFreeRoomId at h ⊢
    split
    · rename_i hfree
      rw [if_pos hfree] at h
      cases h
    · rename_i hfree
      rw [if_neg hfree] at h
      exact ih h

/-- An id that is scanned for has 16 bits and is not zero. -/
theorem scanRoomId_spec {fuel candidate id : Nat} (hcandidate : 0 < candidate ∧ candidate < 2 ^ 16)
    (h : scanRoomId w fuel candidate = some id) : 0 < id ∧ id < 2 ^ 16 := by
  induction fuel generalizing candidate with
  | zero => cases h
  | succ fuel ih =>
    unfold scanRoomId at h
    split at h
    · obtain rfl := Option.some.inj h
      exact hcandidate
    · refine ih ?_ h
      have hmod : (candidate + 1) % 2 ^ 16 < 2 ^ 16 := Nat.mod_lt _ (by omega)
      omega

theorem firstRoomIdCandidate_spec (w : World) : 0 < w.firstRoomIdCandidate ∧ w.firstRoomIdCandidate < 2 ^ 16 := by
  unfold firstRoomIdCandidate
  split
  · omega
  · omega

/-- What an allocation did: some ids are not free any more, and the id that it found may be that of a new room. -/
structure Allocates (w : World) (found : Option RoomId) (w' : World) (ids : Finset Nat) (nextRoomId : Nat) : Prop where
  world : w' = w.withIds ids nextRoomId
  subset : ids ⊆ w.freeProtocolRoomIds
  spare : ∀ roomId, found = some roomId → w.Spare roomId.get ∧ roomId.get ∉ ids

theorem total_allocateProtocolRoomId : Total allocateProtocolRoomId := by
  refine Total.andThen (fun w => ⟨w, w, rfl⟩) fun w => (total_modify _).andThen fun _ => ?_
  split
  · exact total_pure _
  · split
    · exact (total_modify _).andThen fun _ => total_pure _
    · exact total_pure _

theorem allocates {found : Option RoomId} (h : allocateProtocolRoomId w = (.ok found, w')) :
    ∃ ids nextRoomId, Allocates w found w' ids nextRoomId := by
  have hspec := takeFreeRoomId_spec w (w.freeProtocolRoomIds.sort_nodup (· ≤ ·))
  have hsubset : (takeFreeRoomId w (w.freeProtocolRoomIds.sort (· ≤ ·))).2.toFinset ⊆ w.freeProtocolRoomIds := by
    intro id hid
    exact (Finset.mem_sort (· ≤ ·)).1 (hspec.1 (List.mem_toFinset.1 hid))
  obtain ⟨_, _, hget, hrest⟩ := Act.bind_eq_ok.1 h
  obtain ⟨rfl, rfl⟩ := Act.get_eq_ok.1 hget
  obtain ⟨_, w₁, hmodify, hrest⟩ := Act.bind_eq_ok.1 hrest
  obtain rfl := Act.modify_eq_ok.1 hmodify
  rcases htaken : (takeFreeRoomId w (w.freeProtocolRoomIds.sort (· ≤ ·))).1 with _ | id
  · simp only [htaken] at hrest
    rcases hscanned : scanRoomId w 65535 w.firstRoomIdCandidate with _ | id
    · simp only [hscanned] at hrest
      obtain ⟨rfl, rfl⟩ := Act.pure_eq_ok.1 hrest
      refine ⟨_, w.nextRoomId, rfl, hsubset, ?_⟩
      rintro _ ⟨⟩
    · simp only [hscanned] at hrest
      obtain ⟨_, w₂, hmodify, hrest⟩ := Act.bind_eq_ok.1 hrest
      obtain rfl := Act.modify_eq_ok.1 hmodify
      obtain ⟨rfl, rfl⟩ := Act.pure_eq_ok.1 hrest
      have hfree := free_scanRoomId hscanned
      have hrange := scanRoomId_spec (firstRoomIdCandidate_spec w) hscanned
      refine ⟨_, _, rfl, hsubset, ?_⟩
      rintro _ ⟨⟩
      refine ⟨⟨hfree, .inr hrange⟩, ?_⟩
      rw [takeFreeRoomId_none htaken]
      simp
  · simp only [htaken] at hrest
    obtain ⟨rfl, rfl⟩ := Act.pure_eq_ok.1 hrest
    refine ⟨_, w.nextRoomId, rfl, hsubset, ?_⟩
    rintro _ ⟨⟩
    obtain ⟨hmem, hnot⟩ := hspec.2 id htaken
    exact ⟨⟨free_takeFreeRoomId htaken, .inl ((Finset.mem_sort (· ≤ ·)).1 hmem)⟩, fun hin => hnot (List.mem_toFinset.1 hin)⟩

/-! ## Entering a room -/

/-- A new participant stands for its user. -/
theorem userNo_prepareParticipant (w : World) (identity : IdentityBinding) (participant : RoomParticipant) :
    (w.prepareParticipant identity participant).player.userNo = identity.userNo.get := rfl

/-- The ids when a room is not made after all. -/
theorem Allocates.freed {ids : Finset Nat} {nextRoomId : Nat} (h : Allocates w (some roomId) w' ids nextRoomId)
    {α : Type} {c : WorldAct α} (hc : ReadOnly c) :
    Stirs calm w ((freeRoomId roomId >>= fun _ => c) w').2 := by
  obtain rfl := h.world
  unfold freeRoomId
  change Stirs calm w (Act.andThen (Act.andThen (Act.require _ _) _) _ _).2
  unfold Act.andThen Act.require
  by_cases hrange : roomId.get < 2 ^ 16
  · rw [if_pos hrange]
    dsimp only [Act.modify]
    rw [hc _]
    refine .single (.freed (insert roomId.get ids) nextRoomId fun id hid => ?_)
    rcases Finset.mem_insert.1 hid with rfl | hid
    · exact .inr (h.spare roomId rfl).1
    · exact .inl (h.subset hid)
  · rw [if_neg hrange]
    exact .single (.freed ids nextRoomId fun id hid => .inl (h.subset hid))

theorem stirs_createRoomAt {identity : IdentityBinding} (channel : ChannelBinding) (request : ChCreateRoomRequest)
    (participant : RoomParticipant) {ids : Finset Nat} {nextRoomId : Nat} (h : Allocates w (some roomId) w' ids nextRoomId)
    (hnew : w.protocolRoomByUser.lookup identity.userNo = none) :
    Stirs calm w (createRoomAt identity channel request participant roomId w').2 := by
  unfold createRoomAt
  rw [Act.bind_of_ok (Act.get_eq_ok.2 ⟨rfl, rfl⟩)]
  rcases hadded : (ProtocolRoomState.new roomId (createdSettings channel request)).addParticipant identity.userNo
    (w'.prepareParticipant identity participant) with _ | room
  · exact h.freed (readOnly_pure _)
  · dsimp only
    rcases serializeGrSlotData room.slotData with _ | _
    · exact h.freed (readOnly_fail _)
    · obtain rfl := h.world
      obtain ⟨hspare, hnot⟩ := h.spare roomId rfl
      exact .single (.opened hspare h.subset hnot hnew (userNo_prepareParticipant _ identity participant) hadded)

theorem stirs_protocolCreateRoom (U : Unicode) (hub : HubReleases) (now : Instant) (session : SessionId)
    (identity : IdentityBinding) (request : ChCreateRoomRequest) (participant : RoomParticipant) :
    Leads (Stirs calm) (protocolCreateRoom U hub now session identity request participant) := by
  refine leads (behindGet fun w _ => bind stirs_trans ?_ fun _ => stirs_reply U hub now session _)
  split
  · rename_i hmay
    have hnew : w.protocolRoomByUser.lookup identity.userNo = none := by
      unfold mayCreate at hmay
      simp only [Bool.and_eq_true, Option.isNone_iff_eq_none] at hmay
      exact hmay.2
    intro s hs
    subst hs
    obtain ⟨found, s', halloc⟩ := total_allocateProtocolRoomId s
    obtain ⟨ids, nextRoomId, hallocates⟩ := allocates halloc
    have hfreed : Stirs calm s s' := by
      rw [hallocates.world]
      exact .single (.freed ids nextRoomId fun id hid => .inl (hallocates.subset hid))
    rw [Act.bind_of_ok halloc]
    rcases found with _ | roomId
    · exact hfreed
    · rcases identity.channel with _ | channel
      · exact hfreed
      · exact stirs_createRoomAt channel request participant hallocates hnew
  · exact (stirs_pure _).from

/-- Who is let in enters a room in its lobby. -/
theorem stirs_joined {identity : IdentityBinding} {request : ChJoinRoomRequest} {participant : RoomParticipant}
    {status : JoinRoomStatus} {gameType : Nat}
    (h : w.joinOutcome identity request participant = .ok (status, gameType, some next)) :
    Stirs calm w (w.withMember identity.userNo ⟨request.roomId.toNat⟩ next) := by
  unfold joinOutcome at h
  split at h
  · cases h
  · rename_i room hroom
    have hfound : Found ⟨request.roomId.toNat⟩ room w := hroom
    split at h
    · cases h
    · rename_i hmay
      have hlobby : room.phase = .lobby := by
        unfold mayJoin at hmay
        simp only [Bool.not_eq_true', Bool.not_eq_false, Bool.and_eq_true, decide_eq_true_eq] at hmay
        exact hmay.1
      split at h
      · cases h
      · split at h
        · cases h
        · rename_i hmember
          rw [Bool.not_eq_true, Option.isSome_eq_false_iff, Option.isNone_iff_eq_none] at hmember
          split at h
          · cases h
          · rename_i last hadded
            split at h
            · cases h
            · simp only [Except.ok.injEq, Prod.mk.injEq, Option.some.injEq] at h
              obtain ⟨-, -, rfl⟩ := h
              exact .single (.entered hfound hlobby hmember (userNo_prepareParticipant w identity participant) hadded)

theorem stirs_protocolJoinRoom (U : Unicode) (hub : HubReleases) (now : Instant) (session : SessionId)
    (identity : IdentityBinding) (request : ChJoinRoomRequest) (participant : RoomParticipant) :
    Leads (Stirs calm) (protocolJoinRoom U hub now session identity request participant) := by
  refine leads ((readOnly_reads _).leadsFrom stirs_refl fun outcome => ?_)
  obtain ⟨status, gameType, entered⟩ := outcome
  rcases entered with _ | next
  · exact Leads.from (stirs_reply U hub now session _)
  · refine bind stirs_trans ?_ fun _ => stirs_reply U hub now session _
    rintro w ⟨-, hw⟩
    obtain ⟨houtcome, -⟩ := Act.reads_eq_ok.1 hw
    exact stirs_joined houtcome

/-! ## In a room -/

theorem stirs_protocolLeaveRoom (U : Unicode) (hub : HubReleases) (now : Instant) (session : SessionId)
    (identity : IdentityBinding) : Leads (Stirs calm) (protocolLeaveRoom U hub now session identity) := by
  refine leads (behindGet fun w _ => Leads.from ?_)
  split
  · exact stirs_bind (stirs_removeProtocolUser _) fun _ => stirs_deliver U hub now _
  · exact stirs_reply U hub now session _

theorem stirs_protocolFirstState (U : Unicode) (hub : HubReleases) (now : Instant) (session : SessionId)
    (identity : IdentityBinding) : Leads (Stirs calm) (protocolFirstState U hub now session identity) := by
  refine leads (behindGet fun w _ => ?_)
  split
  · exact (stirs_pure _).from
  · refine pass (readOnly_memberRoom _) fun room => pass (readOnly_ofExcept _) fun _ => Leads.from ?_
    exact stirs_reply U hub now session _

theorem stirs_roomProtocol (U : Unicode) (hub : HubReleases) (now : Instant) (session : SessionId)
    (payload : RoomCommandPayload) : Leads (Stirs calm) (roomProtocol U hub now session payload) := by
  refine leads (pass (readOnly_authorizedIdentity U session) fun identity => Leads.from ?_)
  cases payload with
  | list request => exact stirs_protocolRoomList U hub now session identity request
  | create request participant => exact stirs_protocolCreateRoom U hub now session identity request participant
  | join request participant => exact stirs_protocolJoinRoom U hub now session identity request participant
  | leave => exact stirs_protocolLeaveRoom U hub now session identity
  | firstState => exact stirs_protocolFirstState U hub now session identity

/-! ## How a member looks -/

/-- A look of a member. -/
theorem stirs_withLook (userNo : UserNo) {edit : ProtocolRoomState → Option ProtocolRoomState}
    (h : ∀ room next, edit room = some next → Dressed room next) : Stirs calm w (w.withLook userNo edit) := by
  unfold withLook
  split
  · exact stirs_refl w
  · rename_i roomId _
    split
    · exact stirs_refl w
    · rename_i next hnext
      obtain ⟨room, hfound, hedit⟩ := Option.bind_eq_some_iff.1 hnext
      exact Stirs.edit1 hfound (.dressed (h room next hedit))

theorem stirs_publishEquipment (U : Unicode) (hub : HubReleases) (now : Instant) (userNo : UserNo)
    (snapshot : Vector UInt8 65) (packet : List UInt8) :
    Leads (Stirs calm) (publishEquipment U hub now userNo snapshot packet) := by
  refine leads (behindGet fun w _ => ?_)
  split
  · exact (stirs_pure _).from
  · split
    · exact (stirs_pure _).from
    · refine Leads.from (stirs_bind (Act.leads_modify fun w => ?_) fun _ => stirs_deliver U hub now _)
      exact stirs_withLook userNo fun _ _ h => dressed_setEquipmentSnapshot h

theorem stirs_refreshRoomKartPhysics (U : Unicode) (session : SessionId) (floaterCodes : Vector Int 3) :
    Leads (Stirs calm) (refreshRoomKartPhysics U session floaterCodes) := by
  refine leads (pass (readOnly_authorizedIdentity U session) fun identity => ?_)
  refine Leads.from (Act.leads_modify fun w => stirs_withLook identity.userNo fun room next h => ?_)
  split at h
  · exact dressed_setFloaterCodes h
  · cases h

theorem stirs_publishMainEmblems (expected : IdentityBinding) (emblem1 emblem2 emblem3 : Nat) :
    Leads (Stirs calm) (publishMainEmblems expected emblem1 emblem2 emblem3) := by
  refine Act.leads_modify fun w => ?_
  split
  · exact stirs_withLook expected.userNo fun _ _ h => dressed_setMainEmblems h
  · exact stirs_refl w

theorem stirs_recordObservedP2pPort (identity : IdentityBinding) (port : UInt16) :
    Leads (Stirs calm) (recordObservedP2pPort identity port) := by
  refine Act.leads_modify fun w => ?_
  split
  · let observed : World := { w with observedP2pPorts := w.observedP2pPorts.insert identity.userNo (identity, port) }
    have hobserved : Stirs calm w observed := Stirs.still (.of_eq rfl ⟨rfl, rfl⟩ rfl id)
    refine hobserved.trans ?_
    exact stirs_withLook identity.userNo fun _ _ h => dressed_setP2pEndpoint h
  · exact stirs_refl w

end World

end P5136
